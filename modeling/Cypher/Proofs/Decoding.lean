import Cypher.Proofs.Scanning

/-! Reading literal text back. The reader looks at the text alone: it knows neither the value
nor the reserved words that the value was written with. -/

namespace Cypher.Value

mutual

/-- Read the value in front of a text. Every step takes one of `budget`, of which no text
needs more than it has characters. -/
def readValue : Nat → List Char → Option (Value × List Char)
  | _ + 1, 'N' :: 'U' :: 'L' :: 'L' :: behind => some (null, behind)
  | _ + 1, 't' :: 'r' :: 'u' :: 'e' :: behind => some (boolean true, behind)
  | _ + 1, 'f' :: 'a' :: 'l' :: 's' :: 'e' :: behind => some (boolean false, behind)
  | _ + 1, '"' :: body =>
      (Quoted.scan body).map fun (content, behind) => (string (String.ofList content), behind)
  | _ + 1, '[' :: ']' :: behind => some (array [], behind)
  | budget + 1, '[' :: filled =>
      (readElements budget filled).map fun (elements, behind) => (array elements, behind)
  | _ + 1, '\x7b' :: '\x7d' :: behind => some (object [], behind)
  | budget + 1, '\x7b' :: ' ' :: filled =>
      (readMembers budget filled).map fun (members, behind) => (object members, behind)
  | _ + 1, text => (Decimal.scan text).map fun (number, behind) => (integer number, behind)
  | 0, _ => none

/-- Read one element or more, up to the closing bracket. -/
def readElements : Nat → List Char → Option (List Value × List Char)
  | 0, _ => none
  | budget + 1, text =>
      match readValue budget text with
      | some (head, ']' :: behind) => some ([head], behind)
      | some (head, ',' :: ' ' :: more) =>
          (readElements budget more).map fun (tail, behind) => (head :: tail, behind)
      | _ => none

/-- Read one member or more, up to the closing brace. -/
def readMembers : Nat → List Char → Option (List (String × Value) × List Char)
  | 0, _ => none
  | budget + 1, text =>
      match Identifier.scan text with
      | some (key, ':' :: ' ' :: rest) =>
          match readValue budget rest with
          | some (value, ' ' :: '\x7d' :: behind) => some ([(key, value)], behind)
          | some (value, ',' :: ' ' :: more) =>
              (readMembers budget more).map fun (tail, behind) => ((key, value) :: tail, behind)
          | _ => none
      | _ => none

end

/-- Read the value in front of a text, and what stands behind it. -/
def read (text : List Char) : Option (Value × List Char) :=
  readValue (text.length + 1) text

/-- The value of which the whole text is a literal. -/
def ofLiteral? (text : String) : Option Value :=
  match read text.toList with
  | some (value, []) => some value
  | _ => none

mutual

/-- All numbers in the value are whole. -/
def isWhole : Value → Bool
  | double _ => false
  | array elements => areWhole elements
  | object members => areWholeMembers members
  | _ => true

def areWhole : List Value → Bool
  | [] => true
  | head :: tail => head.isWhole && areWhole tail

def areWholeMembers : List (String × Value) → Bool
  | [] => true
  | (_, value) :: rest => value.isWhole && areWholeMembers rest

end

/-! ## One step of the reader -/

section Steps

variable {budget : Nat} {rest : List Char}

theorem readValue_integer (number : Int) (ends : Ends Char.isDigit rest) :
    readValue (budget + 1) ((Decimal.integer number).toList ++ rest) =
      some (integer number, rest) := by
  have scanned := Decimal.scan_integer number ends
  rcases Decimal.exists_inside number with ⟨head, tail, spelled, inside⟩
  rw [spelled, List.cons_append] at scanned ⊢
  rw [readValue, scanned]
  · rfl
  -- Neither a digit nor a sign begins a value of another kind.
  all_goals
    intro behind equal
    rw [(List.cons.inj equal).1] at inside
    cases inside

theorem readValue_string (content : String) :
    readValue (budget + 1) ((Quoted.quote content).toList ++ rest) =
      some (string content, rest) := by
  have spelled : (Quoted.quote content).toList ++ rest =
      '"' :: (Quoted.escapeCharacters content.toList ++ '"' :: rest) := by
    simp [Quoted.quote, Quoted.escape]
  rw [spelled, readValue, Quoted.scan_escapeCharacters, Option.map_some]
  exact congrArg (fun text => some (string text, rest)) String.ofList_toList

/-- No value begins with a closing bracket. -/
theorem readElements_bracket : readElements budget (']' :: rest) = none := by
  have noValue : ∀ budget, readValue budget (']' :: rest) = none := by
    intro budget
    cases budget with
    | zero => rw [readValue]
    | succ budget => rw [readValue] <;> simp [Decimal.scan, Decimal.scanNatural]
  cases budget with
  | zero => rw [readElements]
  | succ budget => rw [readElements, noValue]

theorem readValue_array {elements : List Value} {filled : List Char}
    (read : readElements budget filled = some (elements, rest)) :
    readValue (budget + 1) ('[' :: filled) = some (array elements, rest) := by
  rw [readValue, read]
  · rfl
  · rintro behind rfl
    rw [readElements_bracket] at read
    cases read

theorem readValue_object {members : List (String × Value)} {filled : List Char}
    (read : readMembers budget filled = some (members, rest)) :
    readValue (budget + 1) ('\x7b' :: ' ' :: filled) = some (object members, rest) := by
  rw [readValue, read]
  rfl

theorem readElements_last {head : Value} {text : List Char}
    (read : readValue budget text = some (head, ']' :: rest)) :
    readElements (budget + 1) text = some ([head], rest) := by
  simp only [readElements, read]

theorem readElements_more {head : Value} {tail : List Value} {text more : List Char}
    (read : readValue budget text = some (head, ',' :: ' ' :: more))
    (readTail : readElements budget more = some (tail, rest)) :
    readElements (budget + 1) text = some (head :: tail, rest) := by
  simp only [readElements, read, readTail, Option.map_some]

theorem readMembers_last {key : String} {value : Value} {text behind : List Char}
    (scanned : Identifier.scan text = some (key, ':' :: ' ' :: behind))
    (read : readValue budget behind = some (value, ' ' :: '\x7d' :: rest)) :
    readMembers (budget + 1) text = some ([(key, value)], rest) := by
  simp only [readMembers, scanned, read]

theorem readMembers_more {key : String} {value : Value} {tail : List (String × Value)}
    {text behind more : List Char}
    (scanned : Identifier.scan text = some (key, ':' :: ' ' :: behind))
    (read : readValue budget behind = some (value, ',' :: ' ' :: more))
    (readTail : readMembers budget more = some (tail, rest)) :
    readMembers (budget + 1) text = some ((key, value) :: tail, rest) := by
  simp only [readMembers, scanned, read, readTail, Option.map_some]

end Steps

/-! ## Literals -/

theorem toList_listText (elements : List String) (rest : List Char) :
    (listText elements).toList ++ rest =
      '[' :: ((", ".intercalate elements).toList ++ ']' :: rest) := by
  simp [listText]

theorem toList_mapText {entries : List String} (filled : entries ≠ []) (rest : List Char) :
    (mapText entries).toList ++ rest =
      '\x7b' :: ' ' :: ((", ".intercalate entries).toList ++ ' ' :: '\x7d' :: rest) := by
  simp [mapText, filled]

mutual

/-- A literal is read as its value, whatever stands behind it. Only a number has to end
where the text behind it begins. -/
theorem readValue_literal (extraWords : List String) : (value : Value) → value.isWhole →
    ∀ {budget : Nat} {rest : List Char},
      (value.literal extraWords).toList.length < budget →
      (∀ number, value = integer number → Ends Char.isDigit rest) →
      readValue budget ((value.literal extraWords).toList ++ rest) = some (value, rest)
  | value, whole, 0, rest, enough, ends => absurd enough (Nat.not_lt_zero _)
  | null, whole, budget + 1, rest, enough, ends => by
      rw [literal]
      exact readValue.eq_1 budget rest
  | boolean true, whole, budget + 1, rest, enough, ends => by
      rw [literal]
      exact readValue.eq_2 budget rest
  | boolean false, whole, budget + 1, rest, enough, ends => by
      rw [literal]
      exact readValue.eq_3 budget rest
  | integer number, whole, budget + 1, rest, enough, ends => by
      rw [literal]
      exact readValue_integer number (ends number rfl)
  | double number, whole, budget + 1, rest, enough, ends => by cases whole
  | string content, whole, budget + 1, rest, enough, ends => by
      rw [literal]
      exact readValue_string content
  | array [], whole, budget + 1, rest, enough, ends => by
      rw [literal, elementLiterals]
      exact readValue.eq_5 budget rest
  | array (head :: tail), whole, budget + 1, rest, enough, ends => by
      rw [literal] at enough ⊢
      rw [isWhole] at whole
      rw [toList_listText]
      apply readValue_array
      apply readElements_literals extraWords head tail whole
      simp [listText, -String.toList_intercalate] at enough
      omega
  | object [], whole, budget + 1, rest, enough, ends => by
      rw [literal, memberLiterals]
      exact readValue.eq_7 budget rest
  | object (head :: tail), whole, budget + 1, rest, enough, ends => by
      rw [literal] at enough ⊢
      rw [isWhole] at whole
      have filled : memberLiterals extraWords (head :: tail) ≠ [] := by
        simp [memberLiterals]
      rw [toList_mapText filled]
      apply readValue_object
      apply readMembers_literals extraWords head tail whole
      simp [mapText, filled, -String.toList_intercalate] at enough
      omega

theorem readElements_literals (extraWords : List String) : (head : Value) →
    (tail : List Value) → areWhole (head :: tail) →
    ∀ {budget : Nat} {rest : List Char},
      (", ".intercalate (elementLiterals extraWords (head :: tail))).toList.length + 1 < budget →
      readElements budget
          ((", ".intercalate (elementLiterals extraWords (head :: tail))).toList ++ ']' :: rest) =
        some (head :: tail, rest)
  | _, _, _, 0, _, enough => absurd enough (Nat.not_lt_zero _)
  | head, [], whole, budget + 1, rest, enough => by
      have headWhole : head.isWhole := by simpa [areWhole] using whole
      rw [elementLiterals, elementLiterals, String.intercalate_singleton] at enough ⊢
      apply readElements_last
      apply readValue_literal extraWords head headWhole (by omega)
      exact fun _ _ => ends_cons rfl
  | head, next :: tail, whole, budget + 1, rest, enough => by
      rcases Bool.and_eq_true_iff.mp whole with ⟨headWhole, tailWhole⟩
      have spelled : ", ".intercalate (elementLiterals extraWords (head :: next :: tail)) =
          head.literal extraWords ++ ", " ++
            ", ".intercalate (elementLiterals extraWords (next :: tail)) := by
        rw [elementLiterals, elementLiterals, String.intercalate_cons_cons]
      rw [spelled] at enough ⊢
      simp only [String.toList_append, List.length_append, List.append_assoc] at enough ⊢
      apply readElements_more
      · apply readValue_literal extraWords head headWhole (by omega)
        exact fun _ _ => ends_cons rfl
      · apply readElements_literals extraWords next tail tailWhole
        have separated : ", ".toList.length = 2 := rfl
        omega

theorem readMembers_literals (extraWords : List String) : (head : String × Value) →
    (tail : List (String × Value)) → areWholeMembers (head :: tail) →
    ∀ {budget : Nat} {rest : List Char},
      (", ".intercalate (memberLiterals extraWords (head :: tail))).toList.length + 1 < budget →
      readMembers budget
          ((", ".intercalate (memberLiterals extraWords (head :: tail))).toList ++
            ' ' :: '\x7d' :: rest) =
        some (head :: tail, rest)
  | _, _, _, 0, _, enough => absurd enough (Nat.not_lt_zero _)
  | (key, value), [], whole, budget + 1, rest, enough => by
      have valueWhole : value.isWhole := by simpa [areWholeMembers] using whole
      rw [memberLiterals, memberLiterals, String.intercalate_singleton] at enough ⊢
      simp only [String.toList_append, List.length_append, List.append_assoc] at enough ⊢
      apply readMembers_last
      · exact Identifier.scan_escape extraWords key (ends_cons rfl)
      · apply readValue_literal extraWords value valueWhole (by omega)
        exact fun _ _ => ends_cons rfl
  | (key, value), next :: tail, whole, budget + 1, rest, enough => by
      rcases Bool.and_eq_true_iff.mp whole with ⟨valueWhole, tailWhole⟩
      have spelled : ", ".intercalate (memberLiterals extraWords ((key, value) :: next :: tail)) =
          Identifier.escape extraWords key ++ ": " ++ value.literal extraWords ++ ", " ++
            ", ".intercalate (memberLiterals extraWords (next :: tail)) := by
        rw [memberLiterals, memberLiterals, String.intercalate_cons_cons]
      rw [spelled] at enough ⊢
      simp only [String.toList_append, List.length_append, List.append_assoc] at enough ⊢
      apply readMembers_more
      · exact Identifier.scan_escape extraWords key (ends_cons rfl)
      · apply readValue_literal extraWords value valueWhole (by omega)
        exact fun _ _ => ends_cons rfl
      · apply readMembers_literals extraWords next tail tailWhole
        have separated : ", ".toList.length = 2 := rfl
        omega

end

theorem read_literal {value : Value} (whole : value.isWhole) (extraWords : List String)
    {rest : List Char} (ends : ∀ number, value = integer number → Ends Char.isDigit rest) :
    read ((value.literal extraWords).toList ++ rest) = some (value, rest) := by
  apply readValue_literal extraWords value whole _ ends
  rw [List.length_append]
  omega

theorem ofLiteral?_of_whole {value : Value} (whole : value.isWhole) (extraWords : List String) :
    ofLiteral? (value.literal extraWords) = some value := by
  have ends : ∀ number, value = integer number → Ends Char.isDigit [] := by
    rintro _ _ _ ⟨⟩
  have readWhole := read_literal whole extraWords ends
  rw [List.append_nil] at readWhole
  rw [ofLiteral?, readWhole]

/-- A value whose numbers are whole is read back from its literal text, and the text ends
where the value does: what stands behind it is left. Values with one text are the same. -/
theorem ofLiteral?_literal {value : Value} (whole : value.isWhole)
    (extraWords : List String) :
    ofLiteral? (value.literal extraWords) = some value ∧
      (∀ rest, (∀ number, value = integer number → Ends Char.isDigit rest) →
        read ((value.literal extraWords).toList ++ rest) = some (value, rest)) ∧
      ∀ (other : Value) (otherWords : List String), other.isWhole →
        value.literal extraWords = other.literal otherWords → value = other := by
  refine ⟨ofLiteral?_of_whole whole extraWords, fun _ => read_literal whole extraWords, ?_⟩
  intro other otherWords otherWhole sameText
  have read := ofLiteral?_of_whole whole extraWords
  rw [sameText, ofLiteral?_of_whole otherWhole otherWords] at read
  exact (Option.some.inj read).symm

/-- Brackets, braces and quotes inside strings and keys. -/
theorem ofLiteral?_literal_nested :
    let value := object [("WHERE", array [string "]\"", integer (-3), object []]),
      ("\x60 \x7d", object [("key", array [null, array []])])]
    value.isWhole ∧
      value.literal [] = "\x7b \x60WHERE\x60: [\"]\\\"\", -3, \x7b\x7d], \x60\x60\x60 \x7d\x60: " ++
        "\x7b key: [NULL, []] \x7d \x7d" ∧
      ofLiteral? (value.literal []) = some value ∧
      read ((value.literal []).toList ++ [']', '"']) = some (value, [']', '"']) := by
  have whole : isWhole (object [("WHERE", array [string "]\"", integer (-3), object []]),
      ("\x60 \x7d", object [("key", array [null, array []])])]) := by decide
  have apart := ofLiteral?_literal whole []
  exact ⟨whole, by decide, apart.1, apart.2.1 _ (by rintro _ ⟨⟩)⟩

end Cypher.Value
