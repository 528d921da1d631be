import Cypher.Proofs.Identification
import Cypher.Proofs.Tokens

/-! Reading quotations, names and numbers from the beginning of a text. Each reader stops
where what was written ends, whatever stands behind it. -/

namespace Cypher

/-! ## Words -/

theorem ends_cons {inside : Char → Bool} {head : Char} {tail : List Char}
    (outside : inside head = false) : Ends inside (head :: tail) := by
  rintro _ ⟨⟩
  exact outside

/-- The longest word in front. -/
theorem takeWhile_append_of_ends {inside : Char → Bool} {word rest : List Char}
    (wordInside : ∀ character ∈ word, inside character) (ends : Ends inside rest) :
    (word ++ rest).takeWhile inside = word := by
  rw [List.takeWhile_append_of_pos wordInside]
  cases rest with
  | nil => simp
  | cons head tail =>
      have outside := ends head rfl
      simp [outside]

/-- What stands behind the longest word. -/
theorem dropWhile_append_of_ends {inside : Char → Bool} {word rest : List Char}
    (wordInside : ∀ character ∈ word, inside character) (ends : Ends inside rest) :
    (word ++ rest).dropWhile inside = rest := by
  rw [List.dropWhile_append_of_pos wordInside]
  cases rest with
  | nil => rfl
  | cons head tail =>
      have outside := ends head rfl
      simp [outside]

/-! ## Strings -/

namespace Quoted

/-- Read up to the first double quote without a backslash. A backslash makes the character
behind it stand for itself. -/
def scan : List Char → Option (List Char × List Char)
  | [] => none
  | '"' :: rest => some ([], rest)
  | ['\\'] => none
  | '\\' :: escaped :: rest => (scan rest).map fun (body, behind) => (escaped :: body, behind)
  | head :: rest => (scan rest).map fun (body, behind) => (head :: body, behind)

theorem scan_escapeCharacters (body rest : List Char) :
    scan (escapeCharacters body ++ '"' :: rest) = some (body, rest) := by
  induction body with
  | nil => rfl
  | cons head tail induction =>
      rw [escapeCharacters]
      split
      · rw [List.cons_append, List.cons_append, scan, induction]
        rfl
      · next plain =>
          have noBackslash : head ≠ '\\' := by
            rintro rfl
            exact plain rfl
          have noQuote : head ≠ '"' := by
            rintro rfl
            exact plain rfl
          rw [List.cons_append, scan.eq_5, induction]
          · rfl
          · exact noQuote
          · exact fun isBackslash _ => noBackslash isBackslash
          · exact fun _ _ isBackslash _ => noBackslash isBackslash

end Quoted

/-! ## Names -/

namespace Identifier

/-- Read up to the first backtick that is not doubled. -/
def scanQuoted : List Char → Option (List Char × List Char)
  | [] => none
  | '\x60' :: '\x60' :: rest =>
      (scanQuoted rest).map fun (body, behind) => (backtick :: body, behind)
  | '\x60' :: rest => some ([], rest)
  | head :: rest => (scanQuoted rest).map fun (body, behind) => (head :: body, behind)

/-- Read a name, between backticks or without them. -/
def scan : List Char → Option (String × List Char)
  | [] => none
  | head :: rest =>
      if head = backtick then
        (scanQuoted rest).map fun (body, behind) => (String.ofList body, behind)
      else
        some (String.ofList ((head :: rest).takeWhile isSubsequent),
          (head :: rest).dropWhile isSubsequent)

theorem scanQuoted_doubleBackticks (body : List Char) {rest : List Char}
    (separate : rest.head? ≠ some backtick) :
    scanQuoted (doubleBackticks body ++ backtick :: rest) = some (body, rest) := by
  induction body with
  | nil =>
      cases rest with
      | nil => rfl
      | cons head tail =>
          rw [doubleBackticks, List.nil_append, backtick, scanQuoted.eq_3]
          rintro behind ⟨⟩
          exact separate rfl
  | cons head tail induction =>
      rw [doubleBackticks]
      split
      · next marked =>
          rw [marked, List.cons_append, List.cons_append, backtick, scanQuoted, ← backtick,
            induction]
          rfl
      · next plain =>
          rw [List.cons_append, scanQuoted.eq_4, induction]
          · rfl
          · exact fun _ marked _ => plain marked
          · exact plain

/-- A name is read as what it was written for, whether it was quoted or not. -/
theorem scan_escape (extraWords : List String) (name : String) {rest : List Char}
    (ends : Ends isInName rest) :
    scan ((escape extraWords name).toList ++ rest) = some (name, rest) := by
  rw [escape]
  split
  · next bare =>
      have plain := (Bool.and_eq_true_iff.mp bare).1
      have inside := (isSubsequent_of_isPlain plain).2
      rcases isInitial_of_isPlain plain with ⟨head, tail, spelled, -⟩
      have unquoted : head ≠ backtick := by
        rintro rfl
        exact absurd (inside backtick (spelled ▸ List.mem_cons_self)) (by decide)
      have whole := takeWhile_append_of_ends inside (ends_isSubsequent ends)
      have behind := dropWhile_append_of_ends inside (ends_isSubsequent ends)
      rw [spelled, List.cons_append] at whole behind ⊢
      rw [scan, if_neg unquoted, whole, behind, ← spelled, String.ofList_toList]
  · rw [toList_quote, List.cons_append, List.append_assoc, scan, if_pos rfl, List.cons_append,
      List.nil_append, scanQuoted_doubleBackticks _ (head?_ne_backtick ends)]
    exact congrArg (fun read => some (read, rest)) String.ofList_toList

end Identifier

/-! ## Numbers -/

namespace Decimal

/-- Read digits, of which there is at least one. -/
def scanNatural (text : List Char) : Option (Nat × List Char) :=
  let digits := text.takeWhile Char.isDigit
  if digits.isEmpty then none
  else some (Nat.ofDigitChars 10 digits 0, text.dropWhile Char.isDigit)

/-- Read a whole number with its sign. -/
def scan : List Char → Option (Int × List Char)
  | '-' :: rest => (scanNatural rest).map fun (number, behind) => (-(number : Int), behind)
  | text => (scanNatural text).map fun (number, behind) => ((number : Int), behind)

theorem scanNatural_natural (number : Nat) {rest : List Char} (ends : Ends Char.isDigit rest) :
    scanNatural ((natural number).toList ++ rest) = some (number, rest) := by
  have inside : ∀ character ∈ (natural number).toList, character.isDigit :=
    fun _ => isDigit_of_mem_natural
  rw [scanNatural, takeWhile_append_of_ends inside ends, dropWhile_append_of_ends inside ends]
  simp [natural, Nat.toDigits_ne_nil]

/-- A whole number begins with a digit or a sign. -/
theorem exists_inside (number : Int) :
    ∃ head tail, (integer number).toList = head :: tail ∧ isInside head := by
  cases number with
  | ofNat number =>
      rcases exists_digit number with ⟨digit, rest, spelled, isDigit⟩
      exact ⟨digit, rest, spelled, by simp [isInside, isDigit]⟩
  | negSucc number =>
      have spelled : (integer (.negSucc number)).toList = '-' :: (natural (number + 1)).toList := by
        rw [integer, String.toList_append]
        rfl
      exact ⟨'-', (natural (number + 1)).toList, spelled, rfl⟩

theorem scan_integer (number : Int) {rest : List Char} (ends : Ends Char.isDigit rest) :
    scan ((integer number).toList ++ rest) = some (number, rest) := by
  cases number with
  | ofNat number =>
      have unsigned : ∀ tail, (natural number).toList ++ rest ≠ '-' :: tail := by
        intro tail equal
        rcases exists_digit number with ⟨digit, digits, spelled, isDigit⟩
        rw [spelled] at equal
        rw [(List.cons.inj equal).1] at isDigit
        cases isDigit
      rw [integer, scan.eq_2 _ unsigned, scanNatural_natural number ends]
      rfl
  | negSucc number =>
      have signed : (integer (.negSucc number)).toList ++ rest =
          '-' :: ((natural (number + 1)).toList ++ rest) := by
        rw [integer, String.toList_append]
        rfl
      rw [signed, scan, scanNatural_natural (number + 1) ends]
      rfl

end Decimal

end Cypher
