import Cypher.Proofs.Scanning

/-! The boundaries of names, of lists of names and of strings. What was written is read back
as it was, and what stands behind it is left as it is. -/

namespace Cypher

theorem ends_nil {inside : Char → Bool} : Ends inside [] := nofun

/-! ## Names -/

namespace Identifier

/-- The letters from A to Z in either case. -/
def IsLetter (character : Char) : Prop :=
  ('A' ≤ character ∧ character ≤ 'Z') ∨ ('a' ≤ character ∧ character ≤ 'z')

def IsDigit (character : Char) : Prop :=
  '0' ≤ character ∧ character ≤ '9'

/-- A name that needs no backticks. It is no reserved word, whatever the case of its letters. -/
structure IsBare (extraWords : List String) (name : String) : Prop where
  spelled : ∃ head tail, name.toList = head :: tail ∧ (IsLetter head ∨ head = '_') ∧
    ∀ character ∈ tail, IsLetter character ∨ IsDigit character ∨ character = '_'
  unreserved : ∀ word ∈ reservedWords ++ extraWords,
    name.toList.map Char.toLower ≠ word.toList.map Char.toLower

theorem isAlpha_iff (character : Char) : character.isAlpha ↔ IsLetter character := by
  change (decide ('A' ≤ character ∧ character ≤ 'Z') ||
    (decide ('a' ≤ character) && decide (character ≤ 'z'))) = true ↔ _
  simp [IsLetter]

theorem isDigit_iff (character : Char) : character.isDigit ↔ IsDigit character := by
  change (decide ('0' ≤ character) && decide (character ≤ '9')) = true ↔ _
  simp [IsDigit]

theorem isInitial_iff (character : Char) :
    isInitial character ↔ IsLetter character ∨ character = '_' := by
  rw [isInitial, Bool.or_eq_true, isAlpha_iff, beq_iff_eq]

theorem isSubsequent_iff (character : Char) :
    isSubsequent character ↔ IsLetter character ∨ IsDigit character ∨ character = '_' := by
  rw [isSubsequent, Char.isAlphanum, Bool.or_eq_true, Bool.or_eq_true, isAlpha_iff, isDigit_iff,
    beq_iff_eq, or_assoc]

theorem isPlain_iff (name : String) :
    isPlain name ↔ ∃ head tail, name.toList = head :: tail ∧ (IsLetter head ∨ head = '_') ∧
      ∀ character ∈ tail, IsLetter character ∨ IsDigit character ∨ character = '_' := by
  rw [isPlain]
  cases name.toList with
  | nil => simp
  | cons head tail => simp [isInitial_iff, isSubsequent_iff]

theorem isReserved_iff (extraWords : List String) (name : String) :
    isReserved extraWords name ↔ ∃ word ∈ reservedWords ++ extraWords,
      name.toList.map Char.toLower = word.toList.map Char.toLower := by
  simp only [isReserved, List.any_eq_true, sameWord, beq_iff_eq]

theorem isBare_iff (extraWords : List String) (name : String) :
    (isPlain name && !isReserved extraWords name) = true ↔ IsBare extraWords name := by
  rw [Bool.and_eq_true, Bool.not_eq_true', ← Bool.not_eq_true, isPlain_iff, isReserved_iff]
  constructor
  · rintro ⟨spelled, unreserved⟩
    exact ⟨spelled, fun word member same => unreserved ⟨word, member, same⟩⟩
  · rintro ⟨spelled, unreserved⟩
    exact ⟨spelled, fun ⟨word, member, same⟩ => unreserved word member same⟩

theorem length_le_doubleBackticks (text : List Char) :
    text.length ≤ (doubleBackticks text).length := by
  induction text with
  | nil => exact Nat.le_refl 0
  | cons head tail induction =>
      rw [doubleBackticks]
      split <;> simp only [List.length_cons] <;> omega

/-- Backticks make a name longer. -/
theorem quote_ne (name : String) : quote name ≠ name := by
  intro same
  have sameLength := congrArg (·.toList.length) same
  have longer := length_le_doubleBackticks name.toList
  simp only [toList_quote, List.length_cons, List.length_append, List.length_nil] at sameLength
  omega

theorem escape_eq_self_iff (extraWords : List String) (name : String) :
    escape extraWords name = name ↔ IsBare extraWords name := by
  rw [← isBare_iff, escape]
  split
  · next bare => exact iff_of_true rfl bare
  · next quoted => exact iff_of_false (quote_ne name) quoted

/-- A written name begins with a backtick or as a plain name does. -/
theorem exists_beginning (extraWords : List String) (name : String) :
    ∃ head tail, (escape extraWords name).toList = head :: tail ∧
      (head = backtick ∨ isInitial head) := by
  rw [escape]
  split
  · next bare =>
      rcases isInitial_of_isPlain (Bool.and_eq_true_iff.mp bare).1 with
        ⟨head, tail, spelled, initial⟩
      exact ⟨head, tail, spelled, .inr initial⟩
  · exact ⟨backtick, _, toList_quote name, .inl rfl⟩

/-- Read the name in front of a text. Without backticks it has to begin as a plain name. -/
def read? (text : String) : Option (String × String) :=
  if text.toList.head?.any fun head => head == backtick || isInitial head then
    (scan text.toList).map fun (name, behind) => (name, String.ofList behind)
  else none

theorem read?_escape (extraWords : List String) (name : String) {rest : String}
    (ends : Ends isInName rest.toList) :
    read? (escape extraWords name ++ rest) = some (name, rest) := by
  rcases exists_beginning extraWords name with ⟨head, tail, spelled, begins⟩
  have isName : ((escape extraWords name ++ rest).toList.head?.any fun head =>
      head == backtick || isInitial head) = true := by
    simpa [String.toList_append, spelled] using begins
  rw [read?, if_pos isName, String.toList_append, scan_escape extraWords name ends]
  exact congrArg (fun behind => some (name, behind)) String.ofList_toList

/-- A name neither takes characters from the text behind it nor leaves some to it. -/
theorem escape_append_determined {extraWords otherWords : List String}
    {name other rest otherRest : String} (ends : Ends isInName rest.toList)
    (otherEnds : Ends isInName otherRest.toList)
    (same : escape extraWords name ++ rest = escape otherWords other ++ otherRest) :
    name = other ∧ rest = otherRest := by
  have read := read?_escape extraWords name ends
  rw [same, read?_escape otherWords other otherEnds] at read
  exact (Prod.mk.inj (Option.some.inj read)).imp Eq.symm Eq.symm

/-- A name is written as it stands exactly if it is bare. However it is written, it is read
back, and nothing of it depends on the text behind it. -/
theorem escape_self_delimiting (extraWords : List String) (name : String) :
    (escape extraWords name = name ↔ IsBare extraWords name) ∧
      (∀ rest : String, Ends isInName rest.toList →
        read? (escape extraWords name ++ rest) = some (name, rest)) ∧
      (∀ otherWords other, escape extraWords name = escape otherWords other → name = other) ∧
      ∀ otherWords other (rest otherRest : String), Ends isInName rest.toList →
        Ends isInName otherRest.toList →
        escape extraWords name ++ rest = escape otherWords other ++ otherRest →
        name = other ∧ rest = otherRest := by
  refine ⟨escape_eq_self_iff extraWords name, fun rest => read?_escape extraWords name, ?_, ?_⟩
  · intro otherWords other same
    have sameAlone : escape extraWords name ++ "" = escape otherWords other ++ "" := by rw [same]
    exact (escape_append_determined ends_nil ends_nil sameAlone).1
  · intro otherWords other rest otherRest
    exact escape_append_determined

/-- Backticks at both ends of a name, in front of a type. -/
theorem escape_self_delimiting_backticks :
    escape [] "\x60a\x60" = "\x60\x60\x60a\x60\x60\x60" ∧
      Ends isInName ":Movie".toList ∧
      read? ("\x60\x60\x60a\x60\x60\x60" ++ ":Movie") = some ("\x60a\x60", ":Movie") := by
  have ends : Ends isInName ":Movie".toList := by
    rintro _ ⟨⟩
    rfl
  exact ⟨by decide, ends, (escape_self_delimiting [] "\x60a\x60").2.1 ":Movie" ends⟩

end Identifier

/-! ## Lists of names -/

namespace Config

/-- Names behind a colon. No names have no text. -/
def listed (separator : String) (write : String → String) (names : List String) : String :=
  if names.isEmpty then "" else ":" ++ separator.intercalate (names.map write)

theorem listed_eq_empty_iff (separator : String) (write : String → String)
    (names : List String) : listed separator write names = "" ↔ names = [] := by
  cases names with
  | nil => exact iff_of_true rfl rfl
  | cons head tail =>
      refine iff_of_false (fun empty => ?_) nofun
      have noText := congrArg String.toList empty
      rw [listed, if_neg nofun, String.toList_append] at noText
      cases noText

/-- No name goes on with the separator, so it keeps the names apart even if they contain it. -/
theorem listed_inj {extraWords : List String} {separator : String} {mark : Char}
    (isMark : separator.toList = [mark]) (outside : Identifier.isInName mark = false)
    {names others : List String}
    (same : listed separator (Identifier.escape extraWords) names =
      listed separator (Identifier.escape extraWords) others) : names = others := by
  cases names with
  | nil => exact ((listed_eq_empty_iff _ _ others).mp same.symm).symm
  | cons head tail =>
      cases others with
      | nil => exact (listed_eq_empty_iff _ _ _).mp same
      | cons other rest =>
          have texts := congrArg String.toList ((String.append_right_inj ":").mp same)
          rw [String.toList_intercalate, String.toList_intercalate, isMark, List.map_map,
            List.map_map] at texts
          have apart : ∀ name, TellsApart (String.toList ∘ Identifier.escape extraWords) id
              (fun _ => True) (Ends Identifier.isInName) name :=
            fun name other _ _ _ ends otherEnds => Identifier.escape_append_inj ends otherEnds
          have written : ∀ name behind,
              (String.toList ∘ Identifier.escape extraWords) name ++ behind ≠ [] := by
            intro name behind
            rcases Identifier.exists_beginning extraWords name with ⟨first, more, spelled, -⟩
            rw [Function.comp_apply, spelled]
            exact nofun
          have follows : ∀ tail, Ends Identifier.isInName ([mark] ++ tail) :=
            fun tail => ends_cons outside
          have sameNames := TellsApart.intercalate follows
            (fun name _ => apart name) (fun _ _ => trivial) (fun _ _ => trivial) ends_nil ends_nil
            ends_nil ends_nil (fun name _ => written name) (fun name _ => written name)
            (congrArg (· ++ []) texts)
          simpa using sameNames.1

theorem labels_eq_listed {config : Config} (escaped : config.verbatim.nodeLabels = false)
    (names : List String) : config.labels names =
      listed config.labelOperator.token (Identifier.escape config.extraReservedWords) names := by
  have label : config.label = config.identifier := by
    funext name
    rw [Config.label, escaped, if_neg Bool.false_ne_true]
  rw [labels, label]
  rfl

theorem relationshipTypes_eq_listed {config : Config}
    (escaped : config.verbatim.relationshipTypes = false) (names : List String) :
    config.relationshipTypes names =
      listed "|" (Identifier.escape config.extraReservedWords) names := by
  have relationshipType : config.relationshipType = config.identifier := by
    funext name
    rw [Config.relationshipType, escaped, if_neg Bool.false_ne_true]
  rw [relationshipTypes, relationshipType]
  rfl

/-- A text of labels or of types stands for one list of names only. -/
theorem name_lists_determined (config : Config)
    (labelsEscaped : config.verbatim.nodeLabels = false)
    (typesEscaped : config.verbatim.relationshipTypes = false) :
    (∀ names others, config.labels names = config.labels others → names = others) ∧
      (∀ names others, config.relationshipTypes names = config.relationshipTypes others →
        names = others) ∧
      (∀ names, config.labels names = "" ↔ names = []) ∧
      ∀ names, config.relationshipTypes names = "" ↔ names = [] := by
  simp only [labels_eq_listed labelsEscaped, relationshipTypes_eq_listed typesEscaped]
  refine ⟨fun names others => ?_, fun names others => listed_inj rfl rfl,
    listed_eq_empty_iff _ _, listed_eq_empty_iff _ _⟩
  cases config.labelOperator with
  | colon => exact listed_inj rfl rfl
  | ampersand => exact listed_inj rfl rfl

/-- One label with a separator in it, and two labels. -/
theorem name_lists_determined_separator :
    let config : Config := { labelOperator := .ampersand }
    config.verbatim.nodeLabels = false ∧ config.verbatim.relationshipTypes = false ∧
      config.labels ["a&b", ""] ≠ config.labels ["a", "b", ""] ∧
      config.relationshipTypes [""] ≠ "" := by
  intro config
  have determined := name_lists_determined config rfl rfl
  refine ⟨rfl, rfl, fun same => ?_, fun empty => ?_⟩
  · exact absurd (determined.1 _ _ same) (by decide)
  · cases (determined.2.2.2 [""]).mp empty

end Config

/-! ## Strings -/

namespace Quoted

theorem escapeCharacters_eq_self {text : List Char} (plain : text.any needsEscape = false) :
    escapeCharacters text = text := by
  induction text with
  | nil => rfl
  | cons head tail induction =>
      rw [List.any_cons, Bool.or_eq_false_iff] at plain
      rw [escapeCharacters, plain.1, if_neg Bool.false_ne_true, induction plain.2]

theorem escapeSparingly_eq (text : String) : escapeSparingly text = escape text := by
  rw [escapeSparingly]
  split
  · rfl
  · next plain =>
      rw [escape, escapeCharacters_eq_self (Bool.eq_false_iff.mpr plain), String.ofList_toList]

/-- Read the body of a string literal, of which the opening quote was read already. -/
def read? (text : String) : Option (String × String) :=
  (scan text.toList).map fun (body, behind) => (String.ofList body, String.ofList behind)

theorem read?_escape (text rest : String) :
    read? (escape text ++ "\"" ++ rest) = some (text, rest) := by
  have spelled : (escape text ++ "\"" ++ rest).toList =
      escapeCharacters text.toList ++ '"' :: rest.toList := by
    simp [escape]
  rw [read?, spelled, scan_escapeCharacters]
  exact congrArg some (congrArg₂ Prod.mk String.ofList_toList String.ofList_toList)

/-- The body of a literal is read back up to the closing quote and no further. It makes no
difference whether text that needs no backslash is escaped or taken as it stands. -/
theorem body_self_delimiting (text : String) :
    (∀ rest, read? (escape text ++ "\"" ++ rest) = some (text, rest)) ∧
      (∀ other rest otherRest,
        escape text ++ "\"" ++ rest = escape other ++ "\"" ++ otherRest →
          text = other ∧ rest = otherRest) ∧
      escapeSparingly text = escape text ∧
      (text.toList.any needsEscape = false → escape text = text) := by
  refine ⟨read?_escape text, fun other rest otherRest same => ?_, escapeSparingly_eq text,
    fun plain => ?_⟩
  · have read := read?_escape text rest
    rw [same, read?_escape other otherRest] at read
    exact (Prod.mk.inj (Option.some.inj read)).imp Eq.symm Eq.symm
  · rw [escape, escapeCharacters_eq_self plain, String.ofList_toList]

/-- A backslash at the end of a string, in front of the quote that closes it. -/
theorem body_self_delimiting_backslash :
    escape "a\\" = "a\\\\" ∧ read? ("a\\\\" ++ "\"" ++ "]") = some ("a\\", "]") ∧
      escapeSparingly "a\\" = "a\\\\" :=
  ⟨by decide, (body_self_delimiting "a\\").1 "]", (body_self_delimiting "a\\").2.2.1⟩

end Quoted

end Cypher
