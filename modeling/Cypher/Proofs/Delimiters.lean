import Cypher.Text.Identifier
import Cypher.Value

/-! Where quoted names begin and end. A quoted name is told from a longer text that
begins with a quoted name by the character behind it, and from a longer text that ends
with one by the character in front of it. -/

namespace Cypher

open Identifier (backtick doubleBackticks quote)

/-! ## Quoted names -/

/-- Behind a quoted name stands no backtick, so no other quoted name begins with it. -/
theorem eq_nil_of_doubleBackticks_append {name other rest : List Char}
    (equal : doubleBackticks name ++ [backtick] = doubleBackticks other ++ backtick :: rest)
    (separate : rest.head? ≠ some backtick) : rest = [] := by
  induction name generalizing other with
  | nil =>
      cases other with
      | nil => exact (List.cons.inj equal).2.symm
      | cons head tail =>
          rw [doubleBackticks, doubleBackticks] at equal
          split at equal
          · simp at equal
          · next different => exact absurd (List.cons.inj equal).1.symm different
  | cons first name induction =>
      cases other with
      | nil =>
          rw [doubleBackticks, doubleBackticks] at equal
          split at equal
          · have behind := (List.cons.inj equal).2
            rw [← behind] at separate
            exact absurd rfl separate
          · next different => exact absurd (List.cons.inj equal).1 different
      | cons head tail =>
          rw [doubleBackticks, doubleBackticks] at equal
          split at equal <;> split at equal
          · exact induction (List.cons.inj (List.cons.inj equal).2).2
          · next different => exact absurd (List.cons.inj equal).1.symm different
          · next different _ => exact absurd (List.cons.inj equal).1 different
          · exact induction (List.cons.inj equal).2

theorem doubleBackticks_append (first second : List Char) :
    doubleBackticks (first ++ second) = doubleBackticks first ++ doubleBackticks second := by
  induction first with
  | nil => rfl
  | cons head tail induction =>
      rw [List.cons_append, doubleBackticks, doubleBackticks, induction]
      split <;> rfl

theorem reverse_doubleBackticks (name : List Char) :
    (doubleBackticks name).reverse = doubleBackticks name.reverse := by
  induction name with
  | nil => rfl
  | cons head tail induction =>
      rw [List.reverse_cons, doubleBackticks_append, ← induction, doubleBackticks]
      split
      · next equal => simp [doubleBackticks, equal]
      · next different => simp [doubleBackticks, different]

/-! ## Backwards -/

/-- The text from its end to its start. -/
def backwards (text : String) : String :=
  String.ofList text.toList.reverse

theorem backwards_append (first second : String) :
    backwards (first ++ second) = backwards second ++ backwards first := by
  simp [backwards]

theorem backwards_quote (name : String) : backwards (quote name) = quote (backwards name) := by
  simp [backwards, quote, reverse_doubleBackticks]

/-! ## Ends of texts -/

/-- The text starts with something else than a backtick. -/
def startsPlain (text : String) : Bool :=
  text.toList.head?.any (· != backtick)

/-- The text ends with something else than a backtick. -/
def endsPlain (text : String) : Bool :=
  text.toList.getLast?.any (· != backtick)

theorem startsPlain_append {text : String} (plain : startsPlain text) (behind : String) :
    startsPlain (text ++ behind) := by
  unfold startsPlain at plain ⊢
  rw [String.toList_append]
  cases characters : text.toList with
  | nil => rw [characters] at plain; cases plain
  | cons head tail => rwa [characters] at plain

theorem endsPlain_append {text : String} (plain : endsPlain text) (before : String) :
    endsPlain (before ++ text) := by
  unfold endsPlain at plain ⊢
  rw [String.toList_append, List.getLast?_append]
  cases last : text.toList.getLast? with
  | none => rw [last] at plain; cases plain
  | some character => rwa [last] at plain

theorem startsPlain_backwards (text : String) :
    startsPlain (backwards text) = endsPlain text := by
  simp [startsPlain, endsPlain, backwards]

/-- The text does not start with a quoted name, or goes on behind it. -/
def OpensInside (text : String) : Prop :=
  startsPlain text ∨ ∃ name rest, text = quote name ++ rest ∧ startsPlain rest

/-- The text may also be a quoted name, or nothing. -/
def Opens (text : String) : Prop :=
  OpensInside text ∨ (∃ name, text = quote name) ∨ text = ""

/-- The text does not end with a quoted name, or goes on in front of it. -/
def ClosesInside (text : String) : Prop :=
  OpensInside (backwards text)

/-- The text may also be a quoted name, or nothing. -/
def Closes (text : String) : Prop :=
  Opens (backwards text)

theorem OpensInside.appendRight {text : String} (opens : OpensInside text) (behind : String) :
    OpensInside (text ++ behind) := by
  rcases opens with plain | ⟨name, rest, rfl, plain⟩
  · exact .inl (startsPlain_append plain behind)
  · exact .inr ⟨name, rest ++ behind, String.append_assoc, startsPlain_append plain behind⟩

/-- A text that goes on plainly is longer than any quoted name it starts with. -/
theorem Opens.append {text behind : String} (opens : Opens text) (plain : startsPlain behind) :
    OpensInside (text ++ behind) := by
  rcases opens with opens | ⟨name, rfl⟩ | rfl
  · exact opens.appendRight behind
  · exact .inr ⟨name, behind, rfl, plain⟩
  · exact .inl (by rwa [String.empty_append])

theorem OpensInside.ne_quote {text : String} (opens : OpensInside text) (name : String) :
    text ≠ quote name := by
  rintro rfl
  rcases opens with plain | ⟨other, rest, equal, plain⟩
  · have starts : startsPlain (quote name) = false := by simp [startsPlain, quote]
    rw [starts] at plain
    cases plain
  · have characters := congrArg String.toList equal
    simp only [quote, String.toList_append, String.toList_ofList, List.cons_append,
      List.append_assoc, List.cons.injEq, true_and, List.nil_append] at characters
    have separate : rest.toList.head? ≠ some backtick := by
      intro starts
      rw [startsPlain, starts] at plain
      cases plain
    have nothing := eq_nil_of_doubleBackticks_append characters separate
    rw [startsPlain, nothing] at plain
    cases plain

theorem ClosesInside.of_endsPlain {text : String} (plain : endsPlain text) :
    ClosesInside text :=
  .inl (by rwa [startsPlain_backwards])

/-- A text with something plain in front is longer than any quoted name it ends with. -/
theorem Closes.append {text before : String} (closes : Closes text) (plain : endsPlain before) :
    ClosesInside (before ++ text) := by
  rw [ClosesInside, backwards_append]
  exact Opens.append closes (by rwa [startsPlain_backwards])

theorem ClosesInside.ne_quote {text : String} (closes : ClosesInside text) (name : String) :
    text ≠ quote name := by
  rintro rfl
  exact OpensInside.ne_quote closes (backwards name) (backwards_quote name)

/-! ## Names -/

/-- A plain name has characters, all of which may stand in a plain name. -/
theorem isSubsequent_of_isPlain {name : String} (plain : Identifier.isPlain name) :
    name.toList ≠ [] ∧ ∀ character ∈ name.toList, Identifier.isSubsequent character := by
  unfold Identifier.isPlain at plain
  split at plain
  · cases plain
  · next head tail characters =>
      rw [Bool.and_eq_true, List.all_eq_true] at plain
      rw [characters]
      refine ⟨List.cons_ne_nil head tail, List.forall_mem_cons.mpr ⟨?_, plain.2⟩⟩
      have initial := plain.1
      rw [Identifier.isInitial, Bool.or_eq_true] at initial
      rw [Identifier.isSubsequent, Char.isAlphanum, Bool.or_eq_true, Bool.or_eq_true]
      exact initial.imp_left .inl

/-- A text without backticks, of which there is at least one character. -/
theorem plain_of_forall {text : String} (some : text.toList ≠ [])
    (unmarked : ∀ character ∈ text.toList, character ≠ backtick) :
    startsPlain text ∧ endsPlain text := by
  unfold startsPlain endsPlain
  rw [List.head?_eq_some_head some, List.getLast?_eq_some_getLast some]
  simp only [Option.any_some, bne_iff_ne]
  exact ⟨unmarked _ (List.head_mem some), unmarked _ (List.getLast_mem some)⟩

theorem plain_of_isPlain {name : String} (plain : Identifier.isPlain name) :
    startsPlain name ∧ endsPlain name := by
  have characters := isSubsequent_of_isPlain plain
  apply plain_of_forall characters.1
  rintro character member rfl
  exact absurd (characters.2 _ member) (by decide)

theorem opens_escape (extraWords : List String) (name : String) :
    Opens (Identifier.escape extraWords name) := by
  unfold Identifier.escape
  split
  · next plain =>
      rw [Bool.and_eq_true] at plain
      exact .inl (.inl (plain_of_isPlain plain.1).1)
  · exact .inr (.inl ⟨name, rfl⟩)

theorem closes_escape (extraWords : List String) (name : String) :
    Closes (Identifier.escape extraWords name) := by
  unfold Identifier.escape
  split
  · next plain =>
      rw [Bool.and_eq_true] at plain
      exact .inl (ClosesInside.of_endsPlain (plain_of_isPlain plain.1).2)
  · exact .inr (.inl ⟨backwards name, backwards_quote name⟩)

/-! ## Literals -/

theorem plain_natural (number : Nat) :
    startsPlain (Decimal.natural number) ∧ endsPlain (Decimal.natural number) := by
  unfold Decimal.natural
  have some : (String.ofList (Nat.toDigits 10 number)).toList ≠ [] := by
    simp [Nat.toDigits_ne_nil]
  apply plain_of_forall some
  rintro character member rfl
  rw [String.toList_ofList] at member
  exact absurd (Nat.isDigit_of_mem_toDigits (by decide) (by decide) member) (by decide)

theorem plain_integer (number : Int) :
    startsPlain (Decimal.integer number) ∧ endsPlain (Decimal.integer number) := by
  cases number with
  | ofNat number => exact plain_natural number
  | negSucc number =>
      exact ⟨startsPlain_append rfl _, endsPlain_append (plain_natural (number + 1)).2 _⟩

namespace Double

/-- Characters of numbers. -/
def IsNumeric (character : Char) : Prop :=
  character.isDigit ∨ character ∈ ['.', 'e', '+', '-']

theorem isNumeric_of_mem_toDigits {number : Nat} {character : Char}
    (member : character ∈ Nat.toDigits 10 number) : IsNumeric character :=
  .inl (Nat.isDigit_of_mem_toDigits (by decide) (by decide) member)

variable {digits : List Char}

theorem isNumeric_positional (numeric : ∀ character ∈ digits, IsNumeric character)
    (point : Int) : ∀ character ∈ positional digits point, IsNumeric character := by
  have zero : IsNumeric '0' := .inl rfl
  have dot : IsNumeric '.' := .inr (by decide)
  have zeros : ∀ count, ∀ character ∈ List.replicate count '0', IsNumeric character :=
    fun count character member => List.eq_of_mem_replicate member ▸ zero
  intro character member
  unfold positional at member
  split at member
  · simp only [List.mem_append, List.mem_cons, List.not_mem_nil, or_false] at member
    rcases member with ((rfl | rfl) | member) | member
    · exact zero
    · exact dot
    · exact zeros _ character member
    · exact numeric character member
  · simp only [List.mem_append, List.mem_cons] at member
    rcases member with (member | member) | rfl | member
    · exact numeric character (List.mem_of_mem_take member)
    · exact zeros _ character member
    · exact dot
    · split at member
      · rw [List.mem_singleton.mp member]
        exact zero
      · exact numeric character (List.mem_of_mem_drop member)

theorem isNumeric_scientific (numeric : ∀ character ∈ digits, IsNumeric character)
    (point : Int) : ∀ character ∈ scientific digits point, IsNumeric character := by
  intro character member
  unfold scientific at member
  simp only [List.mem_append, List.mem_cons] at member
  rcases member with member | rfl | rfl | member
  · have mantissa : character = '.' ∨ character ∈ digits := by
      split at member
      · cases member
      · exact .inr member
      · rcases List.mem_cons.mp member with rfl | member
        · exact .inr List.mem_cons_self
        · rcases List.mem_cons.mp member with rfl | member
          · exact .inl rfl
          · exact .inr (List.mem_cons_of_mem _ member)
    rcases mantissa with rfl | member
    · exact .inr (by decide)
    · exact numeric character member
  · exact .inr (by decide)
  · split <;> exact .inr (by decide)
  · exact isNumeric_of_mem_toDigits member

theorem isNumeric_trimmed (number : Nat) :
    ∀ character ∈ ((Nat.toDigits 10 number).reverse.dropWhile (· == '0')).reverse,
      IsNumeric character := by
  intro character member
  rw [List.mem_reverse] at member
  exact isNumeric_of_mem_toDigits (List.mem_reverse.mp (List.dropWhile_subset _ member))

theorem isNumeric_magnitudeText (number : Double) :
    number.magnitudeText ≠ [] ∧ ∀ character ∈ number.magnitudeText, IsNumeric character := by
  unfold magnitudeText
  generalize number.shortest = shortest
  split
  · refine ⟨List.cons_ne_nil _ _, fun character member => ?_⟩
    simp only [List.mem_cons, List.not_mem_nil, or_false] at member
    rcases member with rfl | rfl | rfl
    · exact .inl rfl
    · exact .inr List.mem_cons_self
    · exact .inl rfl
  · rcases shortest with ⟨digits, exponent⟩
    simp only
    split
    · refine ⟨?_, isNumeric_positional (isNumeric_trimmed digits) _⟩
      unfold positional
      split <;> simp
    · refine ⟨?_, isNumeric_scientific (isNumeric_trimmed digits) _⟩
      simp [scientific]

theorem isNumeric_text (number : Double) :
    number.text.toList ≠ [] ∧ ∀ character ∈ number.text.toList, IsNumeric character := by
  have magnitude := number.isNumeric_magnitudeText
  rw [text, String.toList_ofList]
  split
  · refine ⟨List.cons_ne_nil _ _, List.forall_mem_cons.mpr ⟨?_, magnitude.2⟩⟩
    exact .inr (by decide)
  · exact magnitude

end Double

theorem plain_double (number : Double) :
    startsPlain number.text ∧ endsPlain number.text := by
  apply plain_of_forall number.isNumeric_text.1
  rintro character member rfl
  rcases number.isNumeric_text.2 _ member with digit | other
  · exact absurd digit (by decide)
  · exact absurd other (by decide)

theorem plain_literal (extraWords : List String) (value : Value) :
    startsPlain (value.literal extraWords) ∧ endsPlain (value.literal extraWords) := by
  cases value with
  | null =>
      change startsPlain "NULL" ∧ endsPlain "NULL"
      decide
  | boolean truth =>
      cases truth with
      | false =>
          change startsPlain "false" ∧ endsPlain "false"
          decide
      | true =>
          change startsPlain "true" ∧ endsPlain "true"
          decide
  | integer number => exact plain_integer number
  | double number => exact plain_double number
  | string content =>
      exact ⟨startsPlain_append (startsPlain_append rfl _) _, endsPlain_append rfl _⟩
  | array elements =>
      exact ⟨startsPlain_append (startsPlain_append rfl _) _, endsPlain_append rfl _⟩
  | object members =>
      rw [Value.literal, Value.mapText]
      split
      · exact ⟨by decide, by decide⟩
      · exact ⟨startsPlain_append (startsPlain_append rfl _) _, endsPlain_append rfl _⟩

end Cypher
