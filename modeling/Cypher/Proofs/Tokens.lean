import Cypher.Operator
import Cypher.Proofs.Delimiters
import Cypher.Proofs.Words

/-! Where names and operators end. A name in front of a character that no name goes on with,
a comparator in front of a blank and an operator between blanks are known by their text. -/

namespace Cypher

/-! ## Names -/

namespace Identifier

/-- The characters that a name may go on with. -/
def isInName (character : Char) : Bool :=
  isSubsequent character || character == backtick

theorem toList_quote (name : String) :
    (quote name).toList = backtick :: (doubleBackticks name.toList ++ [backtick]) := by
  rw [quote, String.toList_ofList, List.cons_append]

theorem ends_isSubsequent {rest : List Char} (ends : Ends isInName rest) :
    Ends isSubsequent rest := fun character member =>
  (Bool.or_eq_false_iff.mp (ends character member)).1

theorem head?_ne_backtick {rest : List Char} (ends : Ends isInName rest) :
    rest.head? ≠ some backtick := by
  intro marked
  have plain := ends backtick marked
  cases plain

theorem isInitial_of_isPlain {name : String} (plain : isPlain name) :
    ∃ head tail, name.toList = head :: tail ∧ isInitial head := by
  rw [isPlain] at plain
  split at plain
  · cases plain
  · next head tail spelled => exact ⟨head, tail, spelled, (Bool.and_eq_true_iff.mp plain).1⟩

/-- No name begins with a digit. -/
theorem isInitial_of_isDigit {character : Char} (isDigit : character.isDigit) :
    isInitial character = false := by
  have digit : (decide (character.val ≥ 48) && decide (character.val ≤ 57)) = true := isDigit
  rw [Bool.eq_false_iff]
  intro initial
  have letter : ((decide (character.val ≥ 65 ∧ character.val ≤ 90) ||
      (decide (character.val ≥ 97) && decide (character.val ≤ 122))) ||
      character == '_') = true := initial
  simp only [Bool.and_eq_true, Bool.or_eq_true, decide_eq_true_eq, beq_iff_eq, ge_iff_le,
    UInt32.le_iff_toNat_le, UInt32.reduceToNat] at digit letter
  rcases letter with (upper | lower) | underscore
  · omega
  · omega
  · rw [underscore] at isDigit
    cases isDigit

/-- No plain name begins with a backtick. -/
theorem toList_append_ne_quote {name : String} (plain : isPlain name) (rest other : List Char)
    (quoted : String) : name.toList ++ rest ≠ (quote quoted).toList ++ other := by
  intro equal
  rcases isInitial_of_isPlain plain with ⟨head, tail, spelled, isInitial⟩
  rw [spelled, toList_quote] at equal
  rw [(List.cons.inj equal).1] at isInitial
  cases isInitial

theorem escape_append_inj {extraWords : List String} {first second : String}
    {rest other : List Char} (restEnds : Ends isInName rest) (otherEnds : Ends isInName other)
    (equal : (escape extraWords first).toList ++ rest =
      (escape extraWords second).toList ++ other) : first = second ∧ rest = other := by
  rw [escape, escape] at equal
  split at equal <;> split at equal
  · next firstPlain secondPlain =>
      rw [Bool.and_eq_true] at firstPlain secondPlain
      rcases word_append_inj (isSubsequent_of_isPlain firstPlain.1).2
        (isSubsequent_of_isPlain secondPlain.1).2 (ends_isSubsequent restEnds)
        (ends_isSubsequent otherEnds) equal with ⟨same, sameRest⟩
      exact ⟨String.toList_inj.mp same, sameRest⟩
  · next plain _ =>
      exact absurd equal (toList_append_ne_quote (Bool.and_eq_true_iff.mp plain).1 _ _ _)
  · next _ plain =>
      exact absurd equal.symm (toList_append_ne_quote (Bool.and_eq_true_iff.mp plain).1 _ _ _)
  · rw [toList_quote, toList_quote, List.cons_append, List.cons_append, List.append_assoc,
      List.append_assoc] at equal
    rcases doubleBackticks_append_inj (head?_ne_backtick restEnds) (head?_ne_backtick otherEnds)
      (List.cons.inj equal).2 with ⟨same, sameRest⟩
    exact ⟨String.toList_inj.mp same, sameRest⟩

end Identifier

/-! ## Operators -/

/-- Neither text goes on as the other one, if both go on at an end. -/
def apart (ends : Char → Bool) : List Char → List Char → Bool
  | [], [] => false
  | [], head :: _ => !ends head
  | head :: _, [] => !ends head
  | head :: tail, other :: others => head != other || apart ends tail others

theorem append_ne_of_apart {ends : Char → Bool} {first second : List Char}
    (isApart : apart ends first second) {rest other : List Char}
    (restEnds : ∀ character ∈ rest.head?, ends character)
    (otherEnds : ∀ character ∈ other.head?, ends character) :
    first ++ rest ≠ second ++ other := by
  intro equal
  induction first generalizing second with
  | nil =>
      cases second with
      | nil => cases isApart
      | cons head tail =>
          rw [List.nil_append] at equal
          rw [apart, restEnds head (by rw [equal]; rfl)] at isApart
          cases isApart
  | cons head tail induction =>
      cases second with
      | nil =>
          rw [List.nil_append] at equal
          rw [apart, otherEnds head (by rw [← equal]; rfl)] at isApart
          cases isApart
      | cons otherHead otherTail =>
          rcases List.cons.inj equal with ⟨rfl, equalTails⟩
          rw [apart, bne_self_eq_false, Bool.false_or] at isApart
          exact induction isApart equalTails

/-- What connectives and arithmetic operators begin with. -/
def operatorInitials : List Char :=
  ['A', 'O', 'X', '+', '-', '*', '/', '%', '^']

namespace Comparator

def all : List Comparator :=
  [equal, unequal, less, lessOrEqual, greater, greaterOrEqual, member, contains, startsWith,
    endsWith, matchesPattern, isNull, isNotNull] ++
  [true, false].flatMap fun negated =>
    [none, some .nfc, some .nfd, some .nfkc, some .nfkd].map (isNormalized negated)

theorem mem_all (comparator : Comparator) : comparator ∈ all := by
  cases comparator with
  | isNormalized negated form =>
      cases negated <;> rcases form with _ | form <;> try cases form
      all_goals decide
  | _ => decide

def endsKeyword (character : Char) : Bool :=
  character == ' ' || character == ')'

theorem keywords_apart : ∀ first ∈ all, ∀ second ∈ all,
    first = second ∨ apart endsKeyword first.keyword.toList second.keyword.toList := by
  decide +kernel

theorem keyword_append_inj {first second : Comparator} {rest other : List Char}
    (restEnds : ∀ character ∈ rest.head?, endsKeyword character)
    (otherEnds : ∀ character ∈ other.head?, endsKeyword character)
    (equal : first.keyword.toList ++ rest = second.keyword.toList ++ other) :
    first = second ∧ rest = other := by
  rcases keywords_apart first first.mem_all second second.mem_all with rfl | isApart
  · exact ⟨rfl, List.append_cancel_left equal⟩
  · exact absurd equal (append_ne_of_apart isApart restEnds otherEnds)

/-- No comparator begins like a connective or an arithmetic operator. -/
theorem keyword_initial (comparator : Comparator) : ∃ head tail,
    comparator.keyword.toList = head :: tail ∧
      head ∉ operatorInitials := by
  have initials : ∀ comparator ∈ all,
      (comparator.keyword.toList.head?.any fun head => !operatorInitials.contains head) = true := by
    decide +kernel
  rcases Option.any_eq_true _ _ |>.mp (initials comparator comparator.mem_all) with
    ⟨head, member, different⟩
  rcases List.head?_eq_some_iff.mp member with ⟨tail, spelled⟩
  exact ⟨head, tail, spelled, by simpa using different⟩

end Comparator

/-- The text of a connective or of an arithmetic operator. -/
structure IsSign (sign : String) : Prop where
  initial : ∃ head tail, sign.toList = head :: tail ∧
    head ∈ operatorInitials
  noBlank : sign.toList.all (· != ' ')

theorem IsSign.append_inj {sign other : String} (isSign : IsSign sign) (otherIsSign : IsSign other)
    {rest otherRest : List Char}
    (equal : sign.toList ++ ' ' :: rest = other.toList ++ ' ' :: otherRest) : sign = other := by
  have blankEnds : ∀ rest, Ends (fun character => character != ' ') (' ' :: rest) := by
    rintro rest _ ⟨⟩
    rfl
  have same := word_append_inj (List.all_eq_true.mp isSign.noBlank)
    (List.all_eq_true.mp otherIsSign.noBlank) (blankEnds rest) (blankEnds otherRest) equal
  exact String.toList_inj.mp same.1

end Cypher
