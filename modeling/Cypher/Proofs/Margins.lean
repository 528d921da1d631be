import Cypher.Proofs.Indentation

/-! Lines and the margins in front of them. If no line of a text is empty, a block around
the text moves its lines to the right and changes nothing else, however deep they were
before. -/

namespace Cypher.Block

/-! ## Lines -/

/-- Every line has a character and none ends with a carriage return. Unless it is `fresh`,
the first line has a character already. -/
def fillsFrom (fresh : Bool) : List Char → Bool
  | [] => !fresh
  | head :: rest =>
      if head = '\n' then !fresh && fillsFrom true rest
      else head != '\r' && fillsFrom false rest

theorem fillsFrom_append {fresh : Bool} {first second : List Char}
    (firstFills : fillsFrom fresh first) (secondFills : fillsFrom false second) :
    fillsFrom fresh (first ++ second) := by
  induction first generalizing fresh with
  | nil =>
      have started : fresh = false := by simpa [fillsFrom] using firstFills
      rwa [started]
  | cons head tail induction =>
      rw [fillsFrom] at firstFills
      rw [List.cons_append, fillsFrom]
      split at firstFills
      · next isFeed =>
          rw [if_pos isFeed]
          simp_all
      · next noFeed =>
          rw [if_neg noFeed]
          simp_all

/-- A line that is filled stays so behind other characters. -/
theorem fillsFrom_false {characters : List Char} (fills : fillsFrom true characters) :
    fillsFrom false characters := by
  cases characters with
  | nil => cases fills
  | cons head tail =>
      rw [fillsFrom] at fills ⊢
      split at fills
      · cases fills
      · next noFeed => rwa [if_neg noFeed]

/-- The text is on one line. -/
def Unbroken (text : String) : Prop :=
  '\n' ∉ text.toList ∧ '\r' ∉ text.toList

instance (text : String) : Decidable (Unbroken text) :=
  inferInstanceAs (Decidable ('\n' ∉ text.toList ∧ '\r' ∉ text.toList))

/-- The text has lines, of which none is empty. -/
def Solid (text : String) : Prop :=
  fillsFrom true text.toList

instance (text : String) : Decidable (Solid text) :=
  inferInstanceAs (Decidable (fillsFrom true text.toList = true))

/-- No line of the text is empty. -/
def Tidy (text : String) : Prop :=
  text = "" ∨ Solid text

instance (text : String) : Decidable (Tidy text) :=
  inferInstanceAs (Decidable (text = "" ∨ Solid text))

theorem Solid.tidy {text : String} (solid : Solid text) : Tidy text :=
  .inr solid

theorem Solid.ne_empty {text : String} (solid : Solid text) : text ≠ "" := by
  rintro rfl
  cases solid

theorem Tidy.solid {text : String} (tidy : Tidy text) (written : text ≠ "") : Solid text :=
  tidy.resolve_left written

theorem Tidy.fillsFrom {text : String} (tidy : Tidy text) : fillsFrom false text.toList := by
  rcases tidy with rfl | solid
  · rfl
  · exact fillsFrom_false solid

theorem Solid.append {first second : String} (firstSolid : Solid first)
    (secondTidy : Tidy second) : Solid (first ++ second) := by
  rw [Solid, String.toList_append]
  exact fillsFrom_append firstSolid secondTidy.fillsFrom

theorem Tidy.append {first second : String} (firstTidy : Tidy first)
    (secondTidy : Tidy second) : Tidy (first ++ second) := by
  rcases firstTidy with rfl | firstSolid
  · rwa [String.empty_append]
  · exact (firstSolid.append secondTidy).tidy

theorem Tidy.append_solid {first second : String} (firstTidy : Tidy first)
    (secondSolid : Solid second) : Solid (first ++ second) := by
  rcases firstTidy with rfl | firstSolid
  · rwa [String.empty_append]
  · exact firstSolid.append secondSolid.tidy

/-! ## Texts on one line -/

@[simp] theorem unbroken_append (first second : String) :
    Unbroken (first ++ second) ↔ Unbroken first ∧ Unbroken second := by
  simp only [Unbroken, String.toList_append, List.mem_append, not_or]
  exact and_and_and_comm

theorem Unbroken.tidy {text : String} (unbroken : Unbroken text) : Tidy text := by
  have fills : ∀ {characters : List Char}, '\n' ∉ characters → '\r' ∉ characters →
      fillsFrom false characters := by
    intro characters noFeed noReturn
    induction characters with
    | nil => rfl
    | cons head tail induction =>
        simp only [List.mem_cons, not_or] at noFeed noReturn
        simp [fillsFrom, Ne.symm noFeed.1, Ne.symm noReturn.1, induction noFeed.2 noReturn.2]
  rcases unbroken with ⟨noFeed, noReturn⟩
  cases characters : text.toList with
  | nil => exact .inl (String.toList_eq_nil_iff.mp characters)
  | cons head tail =>
      have rest := fills noFeed noReturn
      rw [characters, List.mem_cons, not_or] at noFeed
      rw [characters, fillsFrom, if_neg (Ne.symm noFeed.1)] at rest
      apply Or.inr
      rw [Solid, characters, fillsFrom, if_neg (Ne.symm noFeed.1)]
      exact rest

/-! ## Lists of texts -/

/-- Lines are not empty on either side of the separator. -/
def Separates (separator : String) : Prop :=
  ∀ rest, fillsFrom true rest → fillsFrom false (separator.toList ++ rest)

theorem Solid.append_separated {separator first second : String}
    (separates : Separates separator) (firstSolid : Solid first)
    (secondSolid : Solid second) : Solid (first ++ separator ++ second) := by
  rw [Solid, String.append_assoc, String.toList_append, String.toList_append]
  exact fillsFrom_append firstSolid (separates _ secondSolid)

theorem Separates.append {first second : String} (firstTidy : Tidy first)
    (separates : Separates second) : Separates (first ++ second) := by
  intro rest fills
  rw [String.toList_append, List.append_assoc]
  exact fillsFrom_append firstTidy.fillsFrom (separates rest fills)

theorem Separates.around {first middle second : String} (firstSeparates : Separates first)
    (solid : Solid middle) (secondSeparates : Separates second) :
    Separates (first ++ middle ++ second) := by
  intro rest fills
  rw [String.append_assoc, String.toList_append, List.append_assoc, String.toList_append,
    List.append_assoc]
  exact firstSeparates _ (fillsFrom_append solid (secondSeparates rest fills))

theorem solid_intercalate {separator : String} (separates : Separates separator)
    {texts : List String} (written : texts ≠ []) (solid : ∀ text ∈ texts, Solid text) :
    Solid (separator.intercalate texts) := by
  induction texts with
  | nil => exact absurd rfl written
  | cons head tail induction =>
      rw [List.forall_mem_cons] at solid
      cases tail with
      | nil =>
          rw [String.intercalate_singleton]
          exact solid.1
      | cons next rest =>
          rw [String.intercalate_cons_cons]
          exact solid.1.append_separated separates (induction (List.cons_ne_nil _ _) solid.2)

theorem tidy_intercalate {separator : String} (unbroken : Unbroken separator)
    {texts : List String} (tidy : ∀ text ∈ texts, Tidy text) :
    Tidy (separator.intercalate texts) := by
  induction texts with
  | nil => exact .inl rfl
  | cons head tail induction =>
      rw [List.forall_mem_cons] at tidy
      cases tail with
      | nil =>
          rw [String.intercalate_singleton]
          exact tidy.1
      | cons next rest =>
          rw [String.intercalate_cons_cons]
          exact (tidy.1.append unbroken.tidy).append (induction tidy.2)

/-! ## Moved lines -/

/-- The blanks in front of a line. -/
def marginAt (depth : Nat) : List Char :=
  List.replicate (4 * depth) ' '

theorem marginAt_append_marginAt (depth more : Nat) :
    marginAt depth ++ marginAt more = marginAt (depth + more) := by
  rw [marginAt, marginAt, marginAt, List.replicate_append_replicate, Nat.mul_add]

theorem fillsFrom_marginAt (depth : Nat) {rest : List Char} (fills : fillsFrom true rest) :
    fillsFrom true (marginAt depth ++ rest) := by
  have unbroken : Unbroken (String.ofList (marginAt depth)) := by simp [Unbroken, marginAt]
  have restSolid : Solid (String.ofList rest) := by rwa [Solid, String.toList_ofList]
  have solid := unbroken.tidy.append_solid restSolid
  rwa [Solid, String.toList_append, String.toList_ofList, String.toList_ofList] at solid

/-- A line feed, and the margin of the next line. -/
def lineBreak (depth : Nat) : String :=
  String.ofList ('\n' :: marginAt depth)

def movedCharacter (depth : Nat) (character : Char) : List Char :=
  if character = '\n' then '\n' :: marginAt depth else [character]

/-- The text with every line but the first moved to the right. -/
def moved (depth : Nat) (text : String) : String :=
  String.ofList (text.toList.flatMap (movedCharacter depth))

theorem lineBreak_append_margin (depth : Nat) :
    lineBreak depth ++ margin = lineBreak (depth + 1) := by
  have oneLevel : margin.toList = marginAt 1 := rfl
  rw [← String.toList_inj, String.toList_append, lineBreak, lineBreak, String.toList_ofList,
    String.toList_ofList, List.cons_append, oneLevel, marginAt_append_marginAt]

@[simp] theorem moved_append (depth : Nat) (first second : String) :
    moved depth (first ++ second) = moved depth first ++ moved depth second := by
  simp [moved, String.ofList_append]

theorem flatMap_movedCharacter (depth : Nat) {characters : List Char}
    (noFeed : '\n' ∉ characters) : characters.flatMap (movedCharacter depth) = characters := by
  induction characters with
  | nil => rfl
  | cons head tail induction =>
      rw [List.mem_cons, not_or] at noFeed
      rw [List.flatMap_cons, induction noFeed.2, movedCharacter, if_neg (Ne.symm noFeed.1)]
      rfl

theorem notMem_marginAt (depth : Nat) : '\n' ∉ marginAt depth := by simp [marginAt]

@[simp] theorem moved_lineBreak (depth more : Nat) :
    moved depth (lineBreak more) = lineBreak (depth + more) := by
  rw [moved, lineBreak, lineBreak, String.toList_ofList, List.flatMap_cons,
    flatMap_movedCharacter depth (notMem_marginAt more), movedCharacter, if_pos rfl,
    List.cons_append, marginAt_append_marginAt]

theorem separates_lineBreak (depth : Nat) : Separates (lineBreak depth) := by
  intro rest fills
  rw [lineBreak, String.toList_ofList, List.cons_append, fillsFrom, if_pos rfl]
  exact fillsFrom_marginAt depth fills

@[simp low] theorem moved_of_unbroken (depth : Nat) {text : String} (unbroken : Unbroken text) :
    moved depth text = text := by
  rw [moved, flatMap_movedCharacter depth unbroken.1, String.ofList_toList]

/-- A text on one line is a moved text only if the text is that line. -/
theorem eq_moved_iff (depth : Nat) {line text : String} (unbroken : Unbroken line) :
    line = moved depth text ↔ line = text := by
  constructor
  · rintro rfl
    have noFeed : '\n' ∉ text.toList := by
      intro member
      apply unbroken.1
      rw [moved, String.toList_ofList]
      exact List.mem_flatMap.mpr ⟨'\n', member, by simp [movedCharacter]⟩
    rw [moved, flatMap_movedCharacter depth noFeed, String.ofList_toList]
  · rintro rfl
    exact (moved_of_unbroken depth unbroken).symm

theorem moved_zero (text : String) : moved 0 text = text := by
  have same : movedCharacter 0 = fun character => [character] := by
    funext character
    rw [movedCharacter]
    split
    · next isFeed => rw [isFeed]; rfl
    · rfl
  rw [moved, same, List.flatMap_singleton', String.ofList_toList]

theorem moved_moved (depth : Nat) (text : String) :
    moved depth (moved 1 text) = moved (depth + 1) text := by
  have once : ∀ character, (movedCharacter 1 character).flatMap (movedCharacter depth) =
      movedCharacter (depth + 1) character := by
    intro character
    rw [movedCharacter, movedCharacter]
    split
    · rw [List.flatMap_cons, flatMap_movedCharacter depth (notMem_marginAt 1), movedCharacter,
        if_pos rfl, List.cons_append, marginAt_append_marginAt]
    · next noFeed => simp [movedCharacter, noFeed]
  simp only [moved, String.toList_ofList, List.flatMap_assoc, once]

@[simp] theorem moved_intercalate (depth : Nat) (separator : String) (texts : List String) :
    moved depth (separator.intercalate texts) =
      (moved depth separator).intercalate (texts.map (moved depth)) := by
  induction texts with
  | nil => rfl
  | cons head tail induction =>
      cases tail with
      | nil => simp
      | cons next rest =>
          rw [String.intercalate_cons_cons, List.map_cons, List.map_cons,
            String.intercalate_cons_cons, moved_append, moved_append, induction, List.map_cons]

theorem stack_of_ne_empty {upper lower : String} (upperWritten : upper ≠ "")
    (lowerWritten : lower ≠ "") : stack upper lower = upper ++ lineBreak 0 ++ lower := by
  have feed : lineBreak 0 = "\n" := by decide
  rw [stack, if_neg (by simpa using upperWritten), if_neg (by simpa using lowerWritten), feed]

/-! ## Blocks -/

theorem shift_of_fillsFrom {fresh : Bool} {characters : List Char}
    (fills : fillsFrom fresh characters) :
    shift fresh characters = marginBefore fresh ++ characters.flatMap (movedCharacter 1) := by
  induction characters generalizing fresh with
  | nil =>
      have started : fresh = false := by simpa [fillsFrom] using fills
      rw [started]
      rfl
  | cons head tail induction =>
      rw [fillsFrom] at fills
      split at fills
      · next isFeed =>
          rcases Bool.and_eq_true_iff.mp fills with ⟨started, tailFills⟩
          have more : tail.isEmpty = false := by
            cases tail with
            | nil => cases tailFills
            | cons _ _ => rfl
          cases fresh with
          | true => cases started
          | false =>
              rw [isFeed, shift, more, induction tailFills]
              rfl
      · next noFeed =>
          rcases Bool.and_eq_true_iff.mp fills with ⟨noReturn, tailFills⟩
          have isMark : IsMark head := ⟨noFeed, by simpa using noReturn⟩
          rw [shift_mark isMark, induction tailFills, List.flatMap_cons, movedCharacter,
            if_neg noFeed]
          rfl

/-- Indentation writes a margin in front of every line. -/
theorem indent_eq {text : String} (solid : Solid text) : indent text = margin ++ moved 1 text := by
  rw [← String.toList_inj, toList_indent, shift_of_fillsFrom solid]
  simp [marginBefore, moved]

theorem solid_moved (depth : Nat) {text : String} (solid : Solid text) :
    Solid (moved depth text) := by
  have fills : ∀ {fresh characters}, fillsFrom fresh characters →
      fillsFrom fresh (characters.flatMap (movedCharacter depth)) := by
    intro fresh characters fills
    induction characters generalizing fresh with
    | nil => exact fills
    | cons head tail induction =>
        rw [fillsFrom] at fills
        rw [List.flatMap_cons, movedCharacter]
        split at fills
        · next isFeed =>
            rcases Bool.and_eq_true_iff.mp fills with ⟨started, tailFills⟩
            rw [if_pos isFeed, List.cons_append, fillsFrom, if_pos rfl, started]
            exact fillsFrom_marginAt depth (induction tailFills)
        · next noFeed =>
            rcases Bool.and_eq_true_iff.mp fills with ⟨noReturn, tailFills⟩
            rw [if_neg noFeed, List.cons_append, fillsFrom, if_neg noFeed, noReturn]
            exact induction tailFills
  rw [Solid, moved, String.toList_ofList]
  exact fills solid

theorem solid_indent {text : String} (solid : Solid text) : Solid (indent text) := by
  have unbroken : Unbroken margin := by decide
  rw [indent_eq solid]
  exact unbroken.tidy.append_solid (solid_moved 1 solid)

/-! ## The lines of a text -/

theorem splitOn_cons (head : Char) (tail : List Char) :
    (head :: tail).splitOn '\n' =
      if head = '\n' then [] :: tail.splitOn '\n'
      else (tail.splitOn '\n').modifyHead (head :: ·) := by
  simp [List.splitOn, List.splitOnP_cons_eq_if_modifyHead]

theorem splitOn_of_fillsFrom {fresh : Bool} {characters : List Char}
    (fills : fillsFrom fresh characters) :
    ∃ first rest, characters.splitOn '\n' = first :: rest ∧
      (fresh → first ≠ []) ∧ ∀ line ∈ rest, line ≠ [] := by
  induction characters generalizing fresh with
  | nil =>
      have started : fresh = false := by simpa [fillsFrom] using fills
      exact ⟨[], [], rfl, by simp [started], by simp⟩
  | cons head tail induction =>
      rw [fillsFrom] at fills
      rw [splitOn_cons]
      split at fills
      · next isFeed =>
          rcases Bool.and_eq_true_iff.mp fills with ⟨started, tailFills⟩
          rcases induction tailFills with ⟨first, rest, lines, firstFilled, restFilled⟩
          rw [if_pos isFeed, lines]
          refine ⟨[], first :: rest, rfl, by simpa using started, ?_⟩
          exact List.forall_mem_cons.mpr ⟨firstFilled rfl, restFilled⟩
      · next noFeed =>
          rcases Bool.and_eq_true_iff.mp fills with ⟨-, tailFills⟩
          rcases induction tailFills with ⟨first, rest, lines, -, restFilled⟩
          rw [if_neg noFeed, lines]
          exact ⟨head :: first, rest, rfl, fun _ => List.cons_ne_nil _ _, restFilled⟩

theorem ne_nil_of_mem_splitOn {text : String} (solid : Solid text) :
    ∀ line ∈ text.toList.splitOn '\n', line ≠ [] := by
  rcases splitOn_of_fillsFrom solid with ⟨first, rest, lines, firstFilled, restFilled⟩
  rw [lines]
  exact List.forall_mem_cons.mpr ⟨firstFilled rfl, restFilled⟩

end Cypher.Block
