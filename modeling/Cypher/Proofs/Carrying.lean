import Cypher.Proofs.Indentation
import Cypher.Proofs.Rendering

/-! How the text at one place of a layout gets into the text of the whole layout.
On its way it is put behind and in front of other text, and every block around the
place shifts it once. Nothing else happens to text between two marks. -/

namespace Cypher

open Block (marked shiftInside IsMark)

/-! ## Changes of text -/

/-- Marked text survives a change of the text around it, up to a shift for each of
`levels` blocks. What stands around the marks afterwards does not depend on the text
between them. -/
def Carries (levels : Nat) (change : String → String) : Prop :=
  ∀ mark, Blank.isBlank mark = false → ∀ front back, ∃ newFront newBack, ∀ body,
    change (front ++ marked mark body ++ back) =
      newFront ++ marked mark ((shiftInside false)^[levels] body) ++ newBack

namespace Carries

variable {levels outerLevels : Nat} {change outer : String → String}

theorem unchanged : Carries 0 id :=
  fun _ _ front back => ⟨front, back, fun _ => rfl⟩

theorem comp (outerCarries : Carries outerLevels outer) (carries : Carries levels change) :
    Carries (outerLevels + levels) (outer ∘ change) := by
  intro mark notBlank front back
  rcases carries mark notBlank front back with ⟨front, back, changed⟩
  rcases outerCarries mark notBlank front back with ⟨front, back, outerChanged⟩
  refine ⟨front, back, fun body => ?_⟩
  rw [Function.comp_apply, changed, outerChanged, Function.iterate_add_apply]

/-- A change that adds text and shifts nothing. -/
theorem of_around (newFront newBack : String → String)
    (around : ∀ mark, Blank.isBlank mark = false → ∀ front body back,
      change (front ++ marked mark body ++ back) =
        newFront front ++ marked mark body ++ newBack back) :
    Carries 0 change :=
  fun mark notBlank front back =>
    ⟨newFront front, newBack back, fun body => around mark notBlank front body back⟩

theorem appendRight (after : String) : Carries 0 (· ++ after) :=
  of_around id (· ++ after) fun _ _ front body back => by simp only [id, String.append_assoc]

theorem appendLeft (before : String) : Carries 0 (before ++ ·) :=
  of_around (before ++ ·) id fun _ _ front body back => by simp only [id, String.append_assoc]

end Carries

/-- A marked text has characters. -/
theorem ne_empty_of_marked (mark : Char) (front : String) (body : List Char)
    (back : String) : front ++ marked mark body ++ back ≠ "" := by
  intro empty
  have marks := congrArg String.toList empty
  simp [marked] at marks

theorem isEmpty_marked (mark : Char) (front : String) (body : List Char) (back : String) :
    (front ++ marked mark body ++ back).isEmpty = false :=
  String.isEmpty_eq_false_iff.mpr (ne_empty_of_marked mark front body back)

theorem isMark_of_notBlank {mark : Char} (notBlank : Blank.isBlank mark = false) :
    IsMark mark where
  notFeed := by rintro rfl; exact absurd notBlank (by decide)
  notReturn := by rintro rfl; exact absurd notBlank (by decide)

/-- Nothing is dropped from the first character on that is kept. -/
theorem dropWhile_append_cons {α : Type} (test : α → Bool) {kept : α}
    (keeps : test kept = false) (front rest : List α) :
    (front ++ kept :: rest).dropWhile test = front.dropWhile test ++ kept :: rest := by
  induction front with
  | nil => simp [keeps]
  | cons head tail induction =>
      rw [List.cons_append, List.dropWhile_cons, List.dropWhile_cons, induction]
      split <;> rfl

namespace Carries

theorem indent : Carries 1 Block.indent :=
  fun _ notBlank front back => Block.indent_marked (isMark_of_notBlank notBlank) front back

theorem iterateIndent (levels : Nat) : Carries levels Block.indent^[levels] := by
  induction levels with
  | zero => exact unchanged
  | succ levels induction => exact induction.comp indent

theorem trimStart : Carries 0 Blank.trimStart := by
  apply of_around Blank.trimStart id
  intro mark notBlank front body back
  apply String.toList_inj.mp
  have kept := dropWhile_append_cons Blank.isBlank notBlank front.toList
    (body ++ mark :: back.toList)
  simpa [Blank.trimStart, marked] using kept

theorem dropBreaks : Carries 0 Block.dropBreaks := by
  apply of_around Block.dropBreaks id
  intro mark notBlank front body back
  apply String.toList_inj.mp
  have keeps : (mark == '\n') = false := beq_false_of_ne (isMark_of_notBlank notBlank).notFeed
  have kept := dropWhile_append_cons (· == '\n') keeps front.toList
    (body ++ mark :: back.toList)
  simpa [Block.dropBreaks, marked] using kept

theorem stackUpper (lower : String) : Carries 0 (Block.stack · lower) := by
  apply of_around id fun back => if lower.isEmpty then back else back ++ "\n" ++ lower
  intro mark notBlank front body back
  simp only [Block.stack, isEmpty_marked, Bool.false_eq_true, if_false]
  split <;> simp [String.append_assoc]

theorem stackLower (upper : String) : Carries 0 (Block.stack upper ·) := by
  apply of_around (fun front => if upper.isEmpty then front else upper ++ "\n" ++ front) id
  intro mark notBlank front body back
  simp only [Block.stack, isEmpty_marked, Bool.false_eq_true, if_false]
  split <;> simp [String.append_assoc]

theorem verbatimUpper (lower : String) :
    Carries 0 fun upper =>
      if upper.isEmpty then Block.dropBreaks lower else upper ++ "\n" ++ lower := by
  apply of_around id (· ++ "\n" ++ lower)
  intro mark notBlank front body back
  simp only [isEmpty_marked, Bool.false_eq_true, if_false]
  simp only [id, String.append_assoc]

theorem verbatimLower (upper : String) :
    Carries 0 fun lower =>
      if upper.isEmpty then Block.dropBreaks lower else upper ++ "\n" ++ lower := by
  split
  · exact dropBreaks
  · exact appendLeft (upper ++ "\n")

end Carries

/-- The texts `whole` are made of the texts `part`, all of them in one way, which
carries marked text. -/
def Arrives {ι : Type} (levels : Nat) (part whole : ι → String) : Prop :=
  ∃ change, Carries levels change ∧ ∀ index, whole index = change (part index)

namespace Arrives

variable {ι : Type} {levels outerLevels : Nat} {part whole : ι → String}
  {outer : String → String}

theorem here (part : ι → String) : Arrives 0 part part :=
  ⟨id, .unchanged, fun _ => rfl⟩

/-- Where nothing is written, nothing arrives. -/
theorem nothing (levels : Nat) : Arrives levels (fun _ : ι => "") fun _ => "" :=
  ⟨Block.indent^[levels], .iterateIndent levels,
    fun _ => (Function.iterate_fixed rfl levels).symm⟩

theorem through (carries : Carries outerLevels outer) (arrives : Arrives levels part whole) :
    Arrives (outerLevels + levels) part fun index => outer (whole index) := by
  rcases arrives with ⟨change, inner, equal⟩
  exact ⟨outer ∘ change, carries.comp inner, fun index => congrArg outer (equal index)⟩

theorem beside (carries : Carries 0 outer) (arrives : Arrives levels part whole) :
    Arrives levels part fun index => outer (whole index) := by
  simpa using arrives.through carries

end Arrives

/-! ## The places of a layout -/

/-- The text of one item of a reading. -/
def Item.written (names : Dictionary) : Item → String
  | mention binder => names.variableText binder
  | newName binder _ => names.variableText binder
  | placeholder parameter => (Layout.placeholder parameter).written names
  | data content => content.render names.config
  | fault _ => ""
  | unwritten _ => ""

/-- The text of every item gets into the text of the layout, shifted once for each
block around the item. -/
theorem Layout.arrives_of_mem_reading (names : Dictionary) (layout : Layout) {depth : Nat}
    {entry : Nat × Item} (member : entry ∈ layout.reading depth) :
    ∃ levels, entry.1 = depth + levels ∧
      Arrives levels (fun _ : Unit => entry.2.written names) fun _ => layout.written names := by
  induction layout generalizing depth entry with
  | leaf content =>
      cases content with
      | text content => cases member
      | _ =>
          rcases List.mem_singleton.mp member with rfl
          exact ⟨0, rfl, .here _⟩
  | mention binder =>
      rcases List.mem_singleton.mp member with rfl
      exact ⟨0, rfl, .here _⟩
  | placeholder parameter =>
      rcases List.mem_singleton.mp member with rfl
      exact ⟨0, rfl, .here _⟩
  | fault error =>
      rcases List.mem_singleton.mp member with rfl
      exact ⟨0, rfl, .here _⟩
  | append first second firstInduction secondInduction =>
      rcases List.mem_append.mp member with member | member
      · rcases firstInduction member with ⟨levels, sum, arrives⟩
        exact ⟨levels, sum, (arrives.beside (.appendRight (second.written names)) :)⟩
      · rcases secondInduction member with ⟨levels, sum, arrives⟩
        exact ⟨levels, sum, (arrives.beside (.appendLeft (first.written names)) :)⟩
  | stack upper lower upperInduction lowerInduction =>
      rcases List.mem_append.mp member with member | member
      · rcases upperInduction member with ⟨levels, sum, arrives⟩
        exact ⟨levels, sum, (arrives.beside (.stackUpper (lower.written names)) :)⟩
      · rcases lowerInduction member with ⟨levels, sum, arrives⟩
        exact ⟨levels, sum, (arrives.beside (.stackLower (upper.written names)) :)⟩
  | indent body induction =>
      rcases induction member with ⟨levels, sum, arrives⟩
      exact ⟨1 + levels, by omega, arrives.through .indent⟩
  | aliased value newName induction =>
      -- The text of the value is there in either case, and so is the new name.
      rcases List.mem_append.mp member with member | member
      · rcases induction member with ⟨levels, sum, arrives⟩
        refine ⟨levels, sum, ?_⟩
        rw [written]
        split
        · exact arrives
        · rw [String.append_assoc]
          exact (arrives.beside (.appendRight (" AS " ++ names.variableText newName)) :)
      · rcases List.mem_singleton.mp member with rfl
        refine ⟨0, rfl, ?_⟩
        rw [written]
        split
        · next same =>
            rw [Item.written, same]
            exact .here _
        · exact ((Arrives.here _).beside (.appendLeft (value.written names ++ " AS ")) :)
  | trimStart body induction =>
      rcases induction member with ⟨levels, sum, arrives⟩
      exact ⟨levels, sum, arrives.beside .trimStart⟩
  | verbatim upper lower upperInduction lowerInduction =>
      rcases List.mem_append.mp member with member | member
      · rcases upperInduction member with ⟨levels, sum, arrives⟩
        exact ⟨levels, sum, (arrives.beside (.verbatimUpper (lower.written names)) :)⟩
      · rcases lowerInduction member with ⟨levels, sum, arrives⟩
        exact ⟨levels, sum, (arrives.beside (.verbatimLower (upper.written names)) :)⟩
  | unwritten body induction =>
      rcases List.mem_map.mp member with ⟨met, inside, rfl⟩
      rcases induction inside with ⟨levels, sum, -⟩
      exact ⟨levels, sum, .nothing levels⟩

end Cypher
