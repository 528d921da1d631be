import Cypher.Proofs.Grammar
import Cypher.Proofs.Stability

/-! Renderings of parts. The environment after a rendering knows everything that was met, so
every part of the phrase is rendered in it without a change. -/

namespace Cypher

variable {environment : Environment}

/-! ## Known readings -/

def Reading.IsKnown (environment : Environment) (reading : Reading) : Prop :=
  ∀ entry ∈ reading, environment.Knows entry.2

namespace Reading

@[simp] theorem isKnown_nil : IsKnown environment [] := by simp [IsKnown]

@[simp] theorem isKnown_cons (entry : Nat × Item) (rest : Reading) :
    IsKnown environment (entry :: rest) ↔
      environment.Knows entry.2 ∧ IsKnown environment rest := by
  simp only [IsKnown, List.forall_mem_cons]

@[simp] theorem isKnown_append (first second : Reading) :
    IsKnown environment (first ++ second) ↔
      IsKnown environment first ∧ IsKnown environment second := by
  simp only [IsKnown, List.forall_mem_append]

/-- What is not written is known all the same. -/
@[simp] theorem isKnown_unwritten (reading : Reading) :
    IsKnown environment reading.unwritten ↔ IsKnown environment reading :=
  List.forall_mem_map

/-- What was met is known from then on. -/
theorem isKnown_meetAll {reading : Reading} (faultless : reading.fault? = none) :
    reading.IsKnown (environment.meetAll reading) := by
  induction reading generalizing environment with
  | nil => exact isKnown_nil
  | cons entry rest induction =>
      rw [fault?_cons_eq_none] at faultless
      rw [isKnown_cons]
      have grows := (environment.meet entry.2).grows_meetAll rest
      exact ⟨⟨faultless.1, Environment.meet_of_grows grows⟩, induction faultless.2⟩

end Reading

namespace Layout

/-- Blocks around a layout do not matter for what it mentions. -/
theorem isKnown_reading (layout : Layout) : ∀ first second,
    (layout.reading first).IsKnown environment ↔ (layout.reading second).IsKnown environment := by
  induction layout with
  | leaf content =>
      intro first second
      cases content <;> simp [reading, leafReading]
  | mention | placeholder | fault => simp [reading]
  | append upper lower upperInduction lowerInduction
  | stack upper lower upperInduction lowerInduction
  | verbatim upper lower upperInduction lowerInduction =>
      intro first second
      rw [reading, reading, Reading.isKnown_append, Reading.isKnown_append,
        upperInduction first second, lowerInduction first second]
  | indent body induction =>
      intro first second
      exact induction (first + 1) (second + 1)
  | aliased value newName induction =>
      intro first second
      simp only [reading, Reading.isKnown_append, Reading.isKnown_cons, Reading.isKnown_nil]
      rw [induction first second]
  | trimStart body induction => exact induction
  | unwritten body induction =>
      intro first second
      rw [reading, reading, Reading.isKnown_unwritten, Reading.isKnown_unwritten,
        induction first second]

theorem render_of_result {layout : Layout} {text : String}
    (written : layout.result environment = .ok text) :
    layout.render environment = .ok text (layout.environmentAfter environment) := by
  unfold result at written
  unfold environmentAfter
  cases rendered : layout.render environment with
  | ok =>
      rw [rendered] at written
      cases written
      rfl
  | error =>
      rw [rendered] at written
      cases written

end Layout

/-! ## Known parts -/

/-- Everything that the part mentions is known. -/
def Part.IsKnown (environment : Environment) : Part → Prop
  | .of phrase => (phrase.reading 0).IsKnown environment

namespace Phrase

@[simp] theorem isKnown_reading_succ (phrase : Phrase category) (depth : Nat) :
    (phrase.reading (depth + 1)).IsKnown environment ↔
      (phrase.reading 0).IsKnown environment := by
  rw [← reading_whole, ← reading_whole]
  exact phrase.whole.isKnown_reading (depth + 1) 0

theorem isKnown_of_mem_parts (phrase : Phrase category) :
    (phrase.reading 0).IsKnown environment → ∀ part ∈ phrase.parts, part.IsKnown environment := by
  induction phrase with
  | branch condition result conditionInduction resultInduction =>
      intro known
      cases result with
      | absent => cases (known _ List.mem_cons_self).1
      | present result =>
          simp only [parts, List.forall_mem_cons, List.forall_mem_append]
          refine ⟨known, ?_⟩
          simp only [reading, Reading.isKnown_append] at known
          simp_all [parts, reading]
  | matching optional selector first rest filter updates deleted firstInduction restInduction
      filterInduction updatesInduction deletionInduction =>
      intro known
      simp only [parts, List.forall_mem_cons, List.forall_mem_append]
      refine ⟨known, ?_⟩
      cases faulty : selectorFault selector (rest.toList.length + 1) with
      | some error =>
          simp only [reading, faulty] at known
          cases (known _ List.mem_cons_self).1
      | none =>
          simp only [reading, faulty, Reading.isKnown_append] at known
          simp_all
  | _ =>
      intro known
      simp only [parts, List.forall_mem_cons, List.forall_mem_append]
      refine ⟨known, ?_⟩
      simp only [reading, Reading.isKnown_append, Reading.isKnown_cons,
        Reading.isKnown_unwritten, isKnown_reading_succ] at known
      simp_all only [and_self, forall_const, List.not_mem_nil, false_imp_iff, implies_true]

/-- A part of a rendered phrase is rendered again with the names that it has. -/
theorem render_of_mem_parts {phrase : Phrase category} {after : Environment} {text : String}
    (rendered : phrase.whole.render environment = .ok text after) {inner : Phrase innerCategory}
    (member : .of inner ∈ phrase.parts) :
    inner.whole.render after = .ok (inner.whole.written after.dictionary) after := by
  rcases Layout.of_render_ok rendered 0 with ⟨faultless, met, -⟩
  rw [reading_whole] at faultless met
  have known : (phrase.reading 0).IsKnown after := by
    rw [met]
    exact Reading.isKnown_meetAll faultless
  have innerKnown : (inner.reading 0).IsKnown after :=
    phrase.isKnown_of_mem_parts known _ member
  rw [← reading_whole] at innerKnown
  exact Layout.render_of_knows innerKnown

end Phrase

end Cypher
