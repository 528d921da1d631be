import Cypher.Clause

/-! Parts that are put together in steps. Steps on one slot of a clause do to its content what
they do to the content alone, and leave everything else in the clause as it is. In a list, they
change the end. -/

namespace Cypher

/-- What leaves the first of several elements as it is changes the last one only. -/
theorem changed_last {Element : Type} {change : List Element → List Element}
    (skips : ∀ head next rest, change (head :: next :: rest) = head :: change (next :: rest))
    (front : List Element) (last : Element) :
    change (front ++ [last]) = front ++ change [last] := by
  induction front with
  | nil => rfl
  | cons head tail induction =>
      cases tail with
      | nil => exact skips head last []
      | cons next rest => exact (skips head next _).trans (congrArg (List.cons head) induction)

/-! ## Slots -/

/-- A part that clauses of some kinds have. -/
structure Slot (Content : Type) where
  content? : Clause → Option Content
  change? : Clause → (Content → Content) → Option Clause
  change?_of_content? {clause : Clause} {content : Content} :
    content? clause = some content → ∀ change, ∃ after,
      change? clause change = some after ∧ content? after = some (change content)
  change?_id {clause : Clause} {content : Content} :
    content? clause = some content → change? clause (fun content => content) = some clause
  change?_congr {clause : Clause} {content : Content} {first second : Content → Content} :
    content? clause = some content → first content = second content →
      change? clause first = change? clause second
  change?_change? (clause : Clause) (first second : Content → Content) :
    (change? clause first).bind (change? · second) =
      change? clause fun content => second (first content)

namespace Slot

/-- The steps of one slot are those of its content. -/
theorem steps? {Content Step : Type} (slot : Slot Content) {onClause : Step → ClauseStep}
    {take : Content → Step → Content}
    (each : ∀ clause step, clause.step? (onClause step) = slot.change? clause (take · step))
    {clause : Clause} {content : Content} (found : slot.content? clause = some content)
    (steps : List Step) :
    ∃ after, clause.steps? (steps.map onClause) = some after ∧
      slot.change? clause (fun content => steps.foldl take content) = some after ∧
      slot.content? after = some (steps.foldl take content) := by
  induction steps generalizing clause content with
  | nil => exact ⟨clause, rfl, slot.change?_id found, found⟩
  | cons step rest induction =>
      rcases slot.change?_of_content? found (take · step) with ⟨between, changed, taken⟩
      rcases induction taken with ⟨after, steps, whole, filled⟩
      have together := slot.change?_change? clause (take · step)
        (fun content => rest.foldl take content)
      rw [changed, Option.bind_some, whole] at together
      refine ⟨after, ?_, together.symm, filled⟩
      rw [List.map_cons, Clause.steps?, each, changed]
      exact steps

/-- Steps that leave the same content leave the same clause. -/
theorem steps?_congr {Content Step : Type} (slot : Slot Content) {onClause : Step → ClauseStep}
    {take : Content → Step → Content}
    (each : ∀ clause step, clause.step? (onClause step) = slot.change? clause (take · step))
    {clause : Clause} {content : Content} (found : slot.content? clause = some content)
    {steps others : List Step} (same : steps.foldl take content = others.foldl take content) :
    clause.steps? (steps.map onClause) = clause.steps? (others.map onClause) := by
  rcases slot.steps? each found steps with ⟨after, first, changed, -⟩
  rcases slot.steps? each found others with ⟨other, second, changedToo, -⟩
  rw [first, second, ← changed, ← changedToo]
  exact slot.change?_congr found same

end Slot

namespace Clause

def filter? : Clause → Option Filter
  | .matching _ _ _ _ filter _ _ => some filter
  | .passing _ _ _ filter => some filter
  | .procedure _ _ _ filter => some filter
  | _ => none

def updates? : Clause → Option Updates
  | .matching _ _ _ _ _ updates _ => some updates
  | .creating _ _ updates => some updates
  | .merging _ _ _ updates => some updates
  | .unwinding _ _ updates _ => some updates
  | _ => none

def filterSlot : Slot Filter where
  content? := filter?
  change? clause change := clause.changeFilter? change
  change?_of_content? {clause _} found change := by
    cases clause <;> cases found <;> exact ⟨_, rfl, rfl⟩
  change?_id {clause _} found := by cases clause <;> cases found <;> rfl
  change?_congr {clause _ _ _} found same := by
    cases clause <;> cases found <;> simp only [changeFilter?, same]
  change?_change? clause first second := by cases clause <;> rfl

def updateSlot : Slot Updates where
  content? := updates?
  change? clause change := clause.changeUpdates? change
  change?_of_content? {clause _} found change := by
    cases clause <;> cases found <;> exact ⟨_, rfl, rfl⟩
  change?_id {clause _} found := by cases clause <;> cases found <;> rfl
  change?_congr {clause _ _ _} found same := by
    cases clause <;> cases found <;> simp only [changeUpdates?, same]
  change?_change? clause first second := by cases clause <;> rfl

end Clause

end Cypher
