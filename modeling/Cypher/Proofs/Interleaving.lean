import Cypher.Chain
import Cypher.Proofs.Rendering

/-! Steps on different slots of a clause. A step changes what one slot holds and looks at no other
slot, so only the order of the steps on each slot counts. Names are given while a clause is
rendered, which is why they do not tell in which order its slots were filled. -/

namespace Cypher

/-! ## Slots and their content -/

/-- The slots of all clauses. -/
inductive SlotName where
  | paths
  | isOptional
  | selector
  | filter
  | updates
  | deletion
  | onCreate
  | onMatch
  | columns
  | star
  | isDistinct
  | sortKeys
  | skip
  | limit
  | imports
  | transactions
  | yields
  | queries
  | duplicates
deriving DecidableEq, Repr

/-- The slot that a step fills. -/
def ClauseStep.slot : ClauseStep → SlotName
  | filter .. => .filter
  | filterProperties .. => .filter
  | set _ => .updates
  | remove _ => .updates
  | delete .. => .deletion
  | orderBy .. => .sortKeys
  | skip _ => .skip
  | limit _ => .limit
  | column _ => .columns
  | allColumns => .star
  | distinct => .isDistinct
  | path _ => .paths
  | makeOptional => .isOptional
  | select _ => .selector
  | onCreate _ => .onCreate
  | onMatch _ => .onMatch
  | importColumns _ => .imports
  | importAll => .imports
  | inTransactions _ => .transactions
  | yield _ => .yields
  | query _ => .queries
  | keepDuplicates => .duplicates

/-- The slots of a clause. -/
def ClauseKind.slots : ClauseKind → List SlotName
  | matching => [.paths, .isOptional, .selector, .filter, .updates, .deletion]
  | creating => [.paths, .updates]
  | merging => [.onCreate, .onMatch, .updates]
  | passing => [.columns, .star, .isDistinct, .sortKeys, .skip, .limit, .filter]
  | returning => [.columns, .isDistinct, .sortKeys, .skip, .limit]
  | unwinding => [.updates, .deletion]
  | calling => [.imports, .transactions]
  | procedure => [.yields, .filter]
  | union => [.queries, .duplicates]
  | deleting => [.deletion]
  | iterating | finish | raw => []

namespace SlotName

/-- What a slot holds. -/
@[reducible] def Content : SlotName → Type
  | paths => Phrase (.many .path)
  | isOptional | star | isDistinct | duplicates => Bool
  | selector => Option PathSelector
  | filter => Filter
  | updates => Updates
  | deletion => Deletion
  | onCreate | onMatch => Phrase (.many .assignment)
  | columns => Phrase (.many .column)
  | sortKeys => Phrase (.many .sortKey)
  | skip | limit => Phrase (.maybe .expression)
  | imports => Phrase (.maybe .projection)
  | transactions => Phrase (.maybe (.maybe .expression))
  | yields => List Yield
  | queries => Phrase (.many .chain)

/-- What a slot holds after a step. -/
def take : (slot : SlotName) → slot.Content → ClauseStep → slot.Content
  | paths, earlier, .path path => earlier ++ .cons path .nil
  | isOptional, _, .makeOptional => true
  | selector, _, .select chosen => some chosen
  | filter, earlier, .filter operator predicate => Filter.add operator predicate earlier
  | filter, earlier, .filterProperties target properties =>
      Filter.addProperties target properties earlier
  | updates, earlier, .set items => Updates.set items earlier
  | updates, earlier, .remove items => Updates.remove items earlier
  | deletion, earlier, .delete detach targets => Deletion.add detach targets earlier
  | onCreate, earlier, .onCreate items => earlier ++ .ofList items
  | onMatch, earlier, .onMatch items => earlier ++ .ofList items
  | columns, earlier, .column column => earlier ++ .ofList [column]
  | star, _, .allColumns => true
  | isDistinct, _, .distinct => true
  | sortKeys, earlier, .orderBy key direction => earlier ++ .cons (.sortKey key direction) .nil
  | skip, _, .skip rows => .present rows
  | limit, _, .limit rows => .present rows
  | imports, earlier, .importColumns more =>
      .present (Projection.addColumns more (earlier.toOption.getD (Projection.ofColumns [])))
  | imports, earlier, .importAll =>
      .present (Projection.addAll (earlier.toOption.getD (Projection.ofColumns [])))
  | transactions, _, .inTransactions rows => .present (.ofOption rows)
  | yields, earlier, .yield column => earlier ++ [column]
  | queries, earlier, .query query => earlier ++ .cons query .nil
  | duplicates, _, .keepDuplicates => true
  | _, content, _ => content

theorem take_of_ne {slot : SlotName} {step : ClauseStep} (different : step.slot ≠ slot)
    (content : slot.Content) : slot.take content step = content := by
  cases step <;> cases slot <;> first | rfl | exact absurd rfl different

/-- What a slot holds after all steps, one after the other. -/
def takeAll (slot : SlotName) (content : slot.Content) (steps : List ClauseStep) : slot.Content :=
  steps.foldl slot.take content

/-- The steps on other slots leave no trace. -/
theorem takeAll_filter (slot : SlotName) (content : slot.Content) (steps : List ClauseStep) :
    slot.takeAll content (steps.filter (·.slot = slot)) = slot.takeAll content steps := by
  induction steps generalizing content with
  | nil => rfl
  | cons step rest induction =>
      by_cases own : step.slot = slot
      · rw [List.filter_cons_of_pos (by simpa using own)]
        exact induction (slot.take content step)
      · rw [List.filter_cons_of_neg (by simpa using own), induction]
        exact congrArg (slot.takeAll · rest) (take_of_ne own content).symm

end SlotName

namespace Clause

/-- Change what every slot of a clause holds. -/
def refill (change : (slot : SlotName) → slot.Content → slot.Content) : Clause → Clause
  | .matching isOptional selector first rest filter updates deletion =>
      .matching (change .isOptional isOptional) (change .selector selector) first
        (change .paths rest) (change .filter filter) (change .updates updates)
        (change .deletion deletion)
  | .creating first rest updates =>
      .creating first (change .paths rest) (change .updates updates)
  | .merging path onCreate onMatch updates =>
      .merging path (change .onCreate onCreate) (change .onMatch onMatch)
        (change .updates updates)
  | .passing distinct (.projection star columns) (.rowOrder keys skip limit) filter =>
      .passing (change .isDistinct distinct)
        (.projection (change .star star) (change .columns columns))
        (.rowOrder (change .sortKeys keys) (change .skip skip) (change .limit limit))
        (change .filter filter)
  | .returning distinct (.projection star columns) (.rowOrder keys skip limit) =>
      .returning (change .isDistinct distinct) (.projection star (change .columns columns))
        (.rowOrder (change .sortKeys keys) (change .skip skip) (change .limit limit))
  | .unwinding list member updates deletion =>
      .unwinding list member (change .updates updates) (change .deletion deletion)
  | .calling imports body transactions =>
      .calling (change .imports imports) body (change .transactions transactions)
  | .procedure name arguments yields filter =>
      .procedure name arguments (change .yields yields) (change .filter filter)
  | .union all queries => .union (change .duplicates all) (change .queries queries)
  | .deleting deletion => .deleting (change .deletion deletion)
  | clause => clause

theorem kind_refill (change : (slot : SlotName) → slot.Content → slot.Content) (clause : Clause) :
    (clause.refill change).kind = clause.kind := by
  cases clause
  case passing distinct projection order filter =>
    cases projection
    cases order
    rfl
  case returning distinct projection order =>
    cases projection
    cases order
    rfl
  all_goals rfl

theorem refill_unchanged (clause : Clause) : clause.refill (fun _ content => content) = clause := by
  cases clause
  case passing distinct projection order filter =>
    cases projection
    cases order
    rfl
  case returning distinct projection order =>
    cases projection
    cases order
    rfl
  all_goals rfl

theorem refill_refill (first second : (slot : SlotName) → slot.Content → slot.Content)
    (clause : Clause) :
    (clause.refill first).refill second =
      clause.refill fun slot content => second slot (first slot content) := by
  cases clause
  case passing distinct projection order filter =>
    cases projection
    cases order
    rfl
  case returning distinct projection order =>
    cases projection
    cases order
    rfl
  all_goals rfl

/-- A step changes the content of its slot, if the clause has the slot. -/
theorem step?_eq (clause : Clause) (step : ClauseStep) :
    clause.step? step =
      if step.slot ∈ clause.kind.slots then some (clause.refill (·.take · step)) else none := by
  cases clause
  case passing distinct projection order filter =>
    cases projection
    cases order
    cases step <;> rfl
  case returning distinct projection order =>
    cases projection
    cases order
    cases step <;> rfl
  all_goals cases step <;> rfl

/-- Steps that fit a clause fill its slots independently of each other. -/
theorem steps?_eq {clause : Clause} {steps : List ClauseStep}
    (fits : ∀ step ∈ steps, step.slot ∈ clause.kind.slots) :
    clause.steps? steps = some (clause.refill (·.takeAll · steps)) := by
  induction steps generalizing clause with
  | nil => exact congrArg some clause.refill_unchanged.symm
  | cons step rest induction =>
      rw [List.forall_mem_cons] at fits
      rw [steps?, step?_eq, if_pos fits.1, Option.bind_some, induction, refill_refill]
      · rfl
      · rw [kind_refill]
        exact fits.2

/-- Two sequences of steps that have the same steps on each slot, in the same order, fill a clause
alike. Each slot holds what its own steps make of it. -/
theorem filled_slot_by_slot {clause : Clause} {steps others : List ClauseStep}
    (fits : ∀ step ∈ steps, step.slot ∈ clause.kind.slots)
    (same : ∀ slot, others.filter (·.slot = slot) = steps.filter (·.slot = slot)) :
    ∃ filled other, clause.steps? steps = some filled ∧ clause.steps? others = some other ∧
      filled = clause.refill (fun slot content =>
        slot.takeAll content (steps.filter (·.slot = slot))) ∧
      (∀ environment, other.whole.render environment = filled.whole.render environment) ∧
      ∀ (before : List Clause) (after : Option Chain) environment,
        ((Cursor.mk before other after).chain).whole.render environment =
          ((Cursor.mk before filled after).chain).whole.render environment := by
  have fitsOthers : ∀ step ∈ others, step.slot ∈ clause.kind.slots := by
    intro step member
    have own : step ∈ others.filter (·.slot = step.slot) :=
      List.mem_filter.mpr ⟨member, decide_eq_true rfl⟩
    rw [same] at own
    exact fits step (List.mem_filter.mp own).1
  have sameContents : (fun (slot : SlotName) content => slot.takeAll content others) =
      fun slot content => slot.takeAll content steps := by
    funext slot content
    rw [← slot.takeAll_filter, same, slot.takeAll_filter]
  have sameClause := congrArg (clause.refill ·) sameContents
  refine ⟨_, _, steps?_eq fits, steps?_eq fitsOthers, ?_, fun environment => ?_,
    fun before after environment => ?_⟩
  · simp only [SlotName.takeAll_filter]
  · exact congrArg (fun filled => Layout.render (Phrase.whole filled) environment) sameClause
  · exact congrArg (fun filled =>
      Layout.render (Phrase.whole (Cursor.mk before filled after).chain) environment) sameClause

/-- Columns, order and filter, filled in two interleavings. The names are those of the order in
which the clause is read, and the later one of the two limits counts. -/
theorem filled_slot_by_slot_passing :
    let left : Variable := { identity := ⟨0⟩ }
    let right : Variable := { identity := ⟨1⟩ }
    let clause := Clause.pass (Projection.ofColumns [.column (.mention left)])
    let known : ClauseStep :=
      .filter .or (some (.comparison .isNotNull (.mention left) .absent))
    let equal : ClauseStep := .filterProperties right (.cons (.entry "a" (.mention left)) .nil)
    let steps : List ClauseStep :=
      [.limit (.literal (.integer 5)), equal, .distinct, .limit (.mention right), known,
        .column (.column (.mention right)), .orderBy (.mention left) .descending]
    let others : List ClauseStep :=
      [.orderBy (.mention left) .descending, .column (.column (.mention right)), equal, known,
        .limit (.literal (.integer 5)), .limit (.mention right), .distinct]
    (∀ step ∈ steps, step.slot ∈ clause.kind.slots) ∧
      (∀ slot, others.filter (·.slot = slot) = steps.filter (·.slot = slot)) ∧
      ∃ filled other, clause.steps? steps = some filled ∧ clause.steps? others = some other ∧
        other.whole.render (.empty {}) = filled.whole.render (.empty {}) ∧
        filled.whole.result (.empty {}) = .ok ("WITH DISTINCT var0, var1\nORDER BY var0 DESC\n" ++
          "LIMIT var1\nWHERE (var1.a = var0 OR var0 IS NOT NULL)") := by
  intro left right clause known equal steps others
  have fits : ∀ step ∈ steps, step.slot ∈ clause.kind.slots := by
    simp [steps, known, equal, clause, ClauseStep.slot, pass, kind, ClauseKind.slots]
  have same : ∀ slot, others.filter (·.slot = slot) = steps.filter (·.slot = slot) := by
    intro slot
    cases slot <;> rfl
  rcases filled_slot_by_slot fits same with ⟨filled, other, first, second, refilled, rendered, -⟩
  refine ⟨fits, same, filled, other, first, second, rendered (.empty {}), ?_⟩
  rw [refilled]
  decide

end Clause

end Cypher
