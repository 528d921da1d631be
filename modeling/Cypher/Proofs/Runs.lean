import Cypher.Proofs.LeafText
import Cypher.Proofs.Slots
import Cypher.Proofs.Turns
import Mathlib.Data.List.SplitBy

/-! Updates in runs. Assignments and removals are given in any number of steps, and an update
of a clause holds as many of them as stand together: the updates are the longest runs of changes
of one kind, however the changes were given. -/

namespace Cypher

/-! ## Changes -/

/-- One assignment or one removal. -/
inductive Change where
  | assignment (item : Assignment)
  | removal (item : Removal)

namespace Change

def isRemoval : Change → Bool
  | assignment _ => false
  | removal _ => true

/-- Both are assignments, or both are removals. -/
def sameKind (first second : Change) : Bool :=
  first.isRemoval == second.isRemoval

def whole : Change → Layout
  | assignment item => item.whole
  | removal item => item.whole

end Change

namespace Phrase

/-- The changes of an update in order. -/
def changes : Phrase .update → List Change
  | .set first rest => (first :: rest.toList).map .assignment
  | .remove first rest => (first :: rest.toList).map .removal

def removes : Phrase .update → Bool
  | .set _ _ => false
  | .remove _ _ => true

theorem changes_ne_nil (update : Phrase .update) : update.changes ≠ [] := by
  cases update <;> exact List.cons_ne_nil _ _

theorem isRemoval_of_mem_changes {update : Phrase .update} :
    ∀ change ∈ update.changes, change.isRemoval = update.removes := by
  cases update <;> exact List.forall_mem_map.mpr fun _ _ => rfl

theorem changes_inj {first second : Phrase .update} (same : first.changes = second.changes) :
    first = second := by
  have restInj {category : Category} {left right : Phrase (.many category)}
      (equal : left.toList = right.toList) : left = right := by
    rw [← ofList_toList left, equal, ofList_toList]
  cases first with
  | set first rest =>
      cases second with
      | set other others =>
          have items := List.map_injective_iff.mpr (fun _ _ => Change.assignment.inj) same
          rcases List.cons.inj items with ⟨rfl, sameRest⟩
          rw [restInj sameRest]
      | remove other others => cases same
  | remove first rest =>
      cases second with
      | set other others => cases same
      | remove other others =>
          have items := List.map_injective_iff.mpr (fun _ _ => Change.removal.inj) same
          rcases List.cons.inj items with ⟨rfl, sameRest⟩
          rw [restInj sameRest]

end Phrase

/-! ## Steps -/

/-- What is added to updates in one step. -/
inductive UpdateStep where
  | set (items : List Assignment)
  | remove (items : List Removal)

namespace UpdateStep

def changes : UpdateStep → List Change
  | set items => items.map .assignment
  | remove items => items.map .removal

/-- The step that adds the same to the updates of a clause. -/
def onClause : UpdateStep → ClauseStep
  | set items => .set items
  | remove items => .remove items

/-- All changes of a step as one update, if there are any. -/
def update? : UpdateStep → Option (Phrase .update)
  | set [] => none
  | set (first :: rest) => some (.set first (.ofList rest))
  | remove [] => none
  | remove (first :: rest) => some (.remove first (.ofList rest))

theorem changes_eq (step : UpdateStep) :
    step.changes = step.update?.elim [] Phrase.changes := by
  rcases step with (_ | ⟨first, rest⟩) | (_ | ⟨first, rest⟩) <;>
    simp [changes, update?, Phrase.changes]

end UpdateStep

namespace Updates

def take (updates : Updates) : UpdateStep → Updates
  | .set items => updates.set items
  | .remove items => updates.remove items

/-- The updates after all steps, one after the other. -/
def takeAll (updates : Updates) (steps : List UpdateStep) : Updates :=
  steps.foldl take updates

/-- The changes of every update. -/
def runs (updates : Updates) : List (List Change) :=
  updates.toList.map Phrase.changes

/-! ## One more update -/

/-- Two updates of one kind in one. -/
def merge? : Phrase .update → Phrase .update → Option (Phrase .update)
  | .set earliest earlier, .set first rest => some (.set earliest (earlier ++ .cons first rest))
  | .remove earliest earlier, .remove first rest =>
      some (.remove earliest (earlier ++ .cons first rest))
  | _, _ => none

/-- An update behind others. It becomes a part of the last one if that is of its kind. -/
def behind (update : Phrase .update) : List (Phrase .update) → List (Phrase .update)
  | [] => [update]
  | [last] => (merge? last update).elim [last, update] ([·])
  | head :: tail => head :: behind update tail

theorem setIn_eq (first : Assignment) (rest : List Assignment) (updates : List (Phrase .update)) :
    setIn first rest updates = behind (.set first (.ofList rest)) updates := by
  fun_induction setIn first rest updates with
  | case1 => rfl
  | case2 => rfl
  | case3 head tail notSet induction =>
      rw [induction]
      cases tail with
      | cons next others => rfl
      | nil =>
          cases head with
          | set earliest earlier => exact absurd rfl (notSet earliest earlier rfl)
          | remove earliest earlier => rfl

theorem removeIn_eq (first : Removal) (rest : List Removal) (updates : List (Phrase .update)) :
    removeIn first rest updates = behind (.remove first (.ofList rest)) updates := by
  fun_induction removeIn first rest updates with
  | case1 => rfl
  | case2 => rfl
  | case3 head tail notRemove induction =>
      rw [induction]
      cases tail with
      | cons next others => rfl
      | nil =>
          cases head with
          | set earliest earlier => rfl
          | remove earliest earlier => exact absurd rfl (notRemove earliest earlier rfl)

theorem toList_take (updates : Updates) (step : UpdateStep) :
    (updates.take step).toList = step.update?.elim updates.toList (behind · updates.toList) := by
  rcases step with (_ | ⟨first, rest⟩) | (_ | ⟨first, rest⟩)
  · rfl
  · exact (Phrase.toList_ofList _).trans (setIn_eq first rest updates.toList)
  · rfl
  · exact (Phrase.toList_ofList _).trans (removeIn_eq first rest updates.toList)

theorem behind_concat (update last : Phrase .update) (front : List (Phrase .update)) :
    behind update (front ++ [last]) =
      front ++ (merge? last update).elim [last, update] ([·]) :=
  changed_last (fun _ _ _ => rfl) front last

theorem of_merge?_eq_some {last update whole : Phrase .update}
    (merged : merge? last update = some whole) :
    whole.changes = last.changes ++ update.changes ∧ whole.removes = last.removes := by
  unfold merge? at merged
  split at merged <;> cases merged <;> exact ⟨by simp [Phrase.changes], rfl⟩

theorem removes_ne_of_merge?_eq_none {last update : Phrase .update}
    (apart : merge? last update = none) : last.removes ≠ update.removes := by
  cases last with
  | set earliest earlier =>
      cases update with
      | set first rest => cases apart
      | remove first rest => exact Bool.false_ne_true
  | remove earliest earlier =>
      cases update with
      | set first rest => exact Bool.false_ne_true.symm
      | remove first rest => cases apart

theorem changes_behind (update : Phrase .update) (updates : List (Phrase .update)) :
    (behind update updates).flatMap Phrase.changes =
      updates.flatMap Phrase.changes ++ update.changes := by
  rcases updates.eq_nil_or_concat' with rfl | ⟨front, last, rfl⟩
  · simp [behind]
  · rw [behind_concat]
    cases merged : merge? last update with
    | none => simp
    | some whole => simp [(of_merge?_eq_some merged).1]

/-! ## Neighbours of different kinds -/

/-- No two neighbours are of one kind. -/
def Alternate (updates : List (Phrase .update)) : Prop :=
  (updates.map Phrase.removes).IsChain (· ≠ ·)

theorem alternate_behind (update : Phrase .update) {updates : List (Phrase .update)}
    (alternate : Alternate updates) : Alternate (behind update updates) := by
  rcases updates.eq_nil_or_concat' with rfl | ⟨front, last, rfl⟩
  · exact List.isChain_singleton _
  · rw [behind_concat]
    cases merged : merge? last update with
    | some whole =>
        have sameKinds : (front ++ [whole]).map Phrase.removes =
            (front ++ [last]).map Phrase.removes := by
          simp [(of_merge?_eq_some merged).2]
        rw [Option.elim_some, Alternate, sameKinds]
        exact alternate
    | none =>
        have different := removes_ne_of_merge?_eq_none merged
        have more : front ++ [last, update] = (front ++ [last]) ++ [update] := by simp
        rw [Option.elim_none, more, Alternate, List.map_append]
        refine List.isChain_append.mpr ⟨alternate, List.isChain_singleton _, ?_⟩
        simpa using different

/-- If neighbours are of different kinds, every update holds a longest run. -/
theorem runs_eq_splitBy {updates : List (Phrase .update)} (alternate : Alternate updates) :
    updates.map Phrase.changes =
      (updates.flatMap Phrase.changes).splitBy Change.sameKind := by
  refine (List.splitBy_eq_iff.mpr ⟨List.flatMap_def, ?_, ?_, ?_⟩).symm
  · intro empty
    rcases List.mem_map.mp empty with ⟨update, -, changes⟩
    exact update.changes_ne_nil changes
  · refine List.forall_mem_map.mpr fun update _ => ?_
    refine (List.pairwise_of_forall_mem_list fun first isFirst second isSecond => ?_).isChain
    rw [Change.sameKind, Phrase.isRemoval_of_mem_changes first isFirst,
      Phrase.isRemoval_of_mem_changes second isSecond, beq_self_eq_true]
  · rw [List.isChain_map]
    refine ((List.isChain_map _).mp alternate).imp fun first second different => ?_
    refine ⟨first.changes_ne_nil, second.changes_ne_nil, ?_⟩
    rw [Change.sameKind, Phrase.isRemoval_of_mem_changes _ (List.getLast_mem _),
      Phrase.isRemoval_of_mem_changes _ (List.head_mem _)]
    exact beq_false_of_ne different

/-! ## All steps -/

theorem takeAll_induction (updates : Updates) (alternate : Alternate updates.toList)
    (steps : List UpdateStep) :
    Alternate (updates.takeAll steps).toList ∧
      (updates.takeAll steps).toList.flatMap Phrase.changes =
        updates.toList.flatMap Phrase.changes ++ steps.flatMap UpdateStep.changes := by
  induction steps generalizing updates with
  | nil => exact ⟨alternate, (List.append_nil _).symm⟩
  | cons step rest induction =>
      have next : Alternate (updates.take step).toList ∧
          (updates.take step).toList.flatMap Phrase.changes =
            updates.toList.flatMap Phrase.changes ++ step.changes := by
        rw [toList_take, step.changes_eq]
        cases step.update? with
        | none => exact ⟨alternate, (List.append_nil _).symm⟩
        | some update => exact ⟨alternate_behind update alternate, changes_behind update _⟩
      rcases induction (updates.take step) next.1 with ⟨alternates, together⟩
      refine ⟨alternates, ?_⟩
      rw [takeAll, List.foldl_cons, ← takeAll, together, next.2, List.flatMap_cons,
        List.append_assoc]

theorem runs_takeAll (steps : List UpdateStep) :
    (takeAll .nil steps).runs = (steps.flatMap UpdateStep.changes).splitBy Change.sameKind := by
  rcases takeAll_induction .nil List.isChain_nil steps with ⟨alternate, together⟩
  rw [runs, runs_eq_splitBy alternate, together]
  rfl

theorem eq_of_runs_eq {first second : Updates} (same : first.runs = second.runs) :
    first = second := by
  have items := List.map_injective_iff.mpr (fun _ _ => Phrase.changes_inj) same
  rw [← Phrase.ofList_toList first, items, Phrase.ofList_toList]

end Updates

theorem Clause.step?_update (clause : Clause) (step : UpdateStep) :
    clause.step? step.onClause = clause.changeUpdates? (Updates.take · step) := by
  cases step <;> rfl

/-! ## The text of a run -/

namespace Change

/-- The text of a run from the texts of its changes: all removals on one line, or a block of
assignments. -/
def runText (run : List Change) (texts : List String) : String :=
  if run.any isRemoval then "REMOVE " ++ ", ".intercalate texts
  else "SET\n" ++ Block.indent (",\n".intercalate texts)

/-- The changes of a run are rendered in turn. -/
def renderRun (run : List Change) : Layout.Rendering String :=
  runText run <$> run.mapM (·.whole.render)

end Change

namespace Updates

open Layout

theorem render_update (update : Phrase .update) :
    update.layout.render = Change.renderRun update.changes := by
  cases update with
  | set first rest =>
      have block : (Phrase.set first rest).layout =
          after "SET\n" (indent (joined ",\n" ((first :: rest.toList).map Phrase.layout))) := by
        rw [List.map_cons, ← Phrase.layout_eq_map]
        rfl
      have text : Change.runText (Phrase.set first rest).changes = fun texts =>
          "SET\n" ++ Block.indent (",\n".intercalate texts) := by
        funext texts
        refine if_neg ?_
        simp [Phrase.changes, Change.isRemoval]
      rw [block, render_after, render_indent, render_joined, Change.renderRun, text,
        Phrase.changes, List.mapM_map, List.mapM_map]
      simp only [Functor.map_map]
      rfl
  | remove first rest =>
      have line : (Phrase.remove first rest).layout =
          after "REMOVE " (joined ", " ((first :: rest.toList).map Phrase.layout)) := by
        rw [List.map_cons, ← Phrase.layout_eq_map]
        rfl
      have text : Change.runText (Phrase.remove first rest).changes = fun texts =>
          "REMOVE " ++ ", ".intercalate texts := by
        funext texts
        exact if_pos rfl
      rw [line, render_after, render_joined, Change.renderRun, text, Phrase.changes,
        List.mapM_map, List.mapM_map]
      simp only [Functor.map_map]
      rfl

theorem render_runs (updates : Updates) :
    (lines updates.layout).render =
      "\n".intercalate <$> updates.runs.mapM Change.renderRun := by
  rw [render_lines, Phrase.layout_eq_map, runs, List.mapM_map, List.mapM_map]
  congr 2
  funext update
  exact render_update update

end Updates

/-! ## Items on lines of their own -/

/-- All texts, each but the last one with a comma behind it. -/
def withCommas : List String → List String
  | [] => []
  | [last] => [last]
  | head :: tail => (head ++ ",") :: withCommas tail

theorem withCommas_cons_cons (head next : String) (rest : List String) :
    withCommas (head :: next :: rest) = (head ++ ",") :: withCommas (next :: rest) := rfl

/-- In a block, every item begins a line. -/
theorem indent_withCommas {texts : List String} (written : ∀ text ∈ texts, text ≠ "") :
    Block.indent (",\n".intercalate texts) =
      "\n".intercalate ((withCommas texts).map Block.indent) := by
  induction texts with
  | nil => rfl
  | cons head tail induction =>
      rw [List.forall_mem_cons] at written
      cases tail with
      | nil => simp [withCommas]
      | cons next rest =>
          have comma : Block.IsMark ',' := ⟨by decide, by decide⟩
          have ends : (head ++ ",").toList = head.toList ++ [','] := String.toList_append
          have more : ",\n".intercalate (next :: rest) ≠ "" := by
            cases rest with
            | nil => simpa using written.2
            | cons other others => simp [String.intercalate_cons_cons]
          have moreLines : (withCommas (next :: rest)).map Block.indent ≠ [] := by
            cases rest <;> exact List.cons_ne_nil _ _
          have below := Block.indent_below comma ends more
          have separator : head ++ ",\n" = head ++ "," ++ "\n" := by
            rw [String.append_assoc]
            rfl
          rw [String.intercalate_cons_cons, separator, below, induction written.2,
            withCommas_cons_cons, List.map_cons, String.intercalate_cons_of_ne_nil moreLines]

/-- An assignment has text, since its target has a name. -/
theorem written_assignment_ne_empty {names : Dictionary}
    (named : ∀ binder, names.variableText binder ≠ "") (assignment : Assignment) :
    assignment.whole.written names ≠ "" := by
  have between {keyword : String} (keywordWritten : keyword ≠ "") (front back : String) :
      front ++ keyword ++ back ≠ "" := by
    simp [keywordWritten]
  have equals : " = " ≠ "" := by decide
  have plusEquals : " += " ≠ "" := by decide
  cases assignment with
  | assign target value => exact between equals _ _
  | extend target value => exact between plusEquals _ _
  | addLabels target labels =>
      intro empty
      exact named target (String.append_eq_empty_iff.mp empty).1

/-- A run of assignments has the keyword on a line and then its items, each on lines of its
own. -/
theorem Change.runText_assignments {environment after : Environment} {first : Assignment}
    {rest : List Assignment} {texts : List String} (reachable : environment.Reachable)
    (rendered : (first :: rest).mapM (·.whole.render) environment = .ok texts after) :
    runText ((first :: rest).map .assignment) texts =
      "\n".intercalate ("SET" :: (withCommas texts).map Block.indent) := by
  have written : ∀ text ∈ texts, text ≠ "" := by
    refine (Layout.mapM_induction (fun item _ => ?_) reachable rendered).2
    intro environment after text reachable rendered
    have later := Layout.reachable_of_render_ok reachable rendered
    refine ⟨later, ?_⟩
    rw [(Layout.of_render_ok rendered 0).2.2]
    exact written_assignment_ne_empty (fun binder => (later.visible binder).ne_empty) item
  have more : (withCommas texts).map Block.indent ≠ [] := by
    rcases Layout.ok_of_mapM_cons rendered with ⟨text, others, -, rfl, -⟩
    cases others <;> exact List.cons_ne_nil _ _
  have noRemoval : ¬ ((first :: rest).map assignment).any isRemoval := by simp [isRemoval]
  rw [runText, if_neg noRemoval, indent_withCommas written,
    String.intercalate_cons_of_ne_nil more]
  rfl

/-- Updates hold the longest runs of changes of one kind, in the order in which the changes were
given: no run is empty and no neighbours are of one kind. Steps with the same changes make the
same clause. A run has one line if it removes, and otherwise the lines of its assignments. -/
theorem Updates.applied_in_runs (steps : List UpdateStep) :
    (takeAll .nil steps).runs = (steps.flatMap UpdateStep.changes).splitBy Change.sameKind ∧
    (takeAll .nil steps).runs.flatten = steps.flatMap UpdateStep.changes ∧
    [] ∉ (takeAll .nil steps).runs ∧
    ((takeAll .nil steps).toList.map Phrase.removes).IsChain (· ≠ ·) ∧
    (∀ clause : Clause, clause.updates? = some .nil →
      (∃ after, clause.steps? (steps.map UpdateStep.onClause) = some after ∧
        clause.changeUpdates? (·.takeAll steps) = some after ∧
        after.updates? = some (takeAll .nil steps)) ∧
      ∀ others : List UpdateStep,
        others.flatMap UpdateStep.changes = steps.flatMap UpdateStep.changes →
        clause.steps? (others.map UpdateStep.onClause) =
          clause.steps? (steps.map UpdateStep.onClause)) ∧
    (∀ environment, (Layout.lines (takeAll .nil steps).layout).render environment =
      ("\n".intercalate <$> ((steps.flatMap UpdateStep.changes).splitBy Change.sameKind).mapM
        Change.renderRun) environment) ∧
    ∀ {environment after : Environment} {first : Assignment} {rest : List Assignment}
      {texts : List String}, environment.Reachable →
      (first :: rest).mapM (·.whole.render) environment = .ok texts after →
      Change.runText ((first :: rest).map .assignment) texts =
        "\n".intercalate ("SET" :: (withCommas texts).map Block.indent) := by
  have runs := runs_takeAll steps
  refine ⟨runs, ?_, ?_, ?_, fun clause empty => ⟨?_, fun others same => ?_⟩, ?_,
    Change.runText_assignments⟩
  · rw [runs, List.flatten_splitBy]
  · rw [runs]
    exact List.nil_notMem_splitBy _ _
  · exact (takeAll_induction .nil List.isChain_nil steps).1
  · exact Clause.updateSlot.steps? Clause.step?_update empty steps
  · refine Clause.updateSlot.steps?_congr Clause.step?_update empty (eq_of_runs_eq ?_)
    exact (runs_takeAll others).trans ((congrArg _ same).trans runs.symm)
  · intro environment
    rw [render_runs, runs]

/-- A step without items stands between two steps of one kind. They make one run anyway, as if
all had been given at once. -/
theorem Updates.applied_in_runs_merging :
    let target : Variable := { identity := ⟨0⟩ }
    let seen : Assignment := .addLabels target ["Seen"]
    let ranked : Assignment := .assign (.property (.mention target) "rank") (.literal (.integer 1))
    let stale : Removal := .removeLabels target ["Stale"]
    let clause := Clause.merge (Path.ofNode (Node.ofVariable (some target)))
    let steps : List UpdateStep :=
      [.set [seen], .remove [], .set [ranked], .remove [stale], .set [], .set [seen]]
    let others : List UpdateStep := [.set [seen, ranked], .remove [stale], .set [seen]]
    let asGiven : List (List Change) :=
      [[.assignment seen, .assignment ranked], [.removal stale], [.assignment seen]]
    (takeAll .nil steps).runs = asGiven ∧
      (clause.updates? = some .nil ∧
        ∃ after, clause.steps? (others.map UpdateStep.onClause) = some after ∧
          after.updates? = some (takeAll .nil steps)) ∧
      (Layout.lines (takeAll .nil steps).layout).result (.empty {}) =
        .ok "SET\n    var0:Seen,\n    var0.rank = 1\nREMOVE var0:Stale\nSET\n    var0:Seen" ∧
      Change.runText [.assignment seen, .assignment ranked] ["var0:Seen", "var0.rank = 1"] =
        "\n".intercalate ["SET", "    var0:Seen,", "    var0.rank = 1"] := by
  intro target seen ranked stale clause steps others asGiven
  rcases applied_in_runs steps with ⟨runs, -, -, -, clauses, rendered, blocks⟩
  rcases clauses clause rfl with ⟨⟨after, taken, -, filled⟩, sameClause⟩
  have together : (steps.flatMap UpdateStep.changes).splitBy Change.sameKind = asGiven := rfl
  have inTurn : [seen, ranked].mapM (fun item => item.whole.render) (.empty {}) =
      .ok ["var0:Seen", "var0.rank = 1"] _ := rfl
  have lines : (withCommas ["var0:Seen", "var0.rank = 1"]).map Block.indent =
      ["    var0:Seen,", "    var0.rank = 1"] := by decide
  refine ⟨?_, ⟨?_, after, ?_, ?_⟩, ?_, ?_⟩
  · exact runs.trans together
  · rfl
  · rw [sameClause others rfl, taken]
  · exact filled
  · rw [Layout.result, rendered, together]
    decide
  · have block := blocks (.empty {}) inTurn
    rw [lines] at block
    exact block

end Cypher
