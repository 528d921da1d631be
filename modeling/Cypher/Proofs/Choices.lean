import Cypher.Proofs.Faults
import Cypher.Proofs.Recall
import Cypher.Proofs.Slots
import Cypher.Proofs.Turns

/-! The branches of a choice. Conditions and results are given in steps of their own, in any
number and order. A condition has the last result in front of the next condition, and what is
replaced or has no place is never looked at. -/

namespace Cypher

/-! ## Steps and branches -/

/-- What is put on a choice in one step. -/
inductive ChoiceStep where
  | when (condition : Expression)
  | result (value : Expression)
  | otherwise (value : Expression)

namespace ChoiceStep

def expression : ChoiceStep → Expression
  | when condition => condition
  | result value => value
  | otherwise value => value

def isWhen : ChoiceStep → Bool
  | when _ => true
  | _ => false

def result? : ChoiceStep → Option Expression
  | result value => some value
  | _ => none

def otherwise? : ChoiceStep → Option Expression
  | otherwise value => some value
  | _ => none

theorem result?_eq_some_iff {step : ChoiceStep} {value : Expression} :
    step.result? = some value ↔ step = .result value := by
  cases step <;> simp [result?]

theorem otherwise?_eq_some_iff {step : ChoiceStep} {value : Expression} :
    step.otherwise? = some value ↔ step = .otherwise value := by
  cases step <;> simp [otherwise?]

end ChoiceStep

/-- The last result in front of the next condition. -/
def resultBehind (steps : List ChoiceStep) : Option Expression :=
  ((steps.takeWhile (!·.isWhen)).filterMap ChoiceStep.result?).getLast?

/-- All conditions with their results. -/
def branchesOf : List ChoiceStep → List (Expression × Option Expression)
  | [] => []
  | .when condition :: rest => (condition, resultBehind rest) :: branchesOf rest
  | _ :: rest => branchesOf rest

/-- The last result that is for no condition. -/
def defaultOf (steps : List ChoiceStep) : Option Expression :=
  (steps.filterMap ChoiceStep.otherwise?).getLast?

theorem resultBehind_result (value : Expression) (rest : List ChoiceStep) :
    resultBehind (.result value :: rest) = some ((resultBehind rest).getD value) :=
  List.getLast?_cons

theorem defaultOf_otherwise (value : Expression) (rest : List ChoiceStep) :
    defaultOf (.otherwise value :: rest) = some ((defaultOf rest).getD value) :=
  List.getLast?_cons

theorem resultBehind_eq_none_iff {steps : List ChoiceStep} :
    resultBehind steps = none ↔ ∀ value, .result value ∉ steps.takeWhile (!·.isWhen) := by
  rw [resultBehind, List.getLast?_eq_none_iff, List.filterMap_eq_nil_iff]
  simp only [Option.eq_none_iff_forall_ne_some, ne_eq, ChoiceStep.result?_eq_some_iff]
  exact ⟨fun missing value member => missing _ member value rfl,
    fun missing step member value same => missing value (same ▸ member)⟩

theorem mem_of_resultBehind {value : Expression} {steps : List ChoiceStep}
    (found : resultBehind steps = some value) : .result value ∈ steps := by
  rcases List.mem_filterMap.mp (List.mem_of_getLast? found) with ⟨step, member, same⟩
  rw [ChoiceStep.result?_eq_some_iff.mp same] at member
  exact (List.takeWhile_prefix _).subset member

theorem mem_of_defaultOf {value : Expression} {steps : List ChoiceStep}
    (found : defaultOf steps = some value) : .otherwise value ∈ steps := by
  rcases List.mem_filterMap.mp (List.mem_of_getLast? found) with ⟨step, member, same⟩
  rwa [ChoiceStep.otherwise?_eq_some_iff.mp same] at member

/-- The branch of a condition has the result behind it. -/
theorem mem_branchesOf_iff {condition : Expression} {result : Option Expression}
    {steps : List ChoiceStep} : (condition, result) ∈ branchesOf steps ↔
      ∃ before after, steps = before ++ .when condition :: after ∧ resultBehind after = result := by
  constructor
  · intro member
    induction steps with
    | nil => cases member
    | cons step rest induction =>
        have later (member : (condition, result) ∈ branchesOf rest) :
            ∃ before after, step :: rest = before ++ .when condition :: after ∧
              resultBehind after = result := by
          rcases induction member with ⟨before, after, equal, behind⟩
          exact ⟨step :: before, after, congrArg (step :: ·) equal, behind⟩
        cases step with
        | when first =>
            rcases List.mem_cons.mp member with equal | member
            · cases equal
              exact ⟨[], rest, rfl, rfl⟩
            · exact later member
        | result value => exact later member
        | otherwise value => exact later member
  · rintro ⟨before, after, rfl, rfl⟩
    induction before with
    | nil => exact List.mem_cons_self
    | cons step rest induction =>
        cases step with
        | when first => exact List.mem_cons_of_mem _ induction
        | result value => exact induction
        | otherwise value => exact induction

namespace Choice

def take (choice : Choice) : ChoiceStep → Choice
  | .when condition => choice.when condition
  | .result result => choice.result result
  | .otherwise result => choice.otherwise result

/-- The choice after all steps, one after the other. -/
def takeAll (choice : Choice) (steps : List ChoiceStep) : Choice :=
  steps.foldl take choice

theorem takeAll_cons (choice : Choice) (step : ChoiceStep) (rest : List ChoiceStep) :
    choice.takeAll (step :: rest) = (choice.take step).takeAll rest := rfl

def branch : Expression × Option Expression → Phrase .branch
  | (condition, result) => .branch condition (.ofOption result)

/-! ## One more step -/

theorem resultOfLast_cons_cons (result : Expression) (head next : Phrase .branch)
    (rest : List (Phrase .branch)) :
    resultOfLast result (head :: next :: rest) = head :: resultOfLast result (next :: rest) := by
  cases head
  rfl

theorem resultOfLast_concat (result condition : Expression)
    (earlier : Phrase (.maybe .expression)) (front : List (Phrase .branch)) :
    resultOfLast result (front ++ [.branch condition earlier]) =
      front ++ [.branch condition (.present result)] :=
  changed_last (resultOfLast_cons_cons result) front _

theorem resultOfLast_resultOfLast (first second : Expression) (front : List (Phrase .branch)) :
    resultOfLast second (resultOfLast first front) = resultOfLast second front := by
  rcases front.eq_nil_or_concat' with rfl | ⟨others, last, rfl⟩
  · rfl
  · cases last with
    | branch condition earlier =>
        rw [resultOfLast_concat, resultOfLast_concat, resultOfLast_concat]

/-- The result in front of the next condition belongs to the last branch so far. -/
def fill (front : List (Phrase .branch)) : Option Expression → List (Phrase .branch)
  | none => front
  | some result => resultOfLast result front

theorem fill_resultOfLast (front : List (Phrase .branch)) (value : Expression)
    (result : Option Expression) :
    fill (resultOfLast value front) result = fill front (some (result.getD value)) := by
  cases result with
  | none => rfl
  | some result => exact resultOfLast_resultOfLast value result front

theorem fill_concat (front : List (Phrase .branch)) (condition : Expression)
    (result : Option Expression) :
    fill (front ++ [.branch condition .absent]) result = front ++ [branch (condition, result)] := by
  cases result with
  | none => rfl
  | some result => exact resultOfLast_concat result condition .absent front

section Take

variable (subject : Phrase (.maybe .expression)) (front : List (Phrase .branch))
  (default : Phrase (.maybe .expression))

theorem take_when (condition : Expression) :
    take (.choice subject (.ofList front) default) (.when condition) =
      .choice subject (.ofList (front ++ [.branch condition .absent])) default := by
  rw [take, when, Phrase.ofList_concat]

theorem take_result (value : Expression) :
    take (.choice subject (.ofList front) default) (.result value) =
      .choice subject (.ofList (resultOfLast value front)) default := by
  rw [take, result, Phrase.toList_ofList]

theorem takeAll_ofList (default : Option Expression) (steps : List ChoiceStep) :
    takeAll (.choice subject (.ofList front) (.ofOption default)) steps =
      .choice subject
        (.ofList (fill front (resultBehind steps) ++ (branchesOf steps).map branch))
        (.ofOption ((defaultOf steps).or default)) := by
  induction steps generalizing front default with
  | nil =>
      have unchanged : fill front none ++ [] = front := List.append_nil front
      exact congrArg (fun all => Phrase.choice subject (.ofList all) _) unchanged.symm
  | cons step rest induction =>
      cases step with
      | when condition =>
          rw [takeAll_cons, take_when, induction, fill_concat, List.append_assoc]
          rfl
      | result value =>
          rw [takeAll_cons, take_result, induction, fill_resultOfLast, resultBehind_result]
          rfl
      | otherwise value =>
          have last : (defaultOf rest).or (some value) =
              (defaultOf (.otherwise value :: rest)).or default := by
            rw [defaultOf_otherwise]
            cases defaultOf rest <;> rfl
          rw [← last]
          exact induction front (some value)

end Take

theorem takeAll_start (subject : Option Expression) (steps : List ChoiceStep) :
    (start subject).takeAll steps =
      .choice (.ofOption subject) (.ofList ((branchesOf steps).map branch))
        (.ofOption (defaultOf steps)) := by
  have all := takeAll_ofList (.ofOption subject) [] none steps
  rw [Option.or_none] at all
  cases found : resultBehind steps with
  | none =>
      rw [found] at all
      exact all
  | some result =>
      rw [found] at all
      exact all

/-! ## The text of a choice -/

/-- The text of a branch. A branch without a result is found before its condition. -/
def renderBranch : Expression × Option Expression → Layout.Rendering String
  | (condition, some result) => do
      let conditionText ← condition.layout.render
      let resultText ← result.layout.render
      return "WHEN " ++ conditionText ++ " THEN " ++ resultText
  | (_, none) => throw .caseWithoutThen

/-- The text of a choice with a subject and entries. Without an entry there is no line between
the first and the last one. -/
def text (subject : Option String) (entries : List String) : String :=
  let body := if entries.isEmpty then [] else [Block.indent ("\n".intercalate entries)]
  "\n".intercalate (("CASE" ++ subject.elim "" (" " ++ ·)) :: body ++ ["END"])

/-- The subject, the branches and the default are rendered one after the other. -/
def renderInTurn (subject : Option Expression) (branches : List (Expression × Option Expression))
    (default : Option Expression) : Layout.Rendering String := do
  let subjectText ← subject.mapM (·.layout.render)
  let branchTexts ← branches.mapM renderBranch
  let defaultText ← default.mapM (·.layout.render)
  return text subjectText (branchTexts ++ (defaultText.map ("ELSE " ++ ·)).toList)

open Layout

theorem render_branch (parts : Expression × Option Expression) :
    (branch parts).layout.render = renderBranch parts := by
  rcases parts with ⟨condition, _ | result⟩
  · rfl
  · have layout : (branch (condition, some result)).layout =
        "WHEN " ++ condition.layout ++ " THEN " ++ result.layout := rfl
    rw [layout, render_append, render_append, render_append, render_text, render_text]
    simp only [renderBranch, bind_assoc, pure_bind, String.append_assoc]

theorem render_header (subject : Option Expression) :
    (after "CASE" (optional " " (subject.map Phrase.layout))).render =
      (fun text => "CASE" ++ text.elim "" (" " ++ ·)) <$> subject.mapM (·.layout.render) := by
  cases subject with
  | none => rfl
  | some subject =>
      have layout : optional " " ((some subject).map Phrase.layout) = after " " subject.layout := rfl
      rw [layout, render_after, render_after]
      simp

theorem render_body (entries : List Layout) :
    (if entries.isEmpty then [] else [indent (lines entries)]).mapM render =
      (fun texts : List String =>
        if texts.isEmpty then [] else [Block.indent ("\n".intercalate texts)]) <$>
          entries.mapM render := by
  cases entries with
  | nil => rfl
  | cons head tail =>
      simp [render_indent, render_lines]

theorem render_default (default : Option Expression) :
    ((default.map Phrase.layout).map (after "ELSE ")).toList.mapM render =
      (fun text => (text.map ("ELSE " ++ ·)).toList) <$> default.mapM (·.layout.render) := by
  cases default with
  | none => rfl
  | some default => simp [render_after]

theorem render_choice (subject : Option Expression)
    (branches : List (Expression × Option Expression)) (default : Option Expression) :
    (Phrase.choice (.ofOption subject) (.ofList (branches.map branch))
      (.ofOption default)).layout.render = renderInTurn subject branches default := by
  have optionLayout (content : Option Expression) :
      (Phrase.ofOption content).layout = content.map Phrase.layout := by
    cases content <;> rfl
  have branchLayouts : (branches.map fun parts => (branch parts).layout).mapM render =
      branches.mapM renderBranch := by
    rw [List.mapM_map]
    congr
    funext parts
    exact render_branch parts
  have layout : (Phrase.choice (.ofOption subject) (.ofList (branches.map branch))
      (.ofOption default)).layout =
      Layout.choice (subject.map Phrase.layout)
        (branches.map fun parts => (branch parts).layout) (default.map Phrase.layout) := by
    have listLayout := Phrase.layout_ofList (branches.map branch)
    rw [List.map_map] at listLayout
    rw [← optionLayout, ← optionLayout]
    exact congrArg (Layout.choice _ · _) listLayout
  rw [layout, Layout.choice, render_lines, List.cons_append, List.mapM_cons, List.mapM_append,
    render_header, render_body, List.mapM_append, branchLayouts, render_default]
  simp [renderInTurn, text, render_text]

/-! ## Choices without a fault -/

/-- Wherever it is rendered, there is no fault. -/
def Renders (expression : Expression) : Prop :=
  ∀ environment, ∃ text after, expression.layout.render environment = .ok text after

theorem renders_of_result {expression : Expression} {environment : Environment} {text : String}
    (rendered : expression.layout.result environment = .ok text) : Renders expression := by
  intro other
  have faultless : expression.firstFault? = none := by
    cases faulty : expression.firstFault? with
    | none => rfl
    | some error =>
        have failed : expression.layout.result environment = .error error :=
          Phrase.result_of_fault faulty environment
        rw [rendered] at failed
        cases failed
  rcases Phrase.result_of_faultless faultless other with ⟨text, written⟩
  exact ⟨text, _, render_of_result written⟩

theorem exists_render_optional {content : Option Expression}
    (sound : ∀ expression ∈ content, Renders expression) (environment : Environment) :
    ∃ text after, content.mapM (·.layout.render) environment = .ok text after := by
  cases content with
  | none => exact ⟨none, environment, rfl⟩
  | some expression =>
      rcases sound expression rfl environment with ⟨text, after, rendered⟩
      exact ⟨some text, after, map_ok some rendered⟩

theorem exists_renderBranch {condition result : Expression} (conditionSound : Renders condition)
    (resultSound : Renders result) (environment : Environment) :
    ∃ text after, renderBranch (condition, some result) environment = .ok text after := by
  rcases conditionSound environment with ⟨conditionText, between, conditionRendered⟩
  rcases resultSound between with ⟨resultText, after, resultRendered⟩
  exact ⟨_, after, (bind_ok conditionRendered).trans (bind_ok resultRendered)⟩

/-- The first branch without a result ends the rendering. -/
theorem mapM_renderBranch_error {branches : List (Expression × Option Expression)}
    (sound : ∀ parts ∈ branches, Renders parts.1 ∧ ∀ result ∈ parts.2, Renders result)
    {condition : Expression} (missing : (condition, none) ∈ branches) (environment : Environment) :
    ∃ after, branches.mapM renderBranch environment = .error .caseWithoutThen after := by
  induction branches generalizing environment with
  | nil => cases missing
  | cons head tail induction =>
      rw [List.forall_mem_cons] at sound
      rw [List.mapM_cons]
      rcases head with ⟨first, _ | result⟩
      · exact ⟨environment, bind_error rfl⟩
      · have inTail : (condition, none) ∈ tail := by simpa using missing
        rcases exists_renderBranch sound.1.1 (sound.1.2 result rfl) environment with
          ⟨text, between, rendered⟩
        rcases induction sound.2 inTail between with ⟨after, failed⟩
        exact ⟨after, (bind_ok rendered).trans (bind_error failed)⟩

theorem exists_mapM_renderBranch {branches : List (Expression × Option Expression)}
    (sound : ∀ parts ∈ branches, Renders parts.1 ∧ ∀ result ∈ parts.2, Renders result)
    (complete : ∀ condition, (condition, none) ∉ branches) (environment : Environment) :
    ∃ texts after, branches.mapM renderBranch environment = .ok texts after := by
  refine exists_mapM_ok (fun parts member => ?_) environment
  rcases parts with ⟨condition, _ | result⟩
  · exact (complete condition member).elim
  · exact exists_renderBranch (sound _ member).1 ((sound _ member).2 result rfl)

section Sound

variable {subject default : Option Expression} {branches : List (Expression × Option Expression)}
  (subjectSound : ∀ expression ∈ subject, Renders expression)
  (branchesSound : ∀ parts ∈ branches, Renders parts.1 ∧ ∀ result ∈ parts.2, Renders result)
  (environment : Environment)

include subjectSound branchesSound

theorem renderInTurn_error {condition : Expression} (missing : (condition, none) ∈ branches) :
    ∃ after, renderInTurn subject branches default environment =
      .error .caseWithoutThen after := by
  rcases exists_render_optional subjectSound environment with ⟨subjectText, between, rendered⟩
  rcases mapM_renderBranch_error branchesSound missing between with ⟨after, failed⟩
  exact ⟨after, (bind_ok rendered).trans (bind_error failed)⟩

theorem renderInTurn_ok (defaultSound : ∀ expression ∈ default, Renders expression)
    (complete : ∀ condition, (condition, none) ∉ branches) :
    ∃ text after, renderInTurn subject branches default environment = .ok text after := by
  rcases exists_render_optional subjectSound environment with ⟨subjectText, first, rendered⟩
  rcases exists_mapM_renderBranch branchesSound complete first with ⟨texts, second, inTurn⟩
  rcases exists_render_optional defaultSound second with ⟨defaultText, last, otherwise⟩
  exact ⟨_, last, (bind_ok rendered).trans ((bind_ok inTurn).trans (bind_ok otherwise))⟩

end Sound

section Given

variable {steps : List ChoiceStep} (sound : ∀ step ∈ steps, Renders step.expression)

include sound

theorem renders_defaultOf : ∀ expression ∈ defaultOf steps, Renders expression :=
  fun _ found => sound _ (mem_of_defaultOf found)

theorem renders_branchesOf : ∀ parts ∈ branchesOf steps,
    Renders parts.1 ∧ ∀ result ∈ parts.2, Renders result := by
  rintro ⟨condition, result⟩ member
  rcases mem_branchesOf_iff.mp member with ⟨before, after, rfl, behind⟩
  refine ⟨sound _ (List.mem_append_right _ List.mem_cons_self), fun value found => ?_⟩
  have later := mem_of_resultBehind (behind.trans found)
  exact sound _ (List.mem_append_right _ (List.mem_cons_of_mem _ later))

end Given

/-- Some condition has no result in front of the next one. -/
def LacksResult (steps : List ChoiceStep) : Prop :=
  ∃ before condition after, steps = before ++ .when condition :: after ∧
    ∀ value, .result value ∉ after.takeWhile (!·.isWhen)

theorem exists_mem_branchesOf_iff {steps : List ChoiceStep} :
    (∃ condition, (condition, none) ∈ branchesOf steps) ↔ LacksResult steps := by
  simp only [mem_branchesOf_iff, resultBehind_eq_none_iff, LacksResult]
  exact exists_comm

/-- A condition has the last result in front of the next condition, and nothing else that was
given is in the choice. Its text is that of the branches in the order of their conditions. If
what was given has no fault of its own, the only fault is a condition without a result. -/
theorem branches_as_given (subject : Option Expression) (steps : List ChoiceStep)
    (sound : ∀ expression ∈ subject.toList ++ steps.map ChoiceStep.expression,
      ∃ environment text, expression.layout.result environment = .ok text) :
    (start subject).takeAll steps =
      .choice (.ofOption subject) (.ofList ((branchesOf steps).map branch))
        (.ofOption (defaultOf steps)) ∧
    ((start subject).takeAll steps).layout.render =
      renderInTurn subject (branchesOf steps) (defaultOf steps) ∧
    ∀ environment,
      (((start subject).takeAll steps).layout.result environment = .error .caseWithoutThen ↔
        LacksResult steps) ∧
      (¬ LacksResult steps →
        ∃ text, ((start subject).takeAll steps).layout.result environment = .ok text) := by
  have whole := takeAll_start subject steps
  have inTurn := render_choice subject (branchesOf steps) (defaultOf steps)
  have given : ∀ expression ∈ subject.toList ++ steps.map ChoiceStep.expression,
      Renders expression := by
    intro expression member
    rcases sound expression member with ⟨environment, text, rendered⟩
    exact renders_of_result rendered
  have subjectSound : ∀ expression ∈ subject, Renders expression :=
    fun expression member => given _ (List.mem_append_left _ (Option.mem_toList.mpr member))
  have stepsSound : ∀ step ∈ steps, Renders step.expression :=
    fun step member => given _ (List.mem_append_right _ (List.mem_map_of_mem member))
  have branchesSound := renders_branchesOf stepsSound
  refine ⟨whole, whole ▸ inTurn, fun environment => ?_⟩
  have fails (lacking : LacksResult steps) :
      ((start subject).takeAll steps).layout.result environment = .error .caseWithoutThen := by
    rcases exists_mem_branchesOf_iff.mpr lacking with ⟨condition, missing⟩
    rcases renderInTurn_error subjectSound branchesSound environment missing with ⟨after, failed⟩
    rw [Layout.result, whole, inTurn, failed]
  have succeeds (complete : ¬ LacksResult steps) :
      ∃ text, ((start subject).takeAll steps).layout.result environment = .ok text := by
    rw [← exists_mem_branchesOf_iff, not_exists] at complete
    rcases renderInTurn_ok subjectSound branchesSound environment (renders_defaultOf stepsSound)
      complete with ⟨text, after, rendered⟩
    refine ⟨text, ?_⟩
    rw [Layout.result, whole, inTurn, rendered]
  refine ⟨⟨fun failed => ?_, fails⟩, succeeds⟩
  by_contra complete
  rcases succeeds complete with ⟨text, rendered⟩
  rw [rendered] at failed
  cases failed

/-- A parameter that was replaced everywhere is not registered. With one more condition at the
end, there is a condition without a result. -/
theorem branches_as_given_replaced :
    let replaced : Expression := .placeholder { identity := ⟨0⟩, value := some (.integer 1) }
    let subject : Option Expression := some (.literal (.integer 2))
    let steps : List ChoiceStep := [.result replaced, .when (.literal (.integer 1)),
      .result replaced, .otherwise replaced, .result (.literal (.string "one")),
      .otherwise (.literal (.string "many"))]
    let more : List ChoiceStep := steps ++ [.when replaced]
    ((∀ expression ∈ subject.toList ++ more.map ChoiceStep.expression,
        ∃ environment text, expression.layout.result environment = .ok text) ∧
      ((start subject).takeAll more).layout.result (.empty {}) = .error .caseWithoutThen) ∧
    (¬ LacksResult steps ∧
      ∃ text, ((start subject).takeAll steps).layout.result (.empty {}) = .ok text) ∧
    ((start subject).takeAll steps).layout.render (.empty {}) =
      .ok "CASE 2\n    WHEN 1 THEN \"one\"\n    ELSE \"many\"\nEND" (.empty {}) := by
  intro replaced subject steps more
  have literal (value : Value) : ∃ environment text,
      (Phrase.literal value).layout.result environment = .ok text := ⟨.empty {}, _, rfl⟩
  have placeholder : ∃ environment text, replaced.layout.result environment = .ok text :=
    ⟨.empty {}, _, rfl⟩
  have subjectSound : ∀ expression ∈ subject.toList,
      ∃ environment text, expression.layout.result environment = .ok text :=
    List.forall_mem_singleton.mpr (literal _)
  have stepsSound : ∀ expression ∈ steps.map ChoiceStep.expression,
      ∃ environment text, expression.layout.result environment = .ok text := by
    simp only [steps, List.map_cons, List.forall_mem_cons]
    exact ⟨placeholder, literal _, placeholder, placeholder, literal _, literal _, nofun⟩
  have moreSound : ∀ expression ∈ more.map ChoiceStep.expression,
      ∃ environment text, expression.layout.result environment = .ok text := by
    rw [List.map_append, List.forall_mem_append]
    exact ⟨stepsSound, List.forall_mem_singleton.mpr placeholder⟩
  have given := List.forall_mem_append.mpr ⟨subjectSound, moreSound⟩
  have lacking : LacksResult more := ⟨steps, replaced, [], rfl, nofun⟩
  have complete : ¬ LacksResult steps := by
    rw [← exists_mem_branchesOf_iff]
    rintro ⟨condition, missing⟩
    cases List.mem_singleton.mp missing
  rcases branches_as_given subject more given with ⟨-, -, fails⟩
  rcases branches_as_given subject steps (List.forall_mem_append.mpr ⟨subjectSound, stepsSound⟩)
    with ⟨-, rendered, succeeds⟩
  refine ⟨⟨given, (fails (.empty {})).1.mpr lacking⟩,
    ⟨complete, (succeeds (.empty {})).2 complete⟩, ?_⟩
  rw [rendered]
  rfl

end Choice

end Cypher
