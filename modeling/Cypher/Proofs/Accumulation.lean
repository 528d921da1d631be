import Cypher.Proofs.Compounds
import Cypher.Proofs.Turns

/-! What a filter means after many steps. Predicates are judged true, false or unknown, and a
filter is as true as the predicates given to it, joined from the left in the order of the steps.
Judgements belong to the places where predicates were given, so a predicate that was given
twice may be judged in two ways. -/

namespace Cypher

/-! ## Truth -/

/-- Whether a predicate holds, as far as that is known. -/
inductive Truth where
  | no
  | unknown
  | yes
deriving DecidableEq, Repr

namespace Truth

def and : Truth → Truth → Truth
  | no, _ => no
  | _, no => no
  | yes, yes => yes
  | _, _ => unknown

def or : Truth → Truth → Truth
  | yes, _ => yes
  | _, yes => yes
  | no, no => no
  | _, _ => unknown

def xor : Truth → Truth → Truth
  | unknown, _ => unknown
  | _, unknown => unknown
  | no, no => no
  | yes, yes => no
  | _, _ => yes

end Truth

def Connective.join : Connective → Truth → Truth → Truth
  | and => Truth.and
  | or => Truth.or
  | xor => Truth.xor

/-! ## Judged expressions -/

/-- A predicate and how it is judged. -/
abbrev Judgement := Expression × Truth

/-- Expressions that are put together by connectives from judged predicates, which are listed
from left to right, and the truths that follow for the expressions. -/
inductive Judged : List Expression → List Judgement → List Truth → Prop where
  | nil : Judged [] [] []
  | given (predicate : Expression) (truth : Truth) (rest : Judged expressions judgements truths) :
      Judged (predicate :: expressions) ((predicate, truth) :: judgements) (truth :: truths)
  | joined (operands : Judged (first :: second :: others.toList) parts (start :: more))
      (rest : Judged expressions judgements truths) :
      Judged (.connective operator first second others :: expressions) (parts ++ judgements)
        (more.foldl operator.join start :: truths)

namespace Judged

/-- The first judgement is about the first expression or about something inside of it. -/
theorem exists_first {expressions : List Expression} {judgements : List Judgement}
    {truths : List Truth} (judged : Judged expressions judgements truths) :
    ∀ head tail, expressions = head :: tail →
      ∃ first rest, judgements = first :: rest ∧ sizeOf first.1 ≤ sizeOf head := by
  induction judged with
  | nil =>
      intro head tail equal
      cases equal
  | given predicate truth rest induction =>
      rintro head tail ⟨⟩
      exact ⟨_, _, rfl, Nat.le_refl _⟩
  | joined operands rest operandsInduction restInduction =>
      rintro head tail ⟨⟩
      rcases operandsInduction _ _ rfl with ⟨first, others, rfl, smaller⟩
      refine ⟨first, _, rfl, smaller.trans ?_⟩
      simp only [Phrase.connective.sizeOf_spec]
      omega

/-- The judgements determine the truths, whatever other judgements follow. -/
theorem unique {expressions : List Expression} {first : List Judgement} {firstTruths : List Truth}
    (firstJudged : Judged expressions first firstTruths) :
    ∀ {second : List Judgement} {secondTruths : List Truth} {firstRest secondRest},
      Judged expressions second secondTruths → first ++ firstRest = second ++ secondRest →
      first = second ∧ firstTruths = secondTruths := by
  induction firstJudged with
  | nil =>
      intro second secondTruths firstRest secondRest secondJudged same
      cases secondJudged
      exact ⟨rfl, rfl⟩
  | given predicate truth rest induction =>
      intro second secondTruths firstRest secondRest secondJudged same
      cases secondJudged with
      | given _ otherTruth otherRest =>
          rcases List.cons.inj same with ⟨head, tail⟩
          rcases induction otherRest tail with ⟨rfl, rfl⟩
          cases head
          exact ⟨rfl, rfl⟩
      -- The whole predicate is judged here, but only its operands are judged there.
      | joined operands otherRest =>
          rcases operands.exists_first _ _ rfl with ⟨leaf, others, rfl, smaller⟩
          rcases List.cons.inj same with ⟨head, -⟩
          subst head
          simp only [Phrase.connective.sizeOf_spec] at smaller
          omega
  | joined operands rest operandsInduction restInduction =>
      intro second secondTruths firstRest secondRest secondJudged same
      cases secondJudged with
      | given _ otherTruth otherRest =>
          rcases operands.exists_first _ _ rfl with ⟨leaf, others, rfl, smaller⟩
          rcases List.cons.inj same with ⟨head, -⟩
          subst head
          simp only [Phrase.connective.sizeOf_spec] at smaller
          omega
      | joined otherOperands otherRest =>
          rw [List.append_assoc, List.append_assoc] at same
          rcases operandsInduction otherOperands same with ⟨rfl, sameTruths⟩
          rcases restInduction otherRest (List.append_cancel_left same) with ⟨rfl, rfl⟩
          cases sameTruths
          exact ⟨rfl, rfl⟩

theorem truths_eq {expressions : List Expression} {judgements : List Judgement}
    {truths others : List Truth} (first : Judged expressions judgements truths)
    (second : Judged expressions judgements others) : truths = others :=
  have noRest : judgements ++ [] = judgements ++ [] := rfl
  (first.unique second noRest).2

/-- Predicates that are judged one by one. -/
theorem of_zip {predicates : List Expression} {truths : List Truth}
    (complete : truths.length = predicates.length) :
    Judged predicates (predicates.zip truths) truths := by
  induction predicates generalizing truths with
  | nil =>
      cases List.eq_nil_of_length_eq_zero complete
      exact nil
  | cons head tail induction =>
      cases truths with
      | nil => cases complete
      | cons truth others => exact given head truth (induction (Nat.succ.inj complete))

theorem append {first second : List Expression} {firstJudgements secondJudgements}
    {firstTruths secondTruths : List Truth} (firstJudged : Judged first firstJudgements firstTruths)
    (secondJudged : Judged second secondJudgements secondTruths) :
    Judged (first ++ second) (firstJudgements ++ secondJudgements)
      (firstTruths ++ secondTruths) := by
  induction firstJudged with
  | nil => exact secondJudged
  | given predicate truth rest induction => exact given predicate truth induction
  | joined operands rest operandsInduction restInduction =>
      rw [List.append_assoc]
      exact joined operands restInduction

/-- The number of truths is the number of expressions. -/
theorem length_eq {expressions : List Expression} {judgements : List Judgement}
    {truths : List Truth} (judged : Judged expressions judgements truths) :
    truths.length = expressions.length := by
  induction judged with
  | nil => rfl
  | given predicate truth rest induction => exact congrArg Nat.succ induction
  | joined operands rest operandsInduction restInduction => exact congrArg Nat.succ restInduction

/-- What is judged on both sides of an operator is judged as a whole. A side without an
expression has no judgements. -/
theorem merge (operator : Connective) {left right : Option Expression}
    {leftJudgements rightJudgements} {leftTruth rightTruth : Option Truth}
    (leftJudged : Judged left.toList leftJudgements leftTruth.toList)
    (rightJudged : Judged right.toList rightJudgements rightTruth.toList) :
    Judged (left.merge (fun left right => .connective operator left right .nil) right).toList
      (leftJudgements ++ rightJudgements) (leftTruth.merge operator.join rightTruth).toList := by
  have together := leftJudged.append rightJudged
  have leftLength := leftJudged.length_eq
  have rightLength := rightJudged.length_eq
  match left, right, leftTruth, rightTruth with
  | none, none, none, none => exact together
  | some left, none, some truth, none => exact together
  | none, some right, none, some truth => exact together
  | some left, some right, some leftTruth, some rightTruth =>
      have operands : Judged (left :: right :: Phrase.toList .nil)
          (leftJudgements ++ rightJudgements) [leftTruth, rightTruth] := together
      have whole : Judged [.connective operator left right .nil]
          (leftJudgements ++ rightJudgements ++ []) [operator.join leftTruth rightTruth] :=
        joined operands .nil
      rwa [List.append_nil] at whole

end Judged

/-! ## Given predicates -/

/-- All predicates at once. One predicate needs no operator. -/
def Expression.allOf : List Expression → Option Expression
  | [] => none
  | [single] => some single
  | first :: second :: rest => some (.connective .and first second (.ofList rest))

/-- All of them hold. -/
def Truth.allOf : List Truth → Option Truth
  | [] => none
  | first :: rest => some (rest.foldl Truth.and first)

theorem Judged.allOf {predicates : List Expression} {truths : List Truth}
    (complete : truths.length = predicates.length) :
    Judged (Expression.allOf predicates).toList (predicates.zip truths)
      (Truth.allOf truths).toList := by
  have each := Judged.of_zip complete
  match predicates, truths, complete with
  | [], [], _ => exact each
  | [single], [truth], _ => exact each
  | first :: second :: rest, start :: next :: more, _ =>
      have operands : Judged (first :: second :: (Phrase.ofList rest).toList)
          ((first :: second :: rest).zip (start :: next :: more)) (start :: next :: more) := by
        rwa [Phrase.toList_ofList]
      have whole : Judged [.connective .and first second (.ofList rest)]
          ((first :: second :: rest).zip (start :: next :: more) ++ [])
          [(next :: more).foldl Truth.and start] := Judged.joined operands .nil
      rwa [List.append_nil] at whole

namespace FilterStep

/-- The predicates that a step gives, each property as an equation of its own. -/
def given : FilterStep → List Expression
  | add _ predicate => predicate.toList
  | addProperties target properties => properties.toPairs.map (Filter.propertyEquals target)

/-- Join all predicates of a step with an earlier predicate on their left. -/
def joinTo (earlier : Option Expression) (step : FilterStep) : Option Expression :=
  earlier.merge (fun left right => .connective step.operator left right .nil)
    (Expression.allOf step.given)

theorem predicate?_eq (step : FilterStep) : step.predicate? = Expression.allOf step.given := by
  cases step with
  | add operator predicate => cases predicate <;> rfl
  | addProperties target properties =>
      have present : (properties.toPairs.map fun entry =>
          some (Filter.propertyEquals target entry)).filterMap id =
            properties.toPairs.map (Filter.propertyEquals target) := by
        simp [List.filterMap_map]
      rw [predicate?, Expression.combine, present]
      rfl

theorem joinTo_eq_none_iff (earlier : Option Expression) (step : FilterStep) :
    joinTo earlier step = none ↔ earlier = none ∧ step.given = [] := by
  rw [joinTo]
  cases earlier <;> rcases step.given with _ | ⟨first, _ | ⟨second, rest⟩⟩ <;>
    simp [Expression.allOf]

end FilterStep

/-- A step whose predicates are judged. -/
structure JudgedStep where
  step : FilterStep
  truths : List Truth
  complete : truths.length = step.given.length

namespace JudgedStep

def judgements (judged : JudgedStep) : List Judgement :=
  judged.step.given.zip judged.truths

/-- Join the truth of all predicates of a step with an earlier truth on its left. -/
def joinTo (earlier : Option Truth) (judged : JudgedStep) : Option Truth :=
  earlier.merge judged.step.operator.join (Truth.allOf judged.truths)

end JudgedStep

/-! ## Accumulated filters -/

namespace Filter

theorem toOption_take (filter : Filter) (step : FilterStep) :
    (filter.take step).toOption = FilterStep.joinTo filter.toOption step := by
  rw [take_eq, Phrase.toOption_ofOption, step.predicate?_eq, FilterStep.joinTo]
  cases filter.toOption <;> cases Expression.allOf step.given <;> rfl

theorem toOption_takeAll (filter : Filter) (steps : List FilterStep) :
    (filter.takeAll steps).toOption = steps.foldl FilterStep.joinTo filter.toOption := by
  induction steps generalizing filter with
  | nil => rfl
  | cons step rest induction =>
      rw [takeAll, List.foldl_cons, List.foldl_cons, ← toOption_take]
      exact induction _

/-- A filter is empty as long as no predicate is given. -/
theorem toOption_takeAll_eq_none_iff (filter : Filter) (steps : List FilterStep) :
    (filter.takeAll steps).toOption = none ↔
      filter.toOption = none ∧ steps.flatMap FilterStep.given = [] := by
  induction steps generalizing filter with
  | nil => simp [takeAll]
  | cons step rest induction =>
      rw [takeAll, List.foldl_cons, ← takeAll, induction, toOption_take,
        FilterStep.joinTo_eq_none_iff, List.flatMap_cons, List.append_eq_nil_iff, and_assoc]

theorem judged_takeAll (judged : List JudgedStep) (filter : Filter) (truth : Option Truth)
    {judgements : List Judgement} (start : Judged filter.toOption.toList judgements truth.toList) :
    Judged (filter.takeAll (judged.map JudgedStep.step)).toOption.toList
      (judgements ++ judged.flatMap JudgedStep.judgements)
      (judged.foldl JudgedStep.joinTo truth).toList := by
  induction judged generalizing filter judgements truth with
  | nil => rwa [List.flatMap_nil, List.append_nil]
  | cons head tail induction =>
      have next : Judged (filter.take head.step).toOption.toList (judgements ++ head.judgements)
          (JudgedStep.joinTo truth head).toList := by
        rw [toOption_take]
        exact start.merge head.step.operator (.allOf head.complete)
      rw [List.flatMap_cons, ← List.append_assoc]
      exact induction _ _ next

/-- The line of a filter in its clause, or no text. -/
def line (filter : Filter) : Layout :=
  (Layout.condition filter.layout).getD .empty

theorem result_line_eq_empty_iff (filter : Filter) (environment : Environment) :
    filter.line.result environment = .ok "" ↔ filter.toOption = none := by
  cases filter with
  | absent => exact iff_of_true rfl rfl
  | present predicate =>
      refine iff_of_false (fun empty => ?_) nofun
      have keyword : (line (.present predicate)).render environment =
          (("WHERE " ++ ·) <$> predicate.layout.render) environment :=
        congrFun (Layout.render_after "WHERE " predicate.layout) environment
      rw [Layout.result, keyword] at empty
      cases rendered : predicate.layout.render environment with
      | error error after =>
          rw [Layout.map_error _ rendered] at empty
          cases empty
      | ok text after =>
          rw [Layout.map_ok _ rendered] at empty
          have characters := congrArg String.toList (Except.ok.inj empty)
          rw [String.toList_append] at characters
          cases characters

end Filter

/-- A filter is the predicates of its steps, joined from the left in the order of the steps.
However they are judged, the filter has the truth that follows from the left. It has a line
exactly if some predicate was given. -/
theorem Filter.accumulated_from_left :
    (∀ steps : List FilterStep,
      (takeAll .absent steps).toOption = steps.foldl FilterStep.joinTo none) ∧
    (∀ (judged : List JudgedStep) (truth : Option Truth),
      Judged (takeAll .absent (judged.map JudgedStep.step)).toOption.toList
          (judged.flatMap JudgedStep.judgements) truth.toList ↔
        truth = judged.foldl JudgedStep.joinTo none) ∧
    (∀ (steps : List FilterStep) (environment : Environment),
      (takeAll .absent steps).line.result environment = .ok "" ↔
        steps.flatMap FilterStep.given = []) ∧
    ∀ (clause : Clause) (steps : List FilterStep), clause.filter? = some .absent →
      ∃ after, clause.steps? (steps.map FilterStep.onClause) = some after ∧
        clause.changeFilter? (·.takeAll steps) = some after ∧
        after.filter? = some (takeAll .absent steps) := by
  refine ⟨toOption_takeAll .absent, fun judged truth => ⟨fun other => ?_, ?_⟩,
    fun steps environment => ?_, fun clause steps empty => ?_⟩
  · have fromLeft := judged_takeAll judged .absent none .nil
    simpa using congrArg List.head? (other.truths_eq fromLeft)
  · rintro rfl
    exact judged_takeAll judged .absent none .nil
  · rw [result_line_eq_empty_iff, toOption_takeAll_eq_none_iff]
    exact and_iff_right rfl
  · exact Clause.filterSlot.steps? Clause.step?_onClause empty steps

/-- Two alternatives and then two properties at once. The alternatives are joined first: the
filter does not hold, although the first alternative does. -/
theorem Filter.accumulated_from_left_matching :
    let target : Variable := { identity := ⟨0⟩ }
    let old := propertyEquals target ("year", .literal (.integer 1999))
    let new := propertyEquals target ("year", .literal (.integer 2003))
    let title := propertyEquals target ("title", .literal (.string "A"))
    let country := propertyEquals target ("country", .literal (.string "B"))
    let clause := Clause.matchPath (Path.ofNode (Node.ofVariable (some target)))
    let judged : List JudgedStep := [⟨.add .and none, [], rfl⟩, ⟨.add .and (some old), [.yes], rfl⟩,
      ⟨.add .or (some new), [.no], rfl⟩,
      ⟨.addProperties target (Entries.ofPairs [("title", .literal (.string "A")),
        ("country", .literal (.string "B"))]), [.no, .unknown], rfl⟩]
    let whole : Expression := .connective .and (.connective .or old new .nil)
      (.connective .and title country .nil) .nil
    Judged [whole] [(old, .yes), (new, .no), (title, .no), (country, .unknown)] [.no] ∧
      clause.filter? = some .absent ∧
      ∃ after, clause.steps? ((judged.map JudgedStep.step).map FilterStep.onClause) = some after ∧
        after.filter? = some (.present whole) ∧
        (Filter.line (.present whole)).result (.empty {}) ≠ .ok "" := by
  intro target old new title country clause judged whole
  rcases accumulated_from_left with ⟨-, truths, lines, clauses⟩
  have judgedWhole := (truths judged (some .no)).mpr rfl
  rcases clauses clause (judged.map JudgedStep.step) rfl with ⟨after, taken, -, filter⟩
  refine ⟨judgedWhole, rfl, after, taken, filter, fun empty => ?_⟩
  cases (lines (judged.map JudgedStep.step) (.empty {})).mp empty

end Cypher
