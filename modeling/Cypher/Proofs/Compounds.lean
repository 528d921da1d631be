import Cypher.Proofs.Parts
import Cypher.Proofs.Slots
import Cypher.Proofs.Spelling

/-! What expressions are put together from: operations, tests of names and calls. They are
shown as a constructor is given them, with any number of operands or names. The type of phrases has
no place for the unsound ones, so it is the constructors that tell the two kinds apart. -/

namespace Cypher

/-! ## Compounds as they are given -/

/-- A call has no list of arguments if it is a call of all rows. -/
inductive Compound where
  | operation (operation : Operation) (operands : List Expression)
  | nameTest (test : NameTest) (target : Variable) (names : List String)
  | call (name : String) (distinct : Bool) (arguments : Option (List Expression))

namespace Compound

def operands : Compound → List Expression
  | operation _ operands => operands
  | nameTest _ _ _ => []
  | call _ _ arguments => arguments.getD []

/-- Two operands or more, one name or more, and no call of all rows that is distinct. -/
def Sound : Compound → Prop
  | operation _ operands => 2 ≤ operands.length
  | nameTest _ _ names => 1 ≤ names.length
  | call _ distinct arguments => arguments = none → distinct = false

end Compound

/-- What a part is put together from, with all operands in one list. -/
def Part.compound? : Part → Option Compound
  | .of (.connective operator first second rest) =>
      some (.operation (.connective operator) (first :: second :: rest.toList))
  | .of (.arithmetic operator first second rest) =>
      some (.operation (.arithmetic operator) (first :: second :: rest.toList))
  | .of (.nameTest test target first rest) => some (.nameTest test target (first :: rest))
  | .of (.function name distinct arguments) => some (.call name distinct (some arguments.toList))
  | .of (.starFunction name) => some (.call name false none)
  | _ => none

theorem Part.sound_of_compound? {part : Part} {compound : Compound}
    (shown : part.compound? = some compound) : compound.Sound := by
  unfold compound? at shown
  split at shown <;> cases shown
  · exact Nat.le_add_left 2 _
  · exact Nat.le_add_left 2 _
  · exact Nat.le_add_left 1 _
  · exact nofun
  · exact fun _ => rfl

namespace Phrase

/-- What a phrase itself is put together from. -/
def compound? (phrase : Phrase category) : Option Compound :=
  Part.compound? (.of phrase)

/-- All compounds in a phrase, from the outside to the inside. -/
def compounds (phrase : Phrase category) : List Compound :=
  phrase.parts.filterMap Part.compound?

theorem sound_of_mem_compounds {phrase : Phrase category} {compound : Compound}
    (member : compound ∈ phrase.compounds) : compound.Sound := by
  rcases List.mem_filterMap.mp member with ⟨part, -, shown⟩
  exact part.sound_of_compound? shown

theorem compounds_ofList (phrases : List (Phrase category)) :
    (ofList phrases).compounds = phrases.flatMap compounds := by
  induction phrases with
  | nil => rfl
  | cons head tail induction =>
      rw [List.flatMap_cons, ← induction]
      exact List.filterMap_append

theorem compounds_toList (phrases : Phrase (.many category)) :
    phrases.toList.flatMap compounds = phrases.compounds := by
  rw [← compounds_ofList, ofList_toList]

theorem compounds_operands (first second : Expression) (rest : Phrase (.many .expression)) :
    (first :: second :: rest.toList).flatMap compounds =
      (first.parts ++ second.parts ++ rest.parts).filterMap Part.compound? := by
  rw [List.filterMap_append, List.filterMap_append, List.append_assoc, List.flatMap_cons,
    List.flatMap_cons, compounds_toList]
  rfl

theorem compounds_ofOption (content : Option (Phrase category)) :
    (ofOption content).compounds = content.elim [] compounds := by
  cases content <;> rfl

end Phrase

/-- The part itself and all phrases inside it. -/
def Part.inside : Part → List Part
  | .of phrase => phrase.parts

theorem Part.filterMap_inside {part : Part} {compound : Compound}
    (shown : part.compound? = some compound) :
    part.inside.filterMap compound? =
      compound :: compound.operands.flatMap Phrase.compounds := by
  unfold compound? at shown
  split at shown <;> cases shown
  · rw [Compound.operands, Phrase.compounds_operands]
    rfl
  · rw [Compound.operands, Phrase.compounds_operands]
    rfl
  · rfl
  · rw [Compound.operands, Option.getD_some, Phrase.compounds_toList]
    rfl
  · rfl

/-- A phrase that is a compound has no other compounds than those of its operands. -/
theorem Phrase.compounds_eq_cons {phrase : Phrase category} {compound : Compound}
    (shown : phrase.compound? = some compound) :
    phrase.compounds = compound :: compound.operands.flatMap compounds :=
  @Part.filterMap_inside (.of phrase) compound shown

/-! ## Constructors that refuse -/

/-- A constructor makes a compound if it is sound, and refuses it otherwise. -/
structure Makes (result : Except ConstructionError (Phrase category)) (compound : Compound)
    (refusal : ConstructionError) : Prop where
  made : compound.Sound → ∃ whole, result = .ok whole ∧ whole.compound? = some compound
  refused : ¬ compound.Sound → result = .error refusal

namespace Operation

/-- The operation over any operands. -/
def attempt : Operation → List Expression → Except ConstructionError Expression
  | arithmetic operator => Expression.calculate operator
  | connective operator => Expression.connect operator

theorem compound?_onto (operation : Operation) (first second : Expression)
    (rest : List Expression) :
    (operation.onto first second (.ofList rest)).compound? =
      some (.operation operation (first :: second :: rest)) := by
  cases operation <;>
    exact congrArg (fun others => some (Compound.operation _ (first :: second :: others)))
      (Phrase.toList_ofList rest)

theorem makes_attempt (operation : Operation) (operands : List Expression) :
    Makes (operation.attempt operands) (.operation operation operands)
      (.notEnoughOperands operation.sign operands.length) := by
  match operands with
  | [] => exact ⟨nofun, fun _ => by cases operation <;> rfl⟩
  | [single] =>
      refine ⟨fun enough => absurd enough (Nat.not_succ_le_self 1), fun _ => ?_⟩
      cases operation <;> rfl
  | first :: second :: rest =>
      have made : operation.attempt (first :: second :: rest) =
          .ok (operation.onto first second (.ofList rest)) := by
        cases operation <;> rfl
      refine ⟨fun _ => ⟨_, made, operation.compound?_onto first second rest⟩, fun few => ?_⟩
      exact absurd (Nat.le_add_left 2 rest.length) few

end Operation

theorem Expression.makes_hasNames (test : NameTest) (target : Variable) (names : List String) :
    Makes (hasNames test target names) (.nameTest test target names) (.noNames test) := by
  cases names with
  | nil => exact ⟨nofun, fun _ => rfl⟩
  | cons first rest =>
      refine ⟨fun _ => ⟨_, rfl, rfl⟩, fun none => ?_⟩
      exact absurd (Nat.le_add_left 1 rest.length) none

namespace FunctionCall

/-- A call of all rows has no list of arguments. -/
def arguments? : FunctionCall → Option (List Expression)
  | .function _ _ arguments => some arguments.toList
  | .starFunction _ => none

theorem compound?_ofArguments (name : String) (arguments : List Expression) :
    (ofArguments name arguments).compound? = some (.call name false (some arguments)) :=
  congrArg (fun listed => some (Compound.call name false (some listed)))
    (Phrase.toList_ofList arguments)

theorem makes_distinct (callee : FunctionCall) :
    Makes callee.distinct (.call callee.name true callee.arguments?)
      (.distinctStarArgument callee.name) := by
  cases callee with
  | function name flagged arguments =>
      exact ⟨fun _ => ⟨_, rfl, rfl⟩, fun star => absurd nofun star⟩
  | starFunction name =>
      refine ⟨fun plain => ?_, fun _ => rfl⟩
      cases plain rfl

end FunctionCall

/-! ## Operations over the operands that are there -/

/-- No operands give nothing, one operand is left as it is, and more of them are joined. -/
structure Collapses (operator : Connective) (operands : List Expression)
    (result : Option Expression) : Prop where
  nothing : result = none ↔ operands = []
  unchanged : ∀ single, operands = [single] → result = some single
  joined : 2 ≤ operands.length → ∃ whole, result = some whole ∧
    whole.compound? = some (.operation (.connective operator) operands)

theorem Expression.collapses_combine (operator : Connective)
    (operands : List (Option Expression)) :
    Collapses operator (operands.filterMap id) (combine operator operands) := by
  rw [combine]
  generalize operands.filterMap id = present
  match present with
  | [] => exact ⟨iff_of_true rfl rfl, nofun, nofun⟩
  | [single] =>
      refine ⟨iff_of_false nofun nofun, ?_, fun enough => absurd enough (Nat.not_succ_le_self 1)⟩
      rintro _ ⟨⟩
      rfl
  | first :: second :: rest =>
      refine ⟨iff_of_false nofun nofun, nofun, fun _ => ⟨_, rfl, ?_⟩⟩
      exact (Operation.connective operator).compound?_onto first second rest

/-! ## Filters -/

/-- What is added to a filter in one step. -/
inductive FilterStep where
  | add (operator : Connective) (predicate : Option Expression)
  | addProperties (target : Variable) (properties : Entries)

namespace FilterStep

def operator : FilterStep → Connective
  | add operator _ => operator
  | addProperties _ _ => .and

/-- The predicate that a step adds, if there is one. -/
def predicate? : FilterStep → Option Expression
  | add _ predicate => predicate
  | addProperties target properties =>
      Expression.combine .and
        (properties.toPairs.map fun entry => some (Filter.propertyEquals target entry))

/-- The step that adds the same to the filter of a clause. -/
def onClause : FilterStep → ClauseStep
  | add operator predicate => .filter operator predicate
  | addProperties target properties => .filterProperties target properties

end FilterStep

namespace Filter

def take (filter : Filter) : FilterStep → Filter
  | .add operator predicate => filter.add operator predicate
  | .addProperties target properties => filter.addProperties target properties

/-- The filter after all steps, one after the other. -/
def takeAll (filter : Filter) (steps : List FilterStep) : Filter :=
  steps.foldl take filter

theorem take_eq (filter : Filter) (step : FilterStep) :
    filter.take step = .ofOption
      (Expression.combine step.operator [filter.toOption, step.predicate?]) := by
  cases step <;> rfl

/-- The operation that joins the predicate of a step with the filter before it. -/
def Joins (before : Filter) (step : FilterStep) (compound : Compound) : Prop :=
  ∃ earlier predicate, before.toOption = some earlier ∧ step.predicate? = some predicate ∧
    compound = .operation (.connective step.operator) [earlier, predicate]

/-- A compound after a step is one of the filter, one of the predicate, or the operation that
joins the two. -/
theorem mem_compounds_take {filter : Filter} {step : FilterStep} {compound : Compound}
    (member : compound ∈ (filter.take step).compounds) :
    compound ∈ filter.compounds ∨
      (∃ predicate, step.predicate? = some predicate ∧ compound ∈ predicate.compounds) ∨
      filter.Joins step compound := by
  rw [take_eq, Phrase.compounds_ofOption] at member
  cases filter with
  | absent =>
      cases added : step.predicate? with
      | none =>
          rw [added] at member
          cases member
      | some predicate =>
          rw [added] at member
          exact .inr (.inl ⟨predicate, rfl, member⟩)
  | present before =>
      cases added : step.predicate? with
      | none =>
          rw [added] at member
          exact .inl member
      | some predicate =>
          have joined : (Expression.combine step.operator [some before, some predicate]).elim []
              Phrase.compounds = .operation (.connective step.operator) [before, predicate] ::
                [before, predicate].flatMap Phrase.compounds :=
            Phrase.compounds_eq_cons ((Operation.connective step.operator).compound?_onto
              before predicate [])
          rw [added, Phrase.toOption, joined, List.mem_cons, List.mem_flatMap] at member
          rcases member with whole | ⟨operand, isOperand, inside⟩
          · exact .inr (.inr ⟨before, predicate, rfl, added, whole⟩)
          · rcases List.mem_pair.mp isOperand with rfl | rfl
            · exact .inl inside
            · exact .inr (.inl ⟨_, rfl, inside⟩)

/-- A compound of a filter was there before all steps, it was given with a predicate, or it
joins a predicate with the filter before it. -/
theorem exists_origin {filter : Filter} {steps : List FilterStep} {compound : Compound}
    (member : compound ∈ (filter.takeAll steps).compounds) :
    compound ∈ filter.compounds ∨
      (∃ step ∈ steps, ∃ predicate, step.predicate? = some predicate ∧
        compound ∈ predicate.compounds) ∨
      ∃ earlier step later, steps = earlier ++ step :: later ∧
        (filter.takeAll earlier).Joins step compound := by
  -- The last step sees the filter of all earlier ones, so steps are taken off at the end.
  induction steps using List.reverseRecOn with
  | nil => exact .inl member
  | append_singleton earlier last induction =>
      rw [takeAll, List.foldl_append] at member
      rcases mem_compounds_take member with inside | ⟨predicate, added, inside⟩ | joins
      · rcases induction inside with before | ⟨step, taken, given⟩ |
          ⟨front, step, later, rfl, joins⟩
        · exact .inl before
        · exact .inr (.inl ⟨step, List.mem_append_left _ taken, given⟩)
        · refine .inr (.inr ⟨front, step, later ++ [last], ?_, joins⟩)
          rw [List.append_assoc, List.cons_append]
      · exact .inr (.inl ⟨last, List.mem_append_right _ (List.mem_singleton_self last), predicate,
          added, inside⟩)
      · exact .inr (.inr ⟨earlier, last, [], rfl, joins⟩)

end Filter

namespace Clause

theorem step?_onClause (clause : Clause) (step : FilterStep) :
    clause.step? step.onClause = clause.changeFilter? (Filter.take · step) := by
  cases step <;> rfl

/-- One step or more on a clause do to its filter what they do to a filter. -/
theorem steps?_onClause (clause : Clause) (step : FilterStep) (steps : List FilterStep) :
    clause.steps? ((step :: steps).map FilterStep.onClause) =
      clause.changeFilter? (Filter.takeAll · (step :: steps)) := by
  induction steps generalizing clause step with
  | nil =>
      rw [List.map_singleton, steps?, step?_onClause]
      exact Option.bind_fun_some _
  | cons next rest induction =>
      rw [List.map_cons, steps?, step?_onClause]
      simp only [induction]
      exact filterSlot.change?_change? clause _ _

end Clause

/-! ## All compounds -/

/-- Every compound in every phrase is sound, in a filter after any steps too. That is so by the type
of phrases, where an operation has two operands besides its list and a test has a name besides its
list, so nothing else can be made. What is to be shown of the constructors is that this costs no
sound compound: from plain lists of operands and names they make exactly the compounds that they are
given, refuse the unsound ones, and say how many operands there were. -/
theorem Compound.constructed_soundly :
    (∀ {category : Category} (phrase : Phrase category),
      (∀ compound ∈ phrase.compounds, compound.Sound) ∧
      ∀ compound, phrase.compound? = some compound →
        phrase.compounds = compound :: compound.operands.flatMap Phrase.compounds) ∧
    (∀ (filter : Filter) steps, ∀ compound ∈ (filter.takeAll steps).compounds, compound.Sound ∧
      (compound ∈ filter.compounds ∨
        (∃ step ∈ steps, ∃ predicate, step.predicate? = some predicate ∧
          compound ∈ predicate.compounds) ∨
        ∃ earlier step later, steps = earlier ++ step :: later ∧
          (filter.takeAll earlier).Joins step compound)) ∧
    (∀ (clause : Clause) step steps,
      clause.steps? ((step :: steps).map FilterStep.onClause) =
        clause.changeFilter? (Filter.takeAll · (step :: steps))) ∧
    (∀ operator operands, Makes (Expression.connect operator operands)
      (.operation (.connective operator) operands)
      (.notEnoughOperands operator.keyword operands.length)) ∧
    (∀ operator operands, Makes (Expression.calculate operator operands)
      (.operation (.arithmetic operator) operands)
      (.notEnoughOperands operator.symbol operands.length)) ∧
    (∀ operator left right, (Expression.binary operator left right).compound? =
      some (.operation (.arithmetic operator) [left, right])) ∧
    (∀ test target names, Makes (Expression.hasNames test target names)
      (.nameTest test target names) (.noNames test)) ∧
    (∀ name arguments, (FunctionCall.ofArguments name arguments).compound? =
      some (.call name false (some arguments))) ∧
    (∀ name, (Phrase.starFunction name).compound? = some (.call name false none)) ∧
    (∀ callee : FunctionCall, Makes callee.distinct
      (.call callee.name true callee.arguments?) (.distinctStarArgument callee.name)) ∧
    ∀ operator operands, Collapses operator (operands.filterMap id)
      (Expression.combine operator operands) := by
  refine ⟨fun phrase => ⟨?_, ?_⟩, fun filter steps compound member => ?_,
    Clause.steps?_onClause, fun operator => (Operation.connective operator).makes_attempt,
    fun operator => (Operation.arithmetic operator).makes_attempt, fun operator left right => ?_,
    Expression.makes_hasNames, FunctionCall.compound?_ofArguments, fun name => rfl,
    FunctionCall.makes_distinct, Expression.collapses_combine⟩
  · exact fun compound => Phrase.sound_of_mem_compounds
  · exact fun compound => Phrase.compounds_eq_cons
  · exact ⟨Phrase.sound_of_mem_compounds member, Filter.exists_origin member⟩
  · exact (Operation.arithmetic operator).compound?_onto left right []

/-- Two predicates are joined in a filter. One predicate is not enough for an operation, and
a call of all rows does not become distinct. -/
theorem Compound.constructed_soundly_filtering :
    let target : Variable := { identity := ⟨0⟩ }
    let title := Filter.propertyEquals target ("title", .literal (.string "A"))
    let year := Filter.propertyEquals target ("year", .literal (.integer 1999))
    let steps : List FilterStep := [.add .and none, .add .and (some title), .add .or (some year)]
    (Filter.takeAll .absent steps).compounds = [.operation (.connective .or) [title, year]] ∧
      Compound.Sound (.operation (.connective .or) [title, year]) ∧
      Expression.connect .xor [title] = .error (.notEnoughOperands "XOR" 1) ∧
      FunctionCall.countAll.distinct = .error (.distinctStarArgument "count") := by
  intro target title year steps
  rcases Compound.constructed_soundly with ⟨-, filters, -, connects, -, -, -, -, -, distinct, -⟩
  have joined : (Filter.takeAll .absent steps).compounds =
      [.operation (.connective .or) [title, year]] := rfl
  refine ⟨joined, ?_, ?_, ?_⟩
  · exact (filters .absent steps _ (by rw [joined]; exact List.mem_singleton_self _)).1
  · exact (connects .xor [title]).refused (Nat.not_succ_le_self 1)
  · exact (distinct FunctionCall.countAll).refused fun plain => nomatch plain rfl

end Cypher
