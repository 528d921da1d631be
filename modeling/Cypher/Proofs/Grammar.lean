import Cypher.Proofs.Edges
import Cypher.Proofs.Identification
import Cypher.Proofs.Replacement

/-! Operands and predicates. Operands are the expressions that operators, functions, lists
and maps are applied to; predicates are made of operands by comparisons and connectives.
If all names are given, they are rendered without an error and without a change. -/

namespace Cypher

/-- Of a variable or a parameter, only who it is. All the rest of a tree stays. -/
def Replacement.bare : Replacement where
  ofVariable binder := { identity := binder.identity }
  ofParameter parameter := .inl { identity := parameter.identity }

theorem Phrase.toList_replace (change : Replacement) (phrases : Phrase (.many category)) :
    (phrases.replace change).toList = phrases.toList.map (replace change) := by
  suffices holds : ∀ items : List (Phrase category),
      ((ofList items).replace change).toList = items.map (replace change) by
    rw [← holds, ofList_toList]
  intro items
  induction items with
  | nil => rfl
  | cons head tail induction => rw [List.map_cons, ← induction]; rfl

/-- Lists are the same if their elements are. -/
theorem Phrase.replace_eq_of_map_eq {change : Replacement} {first second : Phrase (.many category)}
    (same : first.toList.map (replace change) = second.toList.map (replace change)) :
    first.replace change = second.replace change := by
  rw [← ofList_toList (first.replace change), ← ofList_toList (second.replace change),
    toList_replace, toList_replace, same]

namespace Value

def isScalar : Value → Bool
  | null => true
  | boolean _ => true
  | integer _ => true
  | string _ => true
  | _ => false

end Value

/-! ## The grammar -/

namespace Expression

variable (environment : Environment)

/-- Operands whose variables and parameters have no name of their own and were given one
in the environment. -/
inductive IsOperand : Expression → Prop where
  | mention {binder : Variable} {name : String} (anonymous : binder.name = none)
      (given : environment.names.lookup (.ofVariable binder.identity) = some name) :
      IsOperand (.mention binder)
  | placeholder {parameter : Parameter} {name : String} (anonymous : parameter.name = none)
      (notNull : parameter.isNull = false)
      (given : environment.names.lookup (.ofParameter parameter.identity) = some name) :
      IsOperand (.placeholder parameter)
  | literal {value : Value} (scalar : value.isScalar) : IsOperand (.literal value)
  | list {items : Phrase (.many .expression)} (operands : ∀ item ∈ items.toList, IsOperand item) :
      IsOperand (.list items)
  | map {entries : Entries}
      (operands : ∀ key value, .entry key value ∈ entries.toList → IsOperand value) :
      IsOperand (.map entries)
  | property {base : Expression} (operand : IsOperand base) (key : String) :
      IsOperand (.property base key)
  | subscript {base index : Expression} (operand : IsOperand base) (position : IsOperand index) :
      IsOperand (.subscript base index)
  | arithmetic (operator : Arithmetic) {first second : Expression}
      {rest : Phrase (.many .expression)}
      (operands : ∀ item ∈ first :: second :: rest.toList, IsOperand item) :
      IsOperand (.arithmetic operator first second rest)
  | function {name : String} (plain : Identifier.isPlain name) (distinct : Bool)
      {arguments : Phrase (.many .expression)}
      (operands : ∀ argument ∈ arguments.toList, IsOperand argument) :
      IsOperand (.call (.function name distinct arguments))
  | starFunction {name : String} (plain : Identifier.isPlain name) :
      IsOperand (.call (.starFunction name))

/-- Predicates of such operands. Every comparator has as many operands as it takes. -/
inductive IsPredicate : Expression → Prop where
  | operand {expression : Expression} (operand : IsOperand environment expression) :
      IsPredicate expression
  | binary {comparator : Comparator} (arity : comparator.isUnary = false)
      {left right : Expression} (leftOperand : IsOperand environment left)
      (rightOperand : IsOperand environment right) :
      IsPredicate (.comparison comparator left (.present right))
  | unary {comparator : Comparator} (arity : comparator.isUnary = true) {operand : Expression}
      (isOperand : IsOperand environment operand) :
      IsPredicate (.comparison comparator operand .absent)
  | negation {operand : Expression} (predicate : IsPredicate operand) :
      IsPredicate (.negation operand)
  | connective (operator : Connective) {first second : Expression}
      {rest : Phrase (.many .expression)}
      (predicates : ∀ item ∈ first :: second :: rest.toList, IsPredicate item) :
      IsPredicate (.connective operator first second rest)

end Expression

/-! ## Rendering in an environment that has all names -/

/-- Meeting the item is no error and changes nothing. -/
def Environment.Knows (environment : Environment) (item : Item) : Prop :=
  item.fault? = none ∧ environment.meet item = environment

theorem Environment.meetAll_of_knows {environment : Environment} {reading : Reading}
    (known : ∀ entry ∈ reading, environment.Knows entry.2) :
    reading.fault? = none ∧ environment.meetAll reading = environment := by
  induction reading with
  | nil => exact ⟨rfl, rfl⟩
  | cons entry rest induction =>
      rw [List.forall_mem_cons] at known
      rcases induction known.2 with ⟨faultless, unchanged⟩
      constructor
      · rw [Reading.fault?, List.findSome?_cons, known.1.1]
        exact faultless
      · rw [meetAll_cons, known.1.2, unchanged]

theorem Layout.render_of_knows {environment : Environment} {layout : Layout}
    (known : ∀ entry ∈ layout.reading 0, environment.Knows entry.2) :
    layout.render environment = .ok (layout.written environment.dictionary) environment := by
  rcases Environment.meetAll_of_knows known with ⟨faultless, unchanged⟩
  have grows : (environment.meetAll (layout.reading 0)).Grows environment := by
    rw [unchanged]
    exact .refl environment
  rw [rendersSoundly _ faultless grows, unchanged]

theorem Phrase.reading_ofList (phrases : List (Phrase category)) (depth : Nat) :
    (ofList phrases).reading depth = phrases.flatMap (·.reading depth) := by
  induction phrases with
  | nil => simp [ofList, reading]
  | cons head tail induction => simp [ofList, reading, induction]

theorem Phrase.reading_eq_flatMap (phrases : Phrase (.many category)) (depth : Nat) :
    phrases.reading depth = phrases.toList.flatMap (·.reading depth) := by
  rw [← reading_ofList, ofList_toList]

namespace Expression

variable {environment : Environment}

theorem IsOperand.knows {expression : Expression} (operand : IsOperand environment expression)
    (depth : Nat) : ∀ entry ∈ expression.reading depth, environment.Knows entry.2 := by
  induction operand with
  | mention anonymous given =>
      rw [Phrase.reading, List.forall_mem_singleton]
      exact ⟨rfl, congrArg Prod.snd (Environment.resolveVariable_of_given anonymous given)⟩
  | placeholder anonymous notNull given =>
      rw [Phrase.reading, List.forall_mem_singleton]
      refine ⟨rfl, ?_⟩
      rw [Environment.meet, notNull]
      exact congrArg Prod.snd (Environment.resolveParameter_of_given anonymous given)
  | literal _ =>
      rw [Phrase.reading, List.forall_mem_singleton]
      exact ⟨rfl, rfl⟩
  | list _ induction =>
      simp only [Phrase.reading, Phrase.reading_eq_flatMap, List.forall_mem_flatMap]
      exact induction
  | @map entries _ induction =>
      simp only [Phrase.reading, Phrase.reading_eq_flatMap, List.forall_mem_flatMap]
      intro entry member
      cases entry with
      | entry key value =>
          rw [Phrase.reading, List.forall_mem_cons]
          exact ⟨⟨rfl, rfl⟩, induction key value member⟩
  | property _ key induction =>
      simp only [Phrase.reading, List.forall_mem_append, List.forall_mem_singleton]
      exact ⟨induction, rfl, rfl⟩
  | subscript _ _ baseInduction indexInduction =>
      simp only [Phrase.reading, List.forall_mem_append]
      exact ⟨baseInduction, indexInduction⟩
  | arithmetic _ _ induction =>
      rw [List.forall_mem_cons, List.forall_mem_cons] at induction
      simp only [Phrase.reading, Phrase.reading_eq_flatMap, List.forall_mem_append,
        List.forall_mem_flatMap]
      exact ⟨⟨induction.1, induction.2.1⟩, induction.2.2⟩
  | function _ _ _ induction =>
      simp only [Phrase.reading, Phrase.reading_eq_flatMap, List.forall_mem_flatMap]
      exact induction
  | starFunction _ =>
      rw [Phrase.reading, Phrase.reading]
      exact List.forall_mem_nil _

theorem IsPredicate.knows {expression : Expression}
    (predicate : IsPredicate environment expression) (depth : Nat) :
    ∀ entry ∈ expression.reading depth, environment.Knows entry.2 := by
  induction predicate with
  | operand operand => exact operand.knows depth
  | binary _ left right =>
      simp only [Phrase.reading, List.forall_mem_append]
      exact ⟨left.knows depth, right.knows depth⟩
  | unary _ operand =>
      simp only [Phrase.reading, List.append_nil]
      exact operand.knows depth
  | negation _ induction =>
      rw [Phrase.reading]
      exact induction
  | connective _ _ induction =>
      rw [List.forall_mem_cons, List.forall_mem_cons] at induction
      simp only [Phrase.reading, Phrase.reading_eq_flatMap, List.forall_mem_append,
        List.forall_mem_flatMap]
      exact ⟨⟨induction.1, induction.2.1⟩, induction.2.2⟩

theorem IsPredicate.render {expression : Expression}
    (predicate : IsPredicate environment expression) :
    expression.whole.render environment =
      .ok (expression.whole.written environment.dictionary) environment := by
  have known := predicate.knows 0
  rw [← Phrase.reading_whole] at known
  exact Layout.render_of_knows known

end Expression

end Cypher
