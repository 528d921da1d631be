import Cypher.Proofs.Grammar
import Cypher.Proofs.Tokens

/-! How operands and predicates are spelled, character by character. -/

namespace Cypher

open Expression

namespace Environment

variable (environment : Environment)

/-- The text of a phrase. -/
def spell (phrase : Phrase category) : List Char :=
  (phrase.whole.written environment.dictionary).toList

/-- The text of a name. -/
def spellName (name : String) : List Char :=
  (environment.config.identifier name).toList

end Environment

/-! ## Parts of expressions -/

/-- What can stand between the operands in parentheses. -/
inductive Operation where
  | arithmetic (operator : Arithmetic)
  | connective (operator : Connective)

namespace Operation

def onto (first second : Expression) (rest : Phrase (.many .expression)) :
    Operation → Expression
  | arithmetic operator => .arithmetic operator first second rest
  | connective operator => .connective operator first second rest

def sign : Operation → String
  | arithmetic operator => operator.symbol
  | connective operator => operator.keyword

theorem isSign (operation : Operation) : IsSign operation.sign := by
  rcases operation with operator | operator <;> cases operator <;>
    exact ⟨⟨_, _, rfl, by decide⟩, by decide⟩

theorem sign_inj {first second : Operation} (same : first.sign = second.sign) :
    first = second := by
  rcases first with operator | operator <;> cases operator <;>
    rcases second with other | other <;> cases other <;>
    first | rfl | exact absurd same (by decide)

theorem replace_onto (change : Replacement) (operation : Operation) (first second : Expression)
    (rest : Phrase (.many .expression)) :
    (operation.onto first second rest).replace change =
      operation.onto (first.replace change) (second.replace change) (rest.replace change) := by
  cases operation <;> rfl

end Operation

/-- What can stand behind an operand so that the whole is an operand again. -/
inductive Access where
  | key (name : String)
  | index (position : Expression)

namespace Access

def onto (base : Expression) : Access → Expression
  | key name => .property base name
  | index position => .subscript base position

def spell (environment : Environment) : Access → List Char
  | key name => '.' :: environment.spellName name
  | index position => '[' :: (environment.spell position ++ [']'])

def bare : Access → Access
  | key name => key name
  | index position => index (position.replace .bare)

end Access

/-- What can stand behind the first operand of a predicate. -/
inductive Test where
  | none
  | comparison (comparator : Comparator) (right : Option Expression)

namespace Test

def onto (left : Expression) : Test → Expression
  | none => left
  | comparison comparator right => .comparison comparator left (.ofOption right)

def HasArity : Test → Prop
  | none => True
  | comparison comparator right => comparator.isUnary = right.isNone

def spellRight (environment : Environment) : Option Expression → List Char
  | .none => []
  | some right => ' ' :: environment.spell right

def spell (environment : Environment) : Test → List Char
  | none => []
  | comparison comparator right =>
      ' ' :: (comparator.keyword.toList ++ spellRight environment right)

def bare : Test → Test
  | none => none
  | comparison comparator right => comparison comparator (right.map (Phrase.replace .bare))

end Test

namespace Environment

variable (environment : Environment)

/-! ## The text of each expression -/

theorem spell_expression (expression : Expression) :
    environment.spell expression = (expression.layout.written environment.dictionary).toList :=
  rfl

theorem spell_phrases (phrases : Phrase (.many .expression)) :
    (phrases.layout.map (Layout.written environment.dictionary)).map String.toList =
      phrases.toList.map environment.spell := by
  rw [Phrase.layout_eq_map, List.map_map, List.map_map]
  rfl

theorem spell_mention (binder : Variable) :
    environment.spell (.mention binder) = (environment.resolveVariable binder).1.toList := by
  rw [spell_expression, Phrase.layout]
  rfl

theorem spell_placeholder {parameter : Parameter} (notNull : parameter.isNull = false) :
    environment.spell (.placeholder parameter) =
      '$' :: (environment.resolveParameter parameter).1.toList := by
  rw [spell_expression, Phrase.layout, Layout.written, notNull]
  exact String.toList_append

theorem spell_literal (value : Value) :
    environment.spell (.literal value) =
      (value.literal environment.config.extraReservedWords).toList := by
  rw [spell_expression, Phrase.layout]
  rfl

theorem spell_string (text : String) :
    environment.spell (.literal (.string text)) =
      '"' :: (Quoted.escapeCharacters text.toList ++ ['"']) := by
  simp [spell_literal, Value.literal, Quoted.quote, Quoted.escape]

theorem spell_property (base : Expression) (key : String) :
    environment.spell (.property base key) =
      environment.spell base ++ '.' :: environment.spellName key := by
  simp [spell_expression, Phrase.layout, Layout.written, Leaf.render, spellName, dictionary]

theorem spell_subscript (base index : Expression) :
    environment.spell (.subscript base index) =
      environment.spell base ++ '[' :: (environment.spell index ++ [']']) := by
  simp [spell_expression, Phrase.layout]

theorem spell_list (items : Phrase (.many .expression)) :
    environment.spell (.list items) =
      '[' :: ([',', ' '].intercalate (items.toList.map environment.spell) ++ [']']) := by
  simp only [spell_expression, Phrase.layout, Layout.written_append, Layout.written_text,
    Layout.written_joined, String.toList_append, String.toList_intercalate, spell_phrases]
  rfl

theorem spell_entry (key : String) (value : Expression) :
    environment.spell (.entry key value) =
      environment.spellName key ++ ':' :: ' ' :: environment.spell value := by
  simp [spell, Phrase.whole, Category.alone, Phrase.layout, Layout.written, Leaf.render,
    spellName, dictionary]

theorem spell_map_nil : environment.spell (.map .nil) = ['\x7b', '\x7d'] := by
  simp [spell_expression, Phrase.layout, Layout.map]

theorem spell_map_cons (entry : Phrase .entry) (entries : Entries) :
    environment.spell (.map (.cons entry entries)) =
      '\x7b' :: ' ' :: (environment.spell entry ++
        (entries.toList.flatMap ([',', ' '] ++ environment.spell ·) ++ [' ', '\x7d'])) := by
  rw [spell_expression, Phrase.layout, Phrase.layout, Layout.map, List.isEmpty_cons]
  simp only [Bool.false_eq_true, if_false, Layout.written_append, Layout.written_text,
    Layout.written_joined, String.toList_append, String.toList_intercalate, List.map_cons,
    intercalate_cons, Phrase.layout_eq_map, List.map_map, List.flatMap_map]
  simp [spell, Phrase.whole, Category.alone, Function.comp_def]

theorem spell_operation (operation : Operation) (first second : Expression)
    (rest : Phrase (.many .expression)) :
    environment.spell (operation.onto first second rest) =
      '(' :: (environment.spell first ++ ((second :: rest.toList).flatMap
        (' ' :: (operation.sign.toList ++ [' ']) ++ environment.spell ·) ++ [')'])) := by
  have spelled : environment.spell (operation.onto first second rest) =
      ((Layout.operation operation.sign (first.layout :: second.layout :: rest.layout)).written
        environment.dictionary).toList := by
    cases operation <;> rw [Operation.onto, spell_expression, Phrase.layout] <;> rfl
  rw [spelled]
  simp only [Layout.operation, Layout.written_append, Layout.written_text,
    Layout.written_joined, String.toList_append, String.toList_intercalate, List.map_cons,
    intercalate_cons, Phrase.layout_eq_map, List.map_map]
  simp [spell_expression, Function.comp_def, List.flatMap_map]

theorem spell_function (name : String) (distinct : Bool)
    (arguments : Phrase (.many .expression)) :
    environment.spell (.call (.function name distinct arguments)) =
      name.toList ++ '(' :: ((if distinct then "DISTINCT ".toList else []) ++
        ([',', ' '].intercalate (arguments.toList.map environment.spell) ++ [')'])) := by
  simp only [spell_expression, Phrase.layout, Layout.written_append, Layout.written_text,
    Layout.written_joined, String.toList_append, String.toList_intercalate, spell_phrases]
  cases distinct <;> simp

theorem spell_starFunction (name : String) :
    environment.spell (.call (.starFunction name)) = name.toList ++ ['(', '*', ')'] := by
  simp [spell_expression, Phrase.layout]

theorem spell_negation {operand : Expression} (single : operand.isConnective = false) :
    environment.spell (.negation operand) =
      "NOT".toList ++ ' ' :: '(' :: (environment.spell operand ++ [')']) := by
  simp [spell_expression, Phrase.layout, single]

theorem spell_negation_connective (operator : Connective) (first second : Expression)
    (rest : Phrase (.many .expression)) :
    environment.spell (.negation (.connective operator first second rest)) =
      "NOT".toList ++ ' ' :: environment.spell (.connective operator first second rest) := by
  simp [spell_expression, Phrase.layout, Phrase.isConnective]

theorem spell_test (test : Test) (left : Expression) :
    environment.spell (test.onto left) = environment.spell left ++ test.spell environment := by
  rcases test with _ | ⟨comparator, _ | right⟩ <;>
    simp [Test.onto, Test.spell, Test.spellRight, Phrase.ofOption, spell_expression,
      Phrase.layout, Layout.optional, Layout.empty]

theorem spell_accesses (accesses : List Access) (base : Expression) :
    environment.spell (accesses.foldl Access.onto base) =
      environment.spell base ++ accesses.flatMap (Access.spell environment) := by
  induction accesses generalizing base with
  | nil => simp
  | cons access rest induction =>
      rw [List.foldl_cons, induction, List.flatMap_cons, ← List.append_assoc]
      cases access with
      | key name => rw [Access.onto, spell_property, Access.spell]
      | index position => rw [Access.onto, spell_subscript, Access.spell]

end Environment

end Cypher
