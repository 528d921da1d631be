import Cypher.Proofs.Spelling

/-! The levels of an expression. An operand is an atom with accesses behind it; a predicate
is an operand with a test behind it, or a negation. The first character of an atom tells
its sort. -/

namespace Cypher

/-! ## Levels -/

/-- What an atom begins with. -/
inductive Opening where
  | word
  | number
  | sigil
  | quotation
  | bracket
  | brace
  | parenthesis
deriving DecidableEq

/-- An operand consists of an atom and its accesses, a predicate of an operand and its
test. -/
inductive Level where
  | atom (opening : Opening)
  | operand
  | predicate

/-- What may stand behind an atom: the end of the text, an access, or what may stand behind
an operand. -/
def EndsAtom (rest : List Char) : Prop :=
  ∀ character ∈ rest.head?, character ∈ ['.', '[', ' ', ',', ')', ']']

def EndsOperand (rest : List Char) : Prop :=
  ∀ character ∈ rest.head?, character ∈ [' ', ',', ')', ']']

/-- What may stand behind a predicate: the end of the text, a closing parenthesis, or a
blank and an operator. -/
inductive EndsPredicate : List Char → Prop where
  | nil : EndsPredicate []
  | close (rest : List Char) : EndsPredicate (')' :: rest)
  | operator {initial : Char} (operates : initial ∈ operatorInitials)
      (rest : List Char) : EndsPredicate (' ' :: initial :: rest)

/-- What may stand behind an expression of the level. -/
def Level.Ends : Level → List Char → Prop
  | atom _ => EndsAtom
  | operand => EndsOperand
  | predicate => EndsPredicate

theorem IsSign.endsPredicate {sign : String} (isSign : IsSign sign) (rest : List Char) :
    EndsPredicate (' ' :: (sign.toList ++ rest)) := by
  rcases isSign.initial with ⟨head, tail, spelled, operates⟩
  rw [spelled]
  exact .operator operates _

theorem EndsPredicate.endsOperand {rest : List Char} (ends : EndsPredicate rest) :
    EndsOperand rest := by
  cases ends <;> simp [EndsOperand]

theorem EndsOperand.endsAtom {rest : List Char} (ends : EndsOperand rest) : EndsAtom rest :=
  fun character member => List.mem_cons_of_mem _ (List.mem_cons_of_mem _ (ends character member))

/-- What stands behind an atom ends every word. -/
theorem EndsAtom.ends {inside : Char → Bool}
    (outside : ['.', '[', ' ', ',', ')', ']'].any inside = false)
    {rest : List Char} (ends : EndsAtom rest) : Ends inside rest :=
  ends_of_any outside ends

namespace Expression

variable (environment : Environment)

/-- The operands that are spelled as one word. -/
inductive IsWord : Expression → String → Prop where
  | mention {binder : Variable} {name : String} (anonymous : binder.name = none)
      (given : environment.names.lookup (.ofVariable binder.identity) = some name) :
      IsWord (.mention binder) name
  | null : IsWord (.literal .null) "NULL"
  | true : IsWord (.literal (.boolean true)) "true"
  | false : IsWord (.literal (.boolean false)) "false"

/-- The grammar by levels. It takes any predicates as operands of an operator, whichever
the operator is, and treats a connective as an atom. -/
inductive Legible : Level → Expression → Prop where
  | word {expression : Expression} {name : String} (isWord : IsWord environment expression name) :
      Legible (.atom .word) expression
  | function {name : String} (plain : Identifier.isPlain name) (distinct : Bool)
      {arguments : Phrase (.many .expression)}
      (operands : ∀ argument ∈ arguments.toList, Legible .operand argument) :
      Legible (.atom .word) (.call (.function name distinct arguments))
  | starFunction {name : String} (plain : Identifier.isPlain name) :
      Legible (.atom .word) (.call (.starFunction name))
  | integer (number : Int) : Legible (.atom .number) (.literal (.integer number))
  | placeholder {parameter : Parameter} {name : String} (anonymous : parameter.name = none)
      (notNull : parameter.isNull = false)
      (given : environment.names.lookup (.ofParameter parameter.identity) = some name) :
      Legible (.atom .sigil) (.placeholder parameter)
  | string (text : String) : Legible (.atom .quotation) (.literal (.string text))
  | list {items : Phrase (.many .expression)}
      (operands : ∀ item ∈ items.toList, Legible .operand item) :
      Legible (.atom .bracket) (.list items)
  | map {entries : Entries}
      (operands : ∀ key value, .entry key value ∈ entries.toList → Legible .operand value) :
      Legible (.atom .brace) (.map entries)
  | operation (operation : Operation) {first second : Expression}
      {rest : Phrase (.many .expression)}
      (predicates : ∀ item ∈ first :: second :: rest.toList, Legible .predicate item) :
      Legible (.atom .parenthesis) (operation.onto first second rest)
  | accesses {opening : Opening} {base : Expression} (atom : Legible (.atom opening) base)
      (accesses : List Access)
      (positions : ∀ position, .index position ∈ accesses → Legible .operand position) :
      Legible .operand (accesses.foldl Access.onto base)
  | test {left : Expression} (operand : Legible .operand left) (test : Test)
      (arity : test.HasArity)
      (right : ∀ comparator content, test = .comparison comparator (some content) →
        Legible .operand content) : Legible .predicate (test.onto left)
  | negation {operand : Expression} (predicate : Legible .predicate operand)
      (single : operand.isConnective = false) : Legible .predicate (.negation operand)
  | negatedConnective (operator : Connective) {first second : Expression}
      {rest : Phrase (.many .expression)}
      (predicates : ∀ item ∈ first :: second :: rest.toList, Legible .predicate item) :
      Legible .predicate (.negation (.connective operator first second rest))

variable {environment}

theorem Legible.operand_of_atom {opening : Opening} {expression : Expression}
    (atom : Legible environment (.atom opening) expression) :
    Legible environment .operand expression :=
  .accesses atom [] nofun

theorem Legible.predicate_of_operand {expression : Expression}
    (operand : Legible environment .operand expression) :
    Legible environment .predicate expression :=
  .test operand .none trivial nofun

theorem Legible.access {base : Expression} (operand : Legible environment .operand base)
    (access : Access)
    (position : ∀ position, access = .index position → Legible environment .operand position) :
    Legible environment .operand (access.onto base) := by
  cases operand with
  | @accesses opening base atom accesses positions =>
      have longer := List.foldl_concat Access.onto base access accesses
      rw [← longer]
      refine .accesses atom _ fun content member => ?_
      rcases List.mem_append.mp member with inside | last
      · exact positions content inside
      · exact position content (List.mem_singleton.mp last).symm

theorem IsOperand.legible {expression : Expression} (operand : IsOperand environment expression) :
    Legible environment .operand expression := by
  induction operand with
  | mention anonymous given => exact (Legible.word (.mention anonymous given)).operand_of_atom
  | placeholder anonymous notNull given =>
      exact (Legible.placeholder anonymous notNull given).operand_of_atom
  | @literal value scalar =>
      cases value with
      | null => exact (Legible.word .null).operand_of_atom
      | boolean truth =>
          cases truth with
          | true => exact (Legible.word .true).operand_of_atom
          | false => exact (Legible.word .false).operand_of_atom
      | integer number => exact (Legible.integer number).operand_of_atom
      | string text => exact (Legible.string text).operand_of_atom
      | double number => cases scalar
      | array elements => cases scalar
      | object members => cases scalar
  | list _ induction => exact (Legible.list induction).operand_of_atom
  | map _ induction => exact (Legible.map induction).operand_of_atom
  | property _ key induction => exact induction.access (.key key) nofun
  | @subscript base index _ _ baseInduction indexInduction =>
      refine baseInduction.access (.index index) ?_
      rintro _ ⟨⟩
      exact indexInduction
  | arithmetic operator _ induction =>
      exact (Legible.operation (.arithmetic operator) fun item member =>
        (induction item member).predicate_of_operand).operand_of_atom
  | function plain distinct _ induction =>
      exact (Legible.function plain distinct induction).operand_of_atom
  | starFunction plain => exact (Legible.starFunction plain).operand_of_atom

/-- What stands below a connective is remembered for the negation around it. -/
theorem IsPredicate.legible_and_below {expression : Expression}
    (predicate : IsPredicate environment expression) :
    Legible environment .predicate expression ∧
      ∀ operator first second rest, expression = .connective operator first second rest →
        ∀ item ∈ first :: second :: rest.toList, Legible environment .predicate item := by
  induction predicate with
  | operand operand =>
      refine ⟨operand.legible.predicate_of_operand, ?_⟩
      rintro operator first second rest rfl
      cases operand
  | @binary comparator arity left right leftOperand rightOperand =>
      refine ⟨.test leftOperand.legible (.comparison comparator (some right)) arity ?_, nofun⟩
      rintro _ _ ⟨⟩
      exact rightOperand.legible
  | @unary comparator arity operand isOperand =>
      exact ⟨.test isOperand.legible (.comparison comparator none) arity nofun, nofun⟩
  | @negation operand predicate induction =>
      refine ⟨?_, nofun⟩
      cases single : operand.isConnective with
      | false => exact .negation induction.1 single
      | true =>
          cases operand with
          | connective operator first second rest =>
              exact .negatedConnective operator (induction.2 _ _ _ _ rfl)
          | _ => cases single
  | connective operator _ induction =>
      have below := fun item member => (induction item member).1
      have atom := Legible.operation (.connective operator) below
      refine ⟨atom.operand_of_atom.predicate_of_operand, ?_⟩
      rintro _ _ _ _ ⟨⟩
      exact below

theorem IsPredicate.legible {expression : Expression}
    (predicate : IsPredicate environment expression) :
    Legible environment .predicate expression :=
  predicate.legible_and_below.1

end Expression

/-! ## First characters -/

namespace Opening

def ofChar? (character : Char) : Option Opening :=
  if Identifier.isInitial character then some word
  else if Decimal.isInside character then some number
  else if character = '$' then some sigil
  else if character = '"' then some quotation
  else if character = '[' then some bracket
  else if character = '\x7b' then some brace
  else if character = '(' then some parenthesis
  else none

def ofText? (text : List Char) : Option Opening :=
  text.head?.bind ofChar?

theorem ofText?_append {text : List Char} {opening : Opening} (opens : ofText? text = some opening)
    (rest : List Char) : ofText? (text ++ rest) = some opening := by
  cases text with
  | nil => cases opens
  | cons head tail => exact opens

theorem ofText?_word {head : Char} (isInitial : Identifier.isInitial head) (tail : List Char) :
    ofText? (head :: tail) = some word :=
  if_pos isInitial

theorem ofText?_natural (number : Nat) :
    ofText? (Decimal.natural number).toList = some Opening.number := by
  rcases Decimal.exists_digit number with ⟨digit, rest, digits, isDigit⟩
  rw [digits, ofText?, List.head?_cons, Option.bind_some, ofChar?,
    Identifier.isInitial_of_isDigit isDigit, Decimal.isInside, isDigit]
  rfl

theorem ofText?_integer (number : Int) :
    ofText? (Decimal.integer number).toList = some Opening.number := by
  cases number with
  | ofNat number => exact ofText?_natural number
  | negSucc number =>
      rw [Decimal.integer, String.toList_append]
      rfl

end Opening

namespace Expression

variable {environment : Environment}

section Words

variable {expression other : Expression} {name : String}

theorem IsWord.spell_eq (isWord : IsWord environment expression name) :
    environment.spell expression = name.toList := by
  cases isWord with
  | mention anonymous given =>
      rw [Environment.spell_mention, Environment.resolveVariable_of_given anonymous given]
  | null => rw [Environment.spell_literal, Value.literal]
  | true => rw [Environment.spell_literal, Value.literal]
  | false => rw [Environment.spell_literal, Value.literal]

variable (reachable : environment.Reachable) (unprefixed : environment.config.namePrefixes = {})
include reachable unprefixed

theorem IsWord.initial (isWord : IsWord environment expression name) :
    ∃ head tail, name.toList = head :: tail ∧ Identifier.isInitial head := by
  cases isWord with
  | mention _ given => exact (reachable.isNumberedWord unprefixed given).initial
  | null => exact ⟨_, _, rfl, rfl⟩
  | true => exact ⟨_, _, rfl, rfl⟩
  | false => exact ⟨_, _, rfl, rfl⟩

theorem IsWord.inside (isWord : IsWord environment expression name) :
    ∀ character ∈ name.toList, Identifier.isSubsequent character := by
  cases isWord with
  | mention _ given => exact (reachable.isNumberedWord unprefixed given).inside
  | null => exact List.all_eq_true.mp (by decide)
  | true => exact List.all_eq_true.mp (by decide)
  | false => exact List.all_eq_true.mp (by decide)

/-- The name of a variable has a number, so it is no keyword. -/
theorem ne_of_given {owner : Owner}
    (given : environment.names.lookup owner = some name) {keyword : String}
    (noDigit : keyword.toList.any Char.isDigit = false) : name ≠ keyword := by
  rintro rfl
  rcases (reachable.isNumberedWord unprefixed given).digit with ⟨digit, member, isDigit⟩
  exact List.any_eq_false.mp noDigit digit member isDigit

/-- A word belongs to one operand only. -/
theorem IsWord.bare_eq {otherName : String} (isWord : IsWord environment expression name)
    (otherIsWord : IsWord environment other otherName) (same : name = otherName) :
    expression.replace .bare = other.replace .bare := by
  cases isWord with
  | mention _ given =>
      cases otherIsWord with
      | mention _ otherGiven =>
          rw [same] at given
          simp only [Phrase.replace, Replacement.bare, reachable.variable_eq given otherGiven]
      | null | true | false =>
          exact absurd same (ne_of_given reachable unprefixed given (by decide))
  | null | true | false =>
      cases otherIsWord with
      | mention _ given =>
          exact absurd same.symm (ne_of_given reachable unprefixed given (by decide))
      | null | true | false => first | rfl | exact absurd same (by decide)

/-- `NOT` and `DISTINCT` are no operands. -/
theorem IsWord.ne_keyword (isWord : IsWord environment expression name) {keyword : String}
    (isKeyword : keyword ∈ ["NOT", "DISTINCT"]) : name ≠ keyword := by
  have noDigit : ∀ keyword ∈ ["NOT", "DISTINCT"],
      keyword.toList.any Char.isDigit = Bool.false := by decide
  cases isWord with
  | mention _ given => exact ne_of_given reachable unprefixed given (noDigit keyword isKeyword)
  | null => exact fun same => absurd (same ▸ isKeyword) (by decide)
  | true => exact fun same => absurd (same ▸ isKeyword) (by decide)
  | false => exact fun same => absurd (same ▸ isKeyword) (by decide)

end Words

theorem Legible.ofText?_of_atom (reachable : environment.Reachable)
    (unprefixed : environment.config.namePrefixes = {}) {opening : Opening}
    {expression : Expression} (atom : Legible environment (.atom opening) expression) :
    Opening.ofText? (environment.spell expression) = some opening := by
  cases atom with
  | word isWord =>
      rcases isWord.initial reachable unprefixed with ⟨head, tail, spelled, isInitial⟩
      rw [isWord.spell_eq, spelled]
      exact Opening.ofText?_word isInitial tail
  | placeholder anonymous notNull given =>
      rw [Environment.spell_placeholder _ notNull]
      rfl
  | integer number =>
      rw [Environment.spell_literal]
      exact Opening.ofText?_integer number
  | string text =>
      rw [Environment.spell_string]
      rfl
  | list operands =>
      rw [Environment.spell_list]
      rfl
  | @map entries operands =>
      cases entries with
      | nil =>
          rw [Environment.spell_map_nil]
          rfl
      | cons entry entries =>
          rw [Environment.spell_map_cons]
          rfl
  | operation operation predicates =>
      rw [Environment.spell_operation]
      rfl
  | function plain distinct operands =>
      rcases Identifier.isInitial_of_isPlain plain with ⟨head, tail, spelled, isInitial⟩
      rw [Environment.spell_function, spelled]
      exact Opening.ofText?_word isInitial _
  | starFunction plain =>
      rcases Identifier.isInitial_of_isPlain plain with ⟨head, tail, spelled, isInitial⟩
      rw [Environment.spell_starFunction, spelled]
      exact Opening.ofText?_word isInitial _

end Expression

end Cypher
