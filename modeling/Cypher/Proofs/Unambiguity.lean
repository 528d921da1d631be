import Cypher.Proofs.Separation

/-! The text of a predicate determines the predicate. Expressions of one level are told apart
by their text, whatever may stand behind them. The induction is on one of the two
expressions; the other one is any expression of the same level. -/

namespace Cypher

namespace Expression

variable {environment : Environment}

/-! ## Beginnings -/

theorem spell_function_append (name : String) (distinct : Bool)
    (arguments : Phrase (.many .expression)) (rest : List Char) :
    environment.spell (.call (.function name distinct arguments)) ++ rest =
      name.toList ++ '(' :: ((if distinct then "DISTINCT ".toList else []) ++
        ([',', ' '].intercalate (arguments.toList.map environment.spell) ++ ([')'] ++ rest))) := by
  rw [environment.spell_function]
  simp only [List.append_assoc, List.cons_append]

theorem spell_starFunction_append (name : String) (rest : List Char) :
    environment.spell (.call (.starFunction name)) ++ rest =
      name.toList ++ '(' :: '*' :: ')' :: rest := by
  rw [environment.spell_starFunction, List.append_assoc]
  rfl

theorem ends_parenthesis (tail : List Char) : Ends Identifier.isSubsequent ('(' :: tail) := by
  rintro _ ⟨⟩
  rfl

/-- A function is no word, because it has parentheses. -/
theorem call_ne_word {name : String} (plain : Identifier.isPlain name) {word : List Char}
    (inside : ∀ character ∈ word, Identifier.isSubsequent character) (tail : List Char)
    {rest : List Char} (ends : EndsAtom rest) : name.toList ++ '(' :: tail ≠ word ++ rest := by
  intro equal
  rcases word_append_inj (isSubsequent_of_isPlain plain).2 inside (ends_parenthesis tail)
    (ends.ends (by decide)) equal with ⟨-, rfl⟩
  exact absurd (ends '(' rfl) (by decide)

theorem call_append_inj {name otherName : String} (plain : Identifier.isPlain name)
    (otherPlain : Identifier.isPlain otherName) {tail otherTail : List Char}
    (equal : name.toList ++ '(' :: tail = otherName.toList ++ '(' :: otherTail) :
    name = otherName ∧ tail = otherTail := by
  rcases word_append_inj (isSubsequent_of_isPlain plain).2 (isSubsequent_of_isPlain otherPlain).2
    (ends_parenthesis tail) (ends_parenthesis otherTail) equal with ⟨same, sameTail⟩
  exact ⟨String.toList_inj.mp same, (List.cons.inj sameTail).2⟩

section Reachable

variable (reachable : environment.Reachable) (unprefixed : environment.config.namePrefixes = {})
include reachable unprefixed

/-- Atoms of different sorts are not confused. -/
theorem Legible.opening_eq {opening otherOpening : Opening} {expression other : Expression}
    {rest otherRest : List Char} (atom : Legible environment (.atom opening) expression)
    (otherAtom : Legible environment (.atom otherOpening) other)
    (equal : environment.spell expression ++ rest = environment.spell other ++ otherRest) :
    opening = otherOpening := by
  have opens := Opening.ofText?_append (atom.ofText?_of_atom reachable unprefixed) rest
  rw [equal, Opening.ofText?_append (otherAtom.ofText?_of_atom reachable unprefixed)] at opens
  exact (Option.some.inj opens).symm

/-- A text that begins with no opening does not begin with an operand. -/
theorem Legible.ne_of_ofText? {expression : Expression} {rest : List Char}
    (opensNothing : Opening.ofText? rest = none)
    (operand : Legible environment .operand expression) (behind : List Char) :
    environment.spell expression ++ behind ≠ rest := by
  rintro rfl
  cases operand with
  | accesses atom accesses positions =>
      have opens := atom.ofText?_of_atom reachable unprefixed
      rw [environment.spell_accesses, List.append_assoc,
        Opening.ofText?_append opens] at opensNothing
      cases opensNothing

/-- No operand is spelled like one of these keywords. -/
theorem Legible.ne_keyword {keyword : String} (isKeyword : keyword ∈ ["NOT", "DISTINCT"])
    {expression : Expression} (operand : Legible environment .operand expression)
    {rest : List Char} (ends : EndsOperand rest) (behind : List Char) :
    environment.spell expression ++ rest ≠ keyword.toList ++ ' ' :: behind := by
  intro equal
  have facts : ∀ keyword ∈ ["NOT", "DISTINCT"],
      Opening.ofText? keyword.toList = some .word ∧
        keyword.toList.all Identifier.isSubsequent := by
    decide
  rcases facts keyword isKeyword with ⟨keywordOpens, allInside⟩
  have keywordInside := List.all_eq_true.mp allInside
  have blank : EndsAtom (' ' :: behind) := by
    rintro _ ⟨⟩
    decide
  cases operand with
  | @accesses opening _ atom accesses positions =>
      have endsAtom : EndsAtom (accesses.flatMap (Access.spell environment) ++ rest) :=
        Access.endsAtom_flatMap accesses ends
      rw [environment.spell_accesses, List.append_assoc] at equal
      have opens := Opening.ofText?_append (atom.ofText?_of_atom reachable unprefixed)
        (accesses.flatMap (Access.spell environment) ++ rest)
      rw [equal, Opening.ofText?_append keywordOpens] at opens
      cases opens
      cases atom with
      | word isWord =>
          rw [isWord.spell_eq] at equal
          rcases word_append_inj (isWord.inside reachable unprefixed) keywordInside
            (endsAtom.ends (by decide)) (blank.ends (by decide)) equal with ⟨same, -⟩
          exact isWord.ne_keyword reachable unprefixed isKeyword (String.toList_inj.mp same)
      | function plain distinct operands =>
          rw [spell_function_append] at equal
          exact call_ne_word plain keywordInside _ blank equal
      | starFunction plain =>
          rw [spell_starFunction_append] at equal
          exact call_ne_word plain keywordInside _ blank equal

/-! ## Operands -/

theorem apart_word {expression : Expression} {name : String}
    (isWord : IsWord environment expression name) :
    Apart environment (.atom .word) expression := by
  intro other rest otherRest atom ends otherEnds equal
  rw [isWord.spell_eq] at equal
  have inside := isWord.inside reachable unprefixed
  cases atom with
  | word otherIsWord =>
      rw [otherIsWord.spell_eq] at equal
      rcases word_append_inj inside (otherIsWord.inside reachable unprefixed)
        (ends.ends (by decide)) (otherEnds.ends (by decide)) equal with
        ⟨same, sameRest⟩
      exact ⟨isWord.bare_eq reachable unprefixed otherIsWord (String.toList_inj.mp same), sameRest⟩
  | function plain distinct operands =>
      rw [spell_function_append] at equal
      exact absurd equal.symm (call_ne_word plain inside _ ends)
  | starFunction plain =>
      rw [spell_starFunction_append] at equal
      exact absurd equal.symm (call_ne_word plain inside _ ends)

theorem apart_placeholder {parameter : Parameter} {name : String}
    (anonymous : parameter.name = none) (notNull : parameter.isNull = false)
    (given : environment.names.lookup (.ofParameter parameter.identity) = some name) :
    Apart environment (.atom .sigil) (.placeholder parameter) := by
  intro other rest otherRest atom ends otherEnds equal
  cases atom with
  | placeholder otherAnonymous otherNotNull otherGiven =>
      rw [environment.spell_placeholder notNull, environment.spell_placeholder otherNotNull,
        Environment.resolveParameter_of_given anonymous given,
        Environment.resolveParameter_of_given otherAnonymous otherGiven] at equal
      rcases word_append_inj (reachable.isNumberedWord unprefixed given).inside
        (reachable.isNumberedWord unprefixed otherGiven).inside
        (ends.ends (by decide)) (otherEnds.ends (by decide))
        (List.cons.inj equal).2 with ⟨same, sameRest⟩
      rw [String.toList_inj.mp same] at given
      refine ⟨?_, sameRest⟩
      simp only [Phrase.replace, Replacement.placeholderPhrase, Replacement.bare,
        reachable.parameter_eq given otherGiven]

omit reachable unprefixed in
theorem apart_integer (number : Int) :
    Apart environment (.atom .number) (.literal (.integer number)) := by
  intro other rest otherRest atom ends otherEnds equal
  cases atom with
  | integer otherNumber =>
      rw [environment.spell_literal, environment.spell_literal, Value.literal,
        Value.literal] at equal
      rcases Decimal.integer_append_inj (ends.ends (by decide))
        (otherEnds.ends (by decide)) equal with ⟨rfl, sameRest⟩
      exact ⟨rfl, sameRest⟩

omit reachable unprefixed in
theorem apart_string (text : String) :
    Apart environment (.atom .quotation) (.literal (.string text)) := by
  intro other rest otherRest atom ends otherEnds equal
  cases atom with
  | string otherText =>
      rw [environment.spell_string, environment.spell_string, List.cons_append, List.cons_append,
        List.append_assoc, List.append_assoc] at equal
      rcases Quoted.escapeCharacters_append_inj (List.cons.inj equal).2 with ⟨same, sameRest⟩
      exact ⟨by rw [String.toList_inj.mp same], sameRest⟩

/-- Operands between commas, in front of a closing bracket or parenthesis. -/
theorem intercalate_inj {items others : Phrase (.many .expression)}
    (legible : ∀ item ∈ items.toList, Legible environment .operand item)
    (apart : ∀ item ∈ items.toList, Apart environment .operand item)
    (otherLegible : ∀ item ∈ others.toList, Legible environment .operand item)
    {close : Char} (closes : close = ']' ∨ close = ')') {rest otherRest : List Char}
    (equal : [',', ' '].intercalate (items.toList.map environment.spell) ++ ([close] ++ rest) =
      [',', ' '].intercalate (others.toList.map environment.spell) ++ ([close] ++ otherRest)) :
    items.replace .bare = others.replace .bare ∧ rest = otherRest := by
  have follows : ∀ rest, EndsOperand (close :: rest) := by
    rintro rest _ ⟨⟩
    rcases closes with rfl | rfl <;> decide
  have noComma : ∀ rest, Ends (· == ',') (close :: rest) := by
    rintro rest _ ⟨⟩
    rcases closes with rfl | rfl <;> decide
  have opensNothing : ∀ rest, Opening.ofText? (close :: rest) = none := by
    rcases closes with rfl | rfl <;> exact fun _ => rfl
  have separate : ∀ rest member, Legible environment .operand member →
      ∀ behind, environment.spell member ++ behind ≠ close :: rest :=
    fun rest _ operand => operand.ne_of_ofText? reachable unprefixed (opensNothing rest)
  rcases TellsApart.intercalate endsOperand_comma apart legible otherLegible (follows rest)
    (follows otherRest) (noComma rest) (noComma otherRest) (separate rest) (separate otherRest)
    equal with ⟨sameItems, sameRest⟩
  exact ⟨Phrase.replace_eq_of_map_eq sameItems, (List.cons.inj sameRest).2⟩

theorem apart_list {items : Phrase (.many .expression)}
    (legible : ∀ item ∈ items.toList, Legible environment .operand item)
    (apart : ∀ item ∈ items.toList, Apart environment .operand item) :
    Apart environment (.atom .bracket) (.list items) := by
  intro other rest otherRest atom ends otherEnds equal
  cases atom with
  | list otherLegible =>
      rw [environment.spell_list, environment.spell_list, List.cons_append, List.cons_append,
        List.append_assoc, List.append_assoc] at equal
      rcases intercalate_inj reachable unprefixed legible apart otherLegible (.inl rfl)
        (List.cons.inj equal).2 with ⟨sameItems, sameRest⟩
      exact ⟨congrArg Phrase.list sameItems, sameRest⟩

omit reachable unprefixed in
theorem apart_map {entries : Entries}
    (apart : ∀ key value, .entry key value ∈ entries.toList →
      Apart environment .operand value) : Apart environment (.atom .brace) (.map entries) := by
  intro other rest otherRest atom ends otherEnds equal
  cases atom with
  | map otherLegible =>
      rcases Entries.spell_map_inj apart otherLegible equal with ⟨sameEntries, sameRest⟩
      exact ⟨congrArg Phrase.map sameEntries, sameRest⟩

/-! ## Functions -/

/-- The arguments themselves do not begin with the keyword in front of them. -/
theorem arguments_ne_distinct {arguments : List Expression}
    (legible : ∀ argument ∈ arguments, Legible environment .operand argument)
    (rest behind : List Char) :
    [',', ' '].intercalate (arguments.map environment.spell) ++ ([')'] ++ rest) ≠
      "DISTINCT".toList ++ ' ' :: behind := by
  intro equal
  cases arguments with
  | nil => cases (List.cons.inj equal).1
  | cons argument arguments =>
      rw [List.map_cons, intercalate_cons, List.append_assoc] at equal
      have closes : EndsOperand ([')'] ++ rest) := by
        rintro _ ⟨⟩
        decide
      have comma : ∀ item tail, EndsOperand ([',', ' '] ++ item ++ tail) := by
        intro item tail
        rw [List.append_assoc]
        exact endsOperand_comma _
      have operand := legible argument List.mem_cons_self
      exact operand.ne_keyword reachable unprefixed (by decide)
        (follow_flatMap comma _ closes) _ equal

theorem arguments_ne_star {arguments : List Expression}
    (legible : ∀ argument ∈ arguments, Legible environment .operand argument)
    (distinct : Bool) (rest behind : List Char) :
    (if distinct then "DISTINCT ".toList else []) ++
        ([',', ' '].intercalate (arguments.map environment.spell) ++ ([')'] ++ rest)) ≠
      '*' :: behind := by
  intro equal
  cases distinct with
  | true => cases (List.cons.inj equal).1
  | false =>
      cases arguments with
      | nil => cases (List.cons.inj equal).1
      | cons argument arguments =>
          rw [if_neg Bool.false_ne_true, List.nil_append, List.map_cons, intercalate_cons,
            List.append_assoc] at equal
          have operand := legible argument List.mem_cons_self
          exact operand.ne_of_ofText? reachable unprefixed rfl _ equal

theorem apart_function {name : String} (plain : Identifier.isPlain name) (distinct : Bool)
    {arguments : Phrase (.many .expression)}
    (legible : ∀ argument ∈ arguments.toList, Legible environment .operand argument)
    (apart : ∀ argument ∈ arguments.toList, Apart environment .operand argument) :
    Apart environment (.atom .word) (.call (.function name distinct arguments)) := by
  intro other rest otherRest atom ends otherEnds equal
  rw [spell_function_append] at equal
  cases atom with
  | word isWord =>
      rw [isWord.spell_eq] at equal
      exact absurd equal (call_ne_word plain (isWord.inside reachable unprefixed) _ otherEnds)
  | starFunction otherPlain =>
      rw [spell_starFunction_append] at equal
      exact absurd (call_append_inj plain otherPlain equal).2
        (arguments_ne_star reachable unprefixed legible distinct rest _)
  | @function otherName otherPlain otherDistinct otherArguments otherLegible =>
      rw [spell_function_append] at equal
      rcases call_append_inj plain otherPlain equal with ⟨rfl, equalTails⟩
      have sameDistinct : distinct = otherDistinct := by
        cases distinct with
        | true =>
            cases otherDistinct with
            | true => rfl
            | false =>
                exact absurd equalTails.symm
                  (arguments_ne_distinct reachable unprefixed otherLegible otherRest _)
        | false =>
            cases otherDistinct with
            | false => rfl
            | true =>
                exact absurd equalTails
                  (arguments_ne_distinct reachable unprefixed legible rest _)
      subst sameDistinct
      rcases intercalate_inj reachable unprefixed legible apart otherLegible (.inr rfl)
        (List.append_cancel_left equalTails) with ⟨sameArguments, sameRest⟩
      have sameCall := congrArg (Phrase.call ∘ Phrase.function name distinct) sameArguments
      exact ⟨sameCall, sameRest⟩

theorem apart_starFunction {name : String} (plain : Identifier.isPlain name) :
    Apart environment (.atom .word) (.call (.starFunction name)) := by
  intro other rest otherRest atom ends otherEnds equal
  rw [spell_starFunction_append] at equal
  cases atom with
  | word isWord =>
      rw [isWord.spell_eq] at equal
      exact absurd equal (call_ne_word plain (isWord.inside reachable unprefixed) _ otherEnds)
  | starFunction otherPlain =>
      rw [spell_starFunction_append] at equal
      rcases call_append_inj plain otherPlain equal with ⟨rfl, equalTails⟩
      exact ⟨rfl, (List.cons.inj (List.cons.inj equalTails).2).2⟩
  | function otherPlain distinct otherLegible =>
      rw [spell_function_append] at equal
      exact absurd (call_append_inj plain otherPlain equal).2.symm
        (arguments_ne_star reachable unprefixed otherLegible distinct otherRest _)

/-! ## Operations, accesses and tests -/

omit reachable unprefixed in
theorem apart_operation (operation : Operation) {first second : Expression}
    {items : Phrase (.many .expression)}
    (apart : ∀ item ∈ first :: second :: items.toList, Apart environment .predicate item) :
    Apart environment (.atom .parenthesis) (operation.onto first second items) := by
  intro other rest otherRest atom ends otherEnds equal
  cases atom with
  | operation otherOperation legible =>
      rcases Operation.spell_onto_inj apart legible equal with
        ⟨rfl, sameFirst, sameSecond, sameItems, sameRest⟩
      refine ⟨?_, sameRest⟩
      rw [Operation.replace_onto, Operation.replace_onto, sameFirst, sameSecond, sameItems]

theorem apart_accesses {opening : Opening} {base : Expression}
    (legible : Legible environment (.atom opening) base)
    (apart : Apart environment (.atom opening) base) {accesses : List Access}
    (positions : ∀ position, .index position ∈ accesses → Apart environment .operand position) :
    Apart environment .operand (accesses.foldl Access.onto base) := by
  intro other rest otherRest operand ends otherEnds equal
  cases operand with
  | accesses otherLegible otherAccesses otherPositions =>
      rw [environment.spell_accesses, environment.spell_accesses, List.append_assoc,
        List.append_assoc] at equal
      cases legible.opening_eq reachable unprefixed otherLegible equal
      rcases apart otherLegible (Access.endsAtom_flatMap accesses ends)
        (Access.endsAtom_flatMap otherAccesses otherEnds) equal with ⟨sameBase, equalAccesses⟩
      rcases Access.flatMap_inj positions otherPositions ends otherEnds equalAccesses with
        ⟨sameAccesses, sameRest⟩
      exact ⟨by rw [Access.replace_foldl, Access.replace_foldl, sameBase, sameAccesses], sameRest⟩

theorem apart_test {left : Expression} (leftLegible : Legible environment .operand left)
    (leftApart : Apart environment .operand left) {test : Test} (arity : test.HasArity)
    (right : ∀ comparator content, test = .comparison comparator (some content) →
      Apart environment .operand content) : Apart environment .predicate (test.onto left) := by
  intro other rest otherRest predicate ends otherEnds equal
  rw [environment.spell_test, List.append_assoc] at equal
  have isNoNegation : ∀ behind, environment.spell left ++ (test.spell environment ++ rest) ≠
      "NOT".toList ++ ' ' :: behind :=
    leftLegible.ne_keyword reachable unprefixed (by decide) (test.endsOperand ends)
  cases predicate with
  | test otherLegible otherTest otherArity otherRight =>
      rw [environment.spell_test, List.append_assoc] at equal
      rcases leftApart otherLegible (test.endsOperand ends) (otherTest.endsOperand otherEnds)
        equal with ⟨sameLeft, equalTests⟩
      rcases Test.tellsApart arity right ⟨otherArity, otherRight⟩ ends otherEnds equalTests with
        ⟨sameTest, sameRest⟩
      exact ⟨by rw [Test.replace_onto, Test.replace_onto, sameLeft, sameTest], sameRest⟩
  | negation operand single =>
      rw [environment.spell_negation single, List.append_assoc] at equal
      exact absurd equal (isNoNegation _)
  | negatedConnective operator operands =>
      rw [environment.spell_negation_connective, List.append_assoc] at equal
      exact absurd equal (isNoNegation _)

/-! ## Negations

A negation has parentheses of its own, unless its operand is a connective. -/

theorem apart_negation {operand : Expression} (single : operand.isConnective = false)
    (apart : Apart environment .predicate operand) :
    Apart environment .predicate (.negation operand) := by
  intro other rest otherRest predicate ends otherEnds equal
  rw [environment.spell_negation single, List.append_assoc] at equal
  cases predicate with
  | test otherLegible otherTest otherArity otherRight =>
      rw [environment.spell_test, List.append_assoc] at equal
      exact absurd equal.symm (otherLegible.ne_keyword reachable unprefixed (by decide)
        (otherTest.endsOperand otherEnds) _)
  | negation otherLegible otherSingle =>
      rw [environment.spell_negation otherSingle, List.append_assoc] at equal
      have equalTails := List.append_cancel_left equal
      simp only [List.cons_append, List.cons.injEq, List.append_assoc, true_and] at equalTails
      rcases apart otherLegible (.close rest) (.close otherRest) equalTails with
        ⟨sameOperand, sameRest⟩
      exact ⟨congrArg Phrase.negation sameOperand, (List.cons.inj sameRest).2⟩
  | @negatedConnective operator first second items otherLegible =>
      rw [environment.spell_negation_connective, List.append_assoc] at equal
      have tell : ∀ {rest otherRest}, EndsPredicate rest → EndsPredicate otherRest →
          environment.spell operand ++ rest = environment.spell first ++ otherRest →
          rest = otherRest := fun ends otherEnds equal =>
        (apart (otherLegible first List.mem_cons_self) ends otherEnds equal).2
      exact absurd (List.cons.inj (List.append_cancel_left equal)).2
        (Operation.parentheses_ne_spell_onto (.connective operator) tell)

theorem apart_negatedConnective (operator : Connective) {first second : Expression}
    {items : Phrase (.many .expression)}
    (apart : ∀ item ∈ first :: second :: items.toList, Apart environment .predicate item) :
    Apart environment .predicate (.negation (.connective operator first second items)) := by
  intro other rest otherRest predicate ends otherEnds equal
  rw [environment.spell_negation_connective, List.append_assoc] at equal
  cases predicate with
  | test otherLegible otherTest otherArity otherRight =>
      rw [environment.spell_test, List.append_assoc] at equal
      exact absurd equal.symm (otherLegible.ne_keyword reachable unprefixed (by decide)
        (otherTest.endsOperand otherEnds) _)
  | @negation operand otherLegible otherSingle =>
      rw [environment.spell_negation otherSingle, List.append_assoc] at equal
      have tell : ∀ {rest otherRest}, EndsPredicate rest → EndsPredicate otherRest →
          environment.spell operand ++ rest = environment.spell first ++ otherRest →
          rest = otherRest := fun ends otherEnds equal =>
        (apart first List.mem_cons_self otherLegible otherEnds ends equal.symm).2.symm
      exact absurd (List.cons.inj (List.append_cancel_left equal.symm)).2
        (Operation.parentheses_ne_spell_onto (.connective operator) tell)
  | negatedConnective otherOperator otherLegible =>
      rw [environment.spell_negation_connective, List.append_assoc] at equal
      rcases apart_operation (.connective operator) apart
        (.operation (.connective otherOperator) otherLegible) ends.endsOperand.endsAtom
        otherEnds.endsOperand.endsAtom (List.cons.inj (List.append_cancel_left equal)).2 with
        ⟨sameOperation, sameRest⟩
      exact ⟨congrArg Phrase.negation sameOperation, sameRest⟩

/-! ## Whole predicates -/

/-- Expressions of every level are told apart by their text. -/
theorem Legible.apart {level : Level} {expression : Expression}
    (legible : Legible environment level expression) : Apart environment level expression := by
  induction legible with
  | word isWord => exact apart_word reachable unprefixed isWord
  | function plain distinct legible induction =>
      exact apart_function reachable unprefixed plain distinct legible induction
  | starFunction plain => exact apart_starFunction reachable unprefixed plain
  | integer number => exact apart_integer number
  | placeholder anonymous notNull given =>
      exact apart_placeholder reachable unprefixed anonymous notNull given
  | string text => exact apart_string text
  | list legible induction => exact apart_list reachable unprefixed legible induction
  | map _ induction => exact apart_map induction
  | operation operation _ induction => exact apart_operation operation induction
  | accesses legible _ _ atomInduction positionInduction =>
      exact apart_accesses reachable unprefixed legible atomInduction positionInduction
  | test legible _ arity _ induction rightInduction =>
      exact apart_test reachable unprefixed legible induction arity rightInduction
  | negation _ single induction => exact apart_negation reachable unprefixed single induction
  | negatedConnective operator _ induction =>
      exact apart_negatedConnective reachable unprefixed operator induction

end Reachable

/-- Two predicates with one text are the same expression: they have the same operators with
the same operands in the same order, the same keys and literals, and mention the same
variables and parameters. -/
theorem bare_eq_of_same_text (reachable : environment.Reachable)
    (unprefixed : environment.config.namePrefixes = {}) {first second : Expression}
    (firstPredicate : IsPredicate environment first)
    (secondPredicate : IsPredicate environment second)
    (sameText : first.whole.result environment = second.whole.result environment) :
    first.replace .bare = second.replace .bare := by
  rw [Layout.result, Layout.result, firstPredicate.render, secondPredicate.render] at sameText
  have spelled : environment.spell first ++ [] = environment.spell second ++ [] := by
    rw [Environment.spell, Environment.spell, Except.ok.inj sameText]
  have apart := firstPredicate.legible.apart reachable unprefixed
  exact (apart secondPredicate.legible .nil .nil spelled).1

/-- A variable is the same whatever kind a mention takes it for, and a parameter is the same
with and without its value. -/
theorem bare_eq_of_same_text_negation :
    let environment := (((Environment.empty {}).resolveVariable
      { identity := ⟨0⟩, kind := .node }).2.resolveParameter { identity := ⟨1⟩ }).2
    let predicate (kind : VariableKind) (value : Option Value) : Expression :=
      .negation (.connective .and
        (.comparison .equal (.property (.mention { identity := ⟨0⟩, kind }) "name")
          (.present (.placeholder { identity := ⟨1⟩, value })))
        (.call (.function "f" true (.cons (.mention { identity := ⟨0⟩ }) .nil))) .nil)
    let text := "NOT (this0.name = $param0 AND f(DISTINCT this0))"
    (predicate .node none).whole.result environment = .ok text ∧
      (predicate .generic (some (.integer 5))).whole.result environment = .ok text ∧
      (predicate .node none).replace .bare =
        (predicate .generic (some (.integer 5))).replace .bare := by
  intro environment predicate text
  have reachable : environment.Reachable :=
    ((Environment.Reachable.empty {}).resolveVariable _).resolveParameter _
  have isPredicate : ∀ kind value, Parameter.isNull { identity := ⟨1⟩, value } = false →
      IsPredicate environment (predicate kind value) := by
    intro kind value notNull
    have isCall : IsOperand environment
        (.call (.function "f" true (.cons (.mention { identity := ⟨0⟩ }) .nil))) := by
      refine .function rfl true ?_
      rw [Phrase.toList_cons, Phrase.toList_nil, List.forall_mem_singleton]
      exact .mention rfl rfl
    refine .negation (.connective .and ?_)
    rw [List.forall_mem_cons, List.forall_mem_cons]
    exact ⟨.binary rfl (.property (.mention rfl rfl) _) (.placeholder rfl notNull rfl),
      .operand isCall, nofun⟩
  have firstText : (predicate .node none).whole.result environment = .ok text := rfl
  have secondText : (predicate .generic (some (.integer 5))).whole.result environment =
      .ok text := rfl
  exact ⟨firstText, secondText, bare_eq_of_same_text reachable rfl (isPredicate _ _ rfl)
    (isPredicate _ _ rfl) (firstText.trans secondText.symm)⟩

end Expression

end Cypher
