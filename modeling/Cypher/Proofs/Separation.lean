import Cypher.Proofs.Levels

/-! What is told apart if its parts are. Accesses, tests, the entries of a map and the operands
of an operation are told apart by their text, if the expressions inside them are. -/

namespace Cypher

open Expression

/-- The expression is told apart from every other expression of the level. -/
def Expression.Apart (environment : Environment) (level : Level) (expression : Expression) :
    Prop :=
  TellsApart environment.spell (Phrase.replace .bare) (Legible environment level) level.Ends
    expression

variable {environment : Environment}

theorem endsOperand_comma (tail : List Char) : EndsOperand ([',', ' '] ++ tail) := by
  rintro _ ⟨⟩
  decide

/-! ## Accesses -/

namespace Access

def HasPosition (environment : Environment) (access : Access) : Prop :=
  ∀ position, access = .index position → Legible environment .operand position

theorem tellsApart {access : Access}
    (positions : ∀ position, access = .index position → Apart environment .operand position) :
    TellsApart (spell environment) bare (HasPosition environment) EndsAtom access := by
  intro other rest otherRest hasPosition ends otherEnds equal
  cases access with
  | key name =>
      cases other with
      | index position => cases (List.cons.inj equal).1
      | key otherName =>
          rcases Identifier.escape_append_inj (ends.ends (by decide))
            (otherEnds.ends (by decide)) (List.cons.inj equal).2 with
            ⟨sameName, sameRest⟩
          exact ⟨congrArg Access.key sameName, sameRest⟩
  | index position =>
      cases other with
      | key otherName => cases (List.cons.inj equal).1
      | index otherPosition =>
          rw [spell, spell, List.cons_append, List.cons_append,
            List.append_assoc, List.append_assoc] at equal
          have closes : ∀ rest, EndsOperand ([']'] ++ rest) := by
            rintro rest _ ⟨⟩
            decide
          rcases positions position rfl (hasPosition otherPosition rfl) (closes rest)
            (closes otherRest) (List.cons.inj equal).2 with ⟨samePosition, sameRest⟩
          exact ⟨congrArg Access.index samePosition, (List.cons.inj sameRest).2⟩

theorem replace_foldl (accesses : List Access) (base : Expression) :
    (accesses.foldl onto base).replace .bare =
      (accesses.map bare).foldl onto (base.replace .bare) := by
  induction accesses generalizing base with
  | nil => rfl
  | cons access rest induction =>
      rw [List.foldl_cons, induction, List.map_cons, List.foldl_cons]
      cases access <;> rfl

def isInitial (character : Char) : Bool :=
  character == '.' || character == '['

theorem exists_initial (access : Access) :
    ∃ head tail, access.spell environment = head :: tail ∧ isInitial head := by
  cases access <;> exact ⟨_, _, rfl, rfl⟩

theorem endsAtom (access : Access) (tail : List Char) :
    EndsAtom (access.spell environment ++ tail) := by
  cases access <;> rintro _ ⟨⟩ <;> decide

/-- Behind an atom stand its accesses, or what stands behind the operand. -/
theorem endsAtom_flatMap (accesses : List Access) {rest : List Char} (ends : EndsOperand rest) :
    EndsAtom (accesses.flatMap (spell environment) ++ rest) :=
  follow_flatMap endsAtom accesses ends.endsAtom

theorem not_isInitial {rest : List Char} (ends : EndsOperand rest) : Ends isInitial rest :=
  ends_of_any (by decide) ends

theorem flatMap_inj {accesses others : List Access}
    (apart : ∀ position, .index position ∈ accesses → Apart environment .operand position)
    (legible : ∀ position, .index position ∈ others → Legible environment .operand position)
    {rest otherRest : List Char} (ends : EndsOperand rest) (otherEnds : EndsOperand otherRest)
    (equal : accesses.flatMap (spell environment) ++ rest =
      others.flatMap (spell environment) ++ otherRest) :
    accesses.map bare = others.map bare ∧ rest = otherRest := by
  have tellApart : ∀ access ∈ accesses,
      TellsApart (spell environment) bare (HasPosition environment) EndsAtom access := by
    intro access member
    refine tellsApart fun position isIndex => ?_
    exact apart position (isIndex ▸ member)
  have candidates : ∀ access ∈ others, HasPosition environment access := by
    intro access member position isIndex
    exact legible position (isIndex ▸ member)
  exact TellsApart.flatMap exists_initial endsAtom tellApart candidates ends.endsAtom
    otherEnds.endsAtom (not_isInitial ends) (not_isInitial otherEnds) equal

end Access

/-! ## Tests -/

namespace Test

/-- What stands behind a comparator ends its keyword. -/
theorem endsKeyword (right : Option Expression) {rest : List Char} (ends : EndsPredicate rest) :
    ∀ character ∈ (spellRight environment right ++ rest).head?,
      Comparator.endsKeyword character := by
  cases right with
  | none => cases ends <;> simp [spellRight, Comparator.endsKeyword]
  | some content => simp [spellRight, Comparator.endsKeyword]

/-- Behind a predicate there is no comparator. -/
theorem not_endsPredicate (comparator : Comparator) (rest : List Char) :
    ¬ EndsPredicate (' ' :: (comparator.keyword.toList ++ rest)) := by
  intro ends
  rcases comparator.keyword_initial with ⟨head, tail, spelled, different⟩
  rw [spelled] at ends
  cases ends with
  | operator operates => exact different operates

theorem endsOperand (test : Test) {rest : List Char} (ends : EndsPredicate rest) :
    EndsOperand (test.spell environment ++ rest) := by
  cases test with
  | none => exact ends.endsOperand
  | comparison comparator right =>
      rintro _ ⟨⟩
      decide

structure IsLegible (environment : Environment) (test : Test) : Prop where
  arity : test.HasArity
  right : ∀ comparator content, test = .comparison comparator (some content) →
    Legible environment .operand content

theorem spellRight_inj {comparator : Comparator} {right other : Option Expression}
    (arity : comparator.isUnary = right.isNone) (otherArity : comparator.isUnary = other.isNone)
    (apart : ∀ content ∈ right, Apart environment .operand content)
    (legible : ∀ content ∈ other, Legible environment .operand content)
    {rest otherRest : List Char} (ends : EndsPredicate rest) (otherEnds : EndsPredicate otherRest)
    (equal : spellRight environment right ++ rest = spellRight environment other ++ otherRest) :
    right.map (Phrase.replace .bare) = other.map (Phrase.replace .bare) ∧ rest = otherRest := by
  cases right with
  | none =>
      cases other with
      | none => exact ⟨rfl, equal⟩
      | some otherContent => cases arity.symm.trans otherArity
  | some content =>
      cases other with
      | none => cases arity.symm.trans otherArity
      | some otherContent =>
          rcases apart content rfl (legible otherContent rfl) ends.endsOperand
            otherEnds.endsOperand (List.cons.inj equal).2 with ⟨same, sameRest⟩
          exact ⟨congrArg some same, sameRest⟩

theorem tellsApart {test : Test} (arity : test.HasArity)
    (right : ∀ comparator content, test = .comparison comparator (some content) →
      Apart environment .operand content) :
    TellsApart (spell environment) bare (IsLegible environment) EndsPredicate test := by
  intro other rest otherRest legible ends otherEnds equal
  cases test with
  | none =>
      cases other with
      | none => exact ⟨rfl, equal⟩
      | comparison comparator content =>
          simp only [spell, List.nil_append, List.cons_append, List.append_assoc] at equal
          rw [equal] at ends
          exact absurd ends (not_endsPredicate comparator _)
  | comparison comparator content =>
      cases other with
      | none =>
          simp only [spell, List.nil_append, List.cons_append, List.append_assoc] at equal
          rw [← equal] at otherEnds
          exact absurd otherEnds (not_endsPredicate comparator _)
      | comparison otherComparator otherContent =>
          simp only [spell, List.cons_append, List.append_assoc] at equal
          rcases Comparator.keyword_append_inj (endsKeyword content ends)
            (endsKeyword otherContent otherEnds) (List.cons.inj equal).2 with ⟨rfl, equalRight⟩
          have apart : ∀ single ∈ content, Apart environment .operand single := by
            rintro single rfl
            exact right _ _ rfl
          have otherLegible : ∀ single ∈ otherContent, Legible environment .operand single := by
            rintro single rfl
            exact legible.right _ _ rfl
          rcases spellRight_inj arity legible.arity apart otherLegible ends otherEnds
            equalRight with ⟨sameRight, sameRest⟩
          exact ⟨congrArg (comparison comparator) sameRight, sameRest⟩

theorem replace_onto (test : Test) (left : Expression) :
    (test.onto left).replace .bare = test.bare.onto (left.replace .bare) := by
  rcases test with _ | ⟨comparator, _ | right⟩ <;> rfl

end Test

/-! ## Entries -/

namespace Entries

def HasValue (environment : Environment) (entry : Phrase .entry) : Prop :=
  ∀ key value, entry = .entry key value → Legible environment .operand value

theorem tellsApart_entry {entry : Phrase .entry}
    (values : ∀ key value, entry = .entry key value → Apart environment .operand value) :
    TellsApart environment.spell (Phrase.replace .bare) (HasValue environment)
      EndsOperand entry := by
  intro other rest otherRest hasValue ends otherEnds equal
  cases entry with
  | entry key value =>
      cases other with
      | entry otherKey otherValue =>
          rw [environment.spell_entry, environment.spell_entry, List.append_assoc,
            List.append_assoc] at equal
          have colon : ∀ tail, Ends Identifier.isInName (':' :: tail) := by
            rintro tail _ ⟨⟩
            rfl
          rcases Identifier.escape_append_inj (colon _) (colon _) equal with
            ⟨sameKey, equalValues⟩
          rcases values key value rfl (hasValue otherKey otherValue rfl) ends otherEnds
            (List.cons.inj (List.cons.inj equalValues).2).2 with ⟨sameValue, sameRest⟩
          exact ⟨congrArg₂ Phrase.entry sameKey sameValue, sameRest⟩

/-- Only an empty map has no blank behind its brace. -/
theorem spell_map_nil_ne (entry : Phrase .entry) (entries : Entries) (rest behind : List Char) :
    environment.spell (.map .nil) ++ rest ≠
      environment.spell (.map (.cons entry entries)) ++ behind := by
  rw [environment.spell_map_nil, environment.spell_map_cons]
  intro equal
  have blank := (List.cons.inj (List.cons.inj equal).2).1
  cases blank

theorem spell_map_inj {entries others : Entries}
    (apart : ∀ key value, .entry key value ∈ entries.toList →
      Apart environment .operand value)
    (otherLegible : ∀ key value, .entry key value ∈ others.toList →
      Legible environment .operand value) {rest otherRest : List Char}
    (equal : environment.spell (.map entries) ++ rest =
      environment.spell (.map others) ++ otherRest) :
    entries.replace .bare = others.replace .bare ∧ rest = otherRest := by
  cases entries with
  | nil =>
      cases others with
      | nil => exact ⟨rfl, List.append_cancel_left equal⟩
      | cons other others => exact absurd equal (spell_map_nil_ne other others _ _)
  | cons entry entries =>
      cases others with
      | nil => exact absurd equal.symm (spell_map_nil_ne entry entries _ _)
      | cons other others =>
          rw [environment.spell_map_cons, environment.spell_map_cons, List.cons_append,
            List.cons_append, List.cons_append, List.cons_append, List.append_assoc,
            List.append_assoc, List.append_assoc, List.append_assoc] at equal
          have blank : ∀ tail, EndsOperand ([' ', '\x7d'] ++ tail) := by
            rintro tail _ ⟨⟩
            decide
          have noComma : ∀ tail, Ends (· == ',') ([' ', '\x7d'] ++ tail) := by
            rintro tail _ ⟨⟩
            rfl
          have tellsApart : ∀ member ∈ (entry :: entries.toList),
              TellsApart environment.spell (Phrase.replace .bare) (HasValue environment)
                EndsOperand member := by
            intro member inside
            refine tellsApart_entry fun key value isEntry => ?_
            exact apart key value (isEntry ▸ inside)
          have candidates : ∀ member ∈ (other :: others.toList), HasValue environment member := by
            intro member inside key value isEntry
            exact otherLegible key value (isEntry ▸ inside)
          rcases TellsApart.separated endsOperand_comma tellsApart candidates (blank _) (blank _)
            (noComma _) (noComma _) (List.cons.inj (List.cons.inj equal).2).2 with
            ⟨sameEntries, sameRest⟩
          exact ⟨Phrase.replace_eq_of_map_eq sameEntries,
            (List.cons.inj (List.cons.inj sameRest).2).2⟩

end Entries

/-! ## Operations -/

namespace Operation

variable {operation other : Operation} {first second otherFirst otherSecond : Expression}
  {items others : Phrase (.many .expression)} {rest otherRest : List Char}

theorem endsPredicate (operation : Operation) (tail : List Char) :
    EndsPredicate (' ' :: (operation.sign.toList ++ [' ']) ++ tail) := by
  rw [List.cons_append, List.append_assoc]
  exact operation.isSign.endsPredicate _

/-- Behind the first operand of an operation stands the operator. -/
theorem endsPredicate_flatMap (operation : Operation) (second : Expression)
    (items : List Expression) (rest : List Char) :
    EndsPredicate ((second :: items).flatMap
      (' ' :: (operation.sign.toList ++ [' ']) ++ environment.spell ·) ++ rest) := by
  rw [List.flatMap_cons, List.append_assoc, List.append_assoc]
  exact operation.endsPredicate _

/-- What the first operand is shows where the operator begins, and then all the others are
told apart as well. -/
theorem spell_onto_inj
    (apart : ∀ item ∈ first :: second :: items.toList, Apart environment .predicate item)
    (legible : ∀ item ∈ otherFirst :: otherSecond :: others.toList,
      Legible environment .predicate item)
    (equal : environment.spell (operation.onto first second items) ++ rest =
      environment.spell (other.onto otherFirst otherSecond others) ++ otherRest) :
    operation = other ∧ first.replace .bare = otherFirst.replace .bare ∧
      second.replace .bare = otherSecond.replace .bare ∧
      items.replace .bare = others.replace .bare ∧ rest = otherRest := by
  rw [environment.spell_operation, environment.spell_operation, List.cons_append,
    List.cons_append, List.append_assoc, List.append_assoc, List.append_assoc,
    List.append_assoc] at equal
  have equalItems := (List.cons.inj equal).2
  have sameSign : operation.sign = other.sign := by
    rw [List.forall_mem_cons] at apart legible
    have equalTails := (apart.1 legible.1 (operation.endsPredicate_flatMap _ _ _)
      (other.endsPredicate_flatMap _ _ _) equalItems).2
    rw [List.flatMap_cons, List.flatMap_cons] at equalTails
    simp only [List.cons_append, List.append_assoc, List.nil_append] at equalTails
    exact operation.isSign.append_inj other.isSign (List.cons.inj equalTails).2
  rw [sameSign] at equalItems
  have closes : ∀ rest, EndsPredicate ([')'] ++ rest) := fun rest => .close rest
  have noBlank : ∀ rest, Ends (· == ' ') ([')'] ++ rest) := by
    rintro rest _ ⟨⟩
    rfl
  rcases TellsApart.separated other.endsPredicate apart legible (closes rest) (closes otherRest)
    (noBlank rest) (noBlank otherRest) equalItems with ⟨sameItems, sameRest⟩
  rcases List.cons.inj sameItems with ⟨sameFirst, sameTail⟩
  rcases List.cons.inj sameTail with ⟨sameSecond, sameOthers⟩
  exact ⟨sign_inj sameSign, sameFirst, sameSecond, Phrase.replace_eq_of_map_eq sameOthers,
    (List.cons.inj sameRest).2⟩

/-- A predicate in parentheses of its own is no operation, because no operator follows. -/
theorem parentheses_ne_spell_onto (operation : Operation) {predicate : Expression}
    (tell : ∀ {rest otherRest}, EndsPredicate rest → EndsPredicate otherRest →
      environment.spell predicate ++ rest = environment.spell first ++ otherRest →
      rest = otherRest) :
    '(' :: (environment.spell predicate ++ [')']) ++ rest ≠
      environment.spell (operation.onto first second items) ++ otherRest := by
  intro equal
  rw [environment.spell_operation, List.cons_append, List.cons_append, List.append_assoc,
    List.append_assoc, List.append_assoc] at equal
  have sameRest := tell (.close rest) (operation.endsPredicate_flatMap _ _ _)
    (List.cons.inj equal).2
  rw [List.flatMap_cons] at sameRest
  cases (List.cons.inj sameRest).1

end Operation

end Cypher
