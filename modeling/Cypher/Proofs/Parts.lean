import Cypher.Proofs.Rendering

/-! The parts of a phrase. A property of whole trees is often a property that every
part has, or a count of the parts that have it. -/

namespace Cypher

/-- A phrase of any category. -/
inductive Part where
  | of (phrase : Phrase category)

namespace Phrase

/-- The phrase itself and all phrases inside, from the outside to the inside. -/
def parts : {category : Category} → Phrase category → List Part
  | .many element, nil => [.of (nil : Phrase (.many element))]
  | _, cons head tail => .of (cons head tail) :: (head.parts ++ tail.parts)
  | .maybe category, absent => [.of (absent : Phrase (.maybe category))]
  | _, present content => .of (present content) :: content.parts
  /- Expressions. -/
  | _, mention binder => [.of (mention binder)]
  | _, placeholder parameter => [.of (placeholder parameter)]
  | _, literal value => [.of (literal value)]
  | _, property base key => .of (property base key) :: base.parts
  | _, subscript base index => .of (subscript base index) :: (base.parts ++ index.parts)
  | _, list items => .of (list items) :: items.parts
  | _, map entries => .of (map entries) :: entries.parts
  | _, connective operator first second rest =>
      .of (connective operator first second rest) ::
        (first.parts ++ second.parts ++ rest.parts)
  | _, negation operand => .of (negation operand) :: operand.parts
  | _, comparison comparator left right =>
      .of (comparison comparator left right) :: (left.parts ++ right.parts)
  | _, arithmetic operator first second rest =>
      .of (arithmetic operator first second rest) ::
        (first.parts ++ second.parts ++ rest.parts)
  | _, negative operand => .of (negative operand) :: operand.parts
  | _, call callee => .of (call callee) :: callee.parts
  | _, choose alternatives => .of (choose alternatives) :: alternatives.parts
  | _, nameTest test target first rest => [.of (nameTest test target first rest)]
  | _, patternQuery kind body => .of (patternQuery kind body) :: body.parts
  | _, chainQuery kind body => .of (chainQuery kind body) :: body.parts
  | _, gather selection => .of (gather selection) :: selection.parts
  | _, raw fragment => .of (raw fragment) :: fragment.parts
  | _, entry key value => .of (entry key value) :: value.parts
  | _, function name distinct arguments =>
      .of (function name distinct arguments) :: arguments.parts
  | _, starFunction name => [.of (starFunction name)]
  | _, choice subject branches default =>
      .of (choice subject branches default) ::
        (subject.parts ++ branches.parts ++ default.parts)
  | _, branch condition result =>
      .of (branch condition result) :: (condition.parts ++ result.parts)
  | _, comprehension member source filter result =>
      .of (comprehension member source filter result) ::
        (source.parts ++ filter.parts ++ result.parts)
  /- Patterns. -/
  | _, node binder labels properties predicate =>
      .of (node binder labels properties predicate) :: (properties.parts ++ predicate.parts)
  | _, relationship binder types direction length properties predicate =>
      .of (relationship binder types direction length properties predicate) ::
        (predicate.parts ++ properties.parts)
  | _, hop edge target => .of (hop edge target) :: (edge.parts ++ target.parts)
  | _, pattern start hops => .of (pattern start hops) :: (start.parts ++ hops.parts)
  | _, once body => .of (once body) :: body.parts
  | _, repeated body quantifier => .of (repeated body quantifier) :: body.parts
  | _, path binder first rest => .of (path binder first rest) :: (first.parts ++ rest.parts)
  /- Columns and their order. -/
  | _, column value => .of (column value) :: value.parts
  | _, renamed value newName => .of (renamed value newName) :: value.parts
  | _, projection star columns => .of (projection star columns) :: columns.parts
  | _, sortKey key direction => .of (sortKey key direction) :: key.parts
  | _, rowOrder keys skip limit =>
      .of (rowOrder keys skip limit) :: (keys.parts ++ skip.parts ++ limit.parts)
  /- Changes to the graph. -/
  | _, assign target value => .of (assign target value) :: (target.parts ++ value.parts)
  | _, extend target value => .of (extend target value) :: value.parts
  | _, addLabels target labels => [.of (addLabels target labels)]
  | _, removeProperty target => .of (removeProperty target) :: target.parts
  | _, removeLabels target labels => [.of (removeLabels target labels)]
  | _, set first rest => .of (set first rest) :: (first.parts ++ rest.parts)
  | _, remove first rest => .of (remove first rest) :: (first.parts ++ rest.parts)
  | _, deletion detach targets => .of (deletion detach targets) :: targets.parts
  /- Clauses. -/
  | _, matching optional selector first rest filter updates deleted =>
      .of (matching optional selector first rest filter updates deleted) ::
        (first.parts ++ rest.parts ++ filter.parts ++ updates.parts ++ deleted.parts)
  | _, creating first rest updates =>
      .of (creating first rest updates) :: (first.parts ++ rest.parts ++ updates.parts)
  | _, merging target onCreate onMatch updates =>
      .of (merging target onCreate onMatch updates) ::
        (target.parts ++ onCreate.parts ++ onMatch.parts ++ updates.parts)
  | _, passing distinct columns order filter =>
      .of (passing distinct columns order filter) ::
        (columns.parts ++ order.parts ++ filter.parts)
  | _, returning distinct columns order =>
      .of (returning distinct columns order) :: (columns.parts ++ order.parts)
  | _, unwinding source member updates deleted =>
      .of (unwinding source member updates deleted) ::
        (source.parts ++ updates.parts ++ deleted.parts)
  | _, calling imports body transactions =>
      .of (calling imports body transactions) ::
        (imports.parts ++ body.parts ++ transactions.parts)
  | _, procedure name arguments yields filter =>
      .of (procedure name arguments yields filter) :: (arguments.parts ++ filter.parts)
  | _, iterating member source body =>
      .of (iterating member source body) :: (source.parts ++ body.parts)
  | _, union all queries => .of (union all queries) :: queries.parts
  | _, deleting deleted => .of (deleting deleted) :: deleted.parts
  | _, finish => [.of finish]
  | _, rawClause fragment => .of (rawClause fragment) :: fragment.parts
  | _, last clause => .of (last clause) :: clause.parts
  | _, link clause rest => .of (link clause rest) :: (clause.parts ++ rest.parts)
  /- Fragments. -/
  | _, verbatim content => [.of (verbatim content)]
  | _, computed pieces => .of (computed pieces) :: pieces.parts
  | _, textPiece content => [.of (textPiece content)]
  | _, labelPiece name => [.of (labelPiece name)]
  | _, phrasePiece content => .of (phrasePiece content) :: content.parts
  | _, unwrittenPiece content => .of (unwrittenPiece content) :: content.parts
  | _, failure message => [.of (failure message)]

/-- A phrase is the first of its parts. -/
theorem of_mem_parts (phrase : Phrase category) : .of phrase ∈ phrase.parts := by
  cases phrase <;> exact List.mem_cons_self

end Phrase

/-! ## Parameters -/

def Part.parameter? : Part → Option Parameter
  | .of (.placeholder parameter) => some parameter
  | _ => none

/-- All mentions of parameters in a phrase. -/
def Phrase.placeholders (phrase : Phrase category) : List Parameter :=
  phrase.parts.filterMap Part.parameter?

def Item.placeholder? : Item → Option Parameter
  | placeholder parameter => some parameter
  | unwritten item => item.placeholder?
  | mention _ | newName _ _ | data _ | fault _ => none

namespace Reading

/-- All mentions of parameters that are met. -/
def placeholders (reading : Reading) : List Parameter :=
  reading.filterMap (·.2.placeholder?)

@[simp] theorem placeholders_nil : placeholders [] = [] := rfl

@[simp] theorem placeholders_cons (entry : Nat × Item) (rest : Reading) :
    placeholders (entry :: rest) = entry.2.placeholder?.toList ++ placeholders rest := by
  cases found : entry.2.placeholder? <;> simp [placeholders, found]

@[simp] theorem placeholders_append (first second : Reading) :
    placeholders (first ++ second) = placeholders first ++ placeholders second :=
  List.filterMap_append

@[simp] theorem placeholders_unwritten (reading : Reading) :
    placeholders reading.unwritten = placeholders reading :=
  List.filterMap_map

@[simp] theorem fault?_nil : fault? [] = none := rfl

@[simp] theorem fault?_cons_eq_none (entry : Nat × Item) (rest : Reading) :
    fault? (entry :: rest) = none ↔ entry.2.fault? = none ∧ fault? rest = none := by
  cases found : entry.2.fault? <;> simp [fault?, found]

@[simp] theorem fault?_append_eq_none (first second : Reading) :
    fault? (first ++ second) = none ↔ fault? first = none ∧ fault? second = none := by
  rw [fault?_append, Option.or_eq_none_iff]

@[simp] theorem fault?_ofBinder (depth : Nat) (binder : Option Variable) :
    fault? (Item.ofBinder depth binder) = none := by
  cases binder <;> rfl

@[simp] theorem placeholders_ofBinder (depth : Nat) (binder : Option Variable) :
    placeholders (Item.ofBinder depth binder) = [] := by
  cases binder <;> rfl

@[simp] theorem placeholders_ofYields (depth : Nat) (yields : List Yield) :
    placeholders (yields.flatMap (Item.ofYield depth)) = [] := by
  induction yields with
  | nil => rfl
  | cons column rest induction =>
      simp [Item.ofYield, induction, Item.placeholder?]

end Reading

namespace Phrase

/-- A reading without a fault meets all parameters of the phrase. -/
theorem placeholders_reading (phrase : Phrase category) : ∀ {depth : Nat},
    (phrase.reading depth).fault? = none →
      (phrase.reading depth).placeholders = phrase.placeholders := by
  induction phrase with
  | branch condition result conditionInduction resultInduction =>
      intro depth faultless
      cases result with
      | absent => simp [reading, Item.fault?] at faultless
      | present result =>
          simp_all [placeholders, parts, reading, Part.parameter?, List.filterMap_cons]
  | matching optional selector first rest filter updates deleted firstInduction restInduction
      filterInduction updatesInduction deletionInduction =>
      intro depth faultless
      cases faulty : selectorFault selector (rest.toList.length + 1) with
      | some error => simp [reading, faulty, Item.fault?] at faultless
      | none =>
          simp_all [placeholders, parts, reading, Part.parameter?, List.filterMap_cons]
  | _ =>
      intro depth faultless
      simp only [reading, Item.ofNames, Reading.fault?_append_eq_none,
        Reading.fault?_cons_eq_none, Reading.fault?_ofBinder, Reading.fault?_nil,
        Reading.fault?_unwritten] at faultless
      simp only [placeholders, parts, reading, Part.parameter?, Item.placeholder?,
        List.filterMap_cons, List.filterMap_append, List.filterMap_nil, Item.ofNames,
        Reading.placeholders_append, Reading.placeholders_cons, Reading.placeholders_nil,
        Reading.placeholders_ofBinder, Reading.placeholders_ofYields,
        Reading.placeholders_unwritten, Option.toList_none, Option.toList_some, List.nil_append, List.append_nil] at * <;>
        simp_all only

end Phrase

/-! ## Tame phrases -/

/-- A name is written as it stands, so it should not hold a mark. -/
def isUnmarked (name : String) : Bool :=
  !name.toList.contains Identifier.backtick

/-- The part neither takes text as it stands nor calls anything by a name with a mark, and
is written. -/
def Part.isTame : Part → Bool
  | .of (.raw _) => false
  | .of (.rawClause _) => false
  | .of (.function name _ _) => isUnmarked name
  | .of (.starFunction name) => isUnmarked name
  | .of (.procedure name _ _ _) => isUnmarked name
  | .of (.unwrittenPiece _) => false
  | _ => true

/-- All parts of the phrase are tame. -/
def Phrase.Tame (phrase : Phrase category) : Prop :=
  ∀ part ∈ phrase.parts, part.isTame

instance (phrase : Phrase category) : Decidable phrase.Tame :=
  inferInstanceAs (Decidable (∀ part ∈ phrase.parts, part.isTame))

/-- The item is written, and a new name stands for a tame expression. -/
def Item.IsTame : Item → Prop
  | newName _ layout => ∃ value : Expression, value.Tame ∧ layout = value.layout
  | unwritten _ => False
  | mention _ | placeholder _ | data _ | fault _ => True

/-- All items of the reading are tame. -/
def Reading.IsTame (reading : Reading) : Prop :=
  ∀ entry ∈ reading, entry.2.IsTame

namespace Reading

@[simp] theorem isTame_nil : IsTame [] := by simp [IsTame]

@[simp] theorem isTame_append (first second : Reading) :
    IsTame (first ++ second) ↔ IsTame first ∧ IsTame second := by
  simp only [IsTame, List.forall_mem_append]

@[simp] theorem isTame_cons (entry : Nat × Item) (rest : Reading) :
    IsTame (entry :: rest) ↔ entry.2.IsTame ∧ IsTame rest := by
  simp only [IsTame, List.forall_mem_cons]

@[simp] theorem isTame_ofBinder (depth : Nat) (binder : Option Variable) :
    IsTame (Item.ofBinder depth binder) := by
  cases binder <;> simp [Item.ofBinder, Item.IsTame]

@[simp] theorem isTame_ofYields (depth : Nat) (yields : List Yield) :
    IsTame (yields.flatMap (Item.ofYield depth)) := by
  induction yields with
  | nil => simp
  | cons column rest induction =>
      simp [Item.ofYield, Item.IsTame, induction]

end Reading

namespace Phrase

/-- The values of new names are parts of the phrase, so they are as tame as it is. -/
theorem isTame_reading (phrase : Phrase category) : ∀ {depth : Nat},
    phrase.Tame → (phrase.reading depth).IsTame := by
  induction phrase with
  | branch condition result conditionInduction resultInduction =>
      intro depth tame
      cases result with
      | absent => simp [reading, Item.IsTame]
      | present result =>
          simp_all [Tame, parts, reading]
  | matching optional selector first rest filter updates deleted firstInduction restInduction
      filterInduction updatesInduction deletionInduction =>
      intro depth tame
      cases faulty : selectorFault selector (rest.toList.length + 1) <;>
        simp_all [Tame, parts, reading, Item.IsTame, or_imp, forall_and]
  | renamed value newName induction =>
      intro depth tame
      have valueTame : value.Tame := by simp_all [Tame, parts, or_imp, forall_and]
      simp only [reading, Reading.isTame_append, Reading.isTame_cons, Reading.isTame_nil,
        and_true]
      exact ⟨induction valueTame, value, valueTame, rfl⟩
  | unwrittenPiece content induction =>
      intro depth tame
      cases tame _ List.mem_cons_self
  | _ =>
      intro depth tame
      simp only [Tame, parts, List.forall_mem_cons, List.forall_mem_append] at *
      simp_all [reading, Item.ofNames, Item.IsTame]

end Phrase

end Cypher
