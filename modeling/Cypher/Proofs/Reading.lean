import Cypher.Phrase.Layout

/-! The reading of a tree: what a rendering meets, in order.

A reading lists the variables, the parameters, the data and the faults of a
tree from left to right, each with the number of blocks around it. Keywords and
punctuation are left out, and so is text that is taken as it stands. The reading
of a phrase is given without its layout; the two are shown to agree. -/

namespace Cypher

/-! ## Readings -/

/-- What a rendering can meet. A new name is listed with the layout it stands
for. -/
inductive Item where
  | mention (binder : Variable)
  | newName (binder : Variable) (value : Layout)
  | placeholder (parameter : Parameter)
  | data (content : Leaf)
  | fault (error : RenderError)
  /-- An item that is met and not written. -/
  | unwritten (item : Item)

/-- Items in reading order, with the number of blocks around each. -/
abbrev Reading := List (Nat × Item)

/-- The same items, none of them written. -/
def Reading.unwritten (reading : Reading) : Reading :=
  reading.map fun entry => (entry.1, .unwritten entry.2)

namespace Layout

/-- Text that is taken as it stands carries no data. -/
def leafReading (depth : Nat) : Leaf → Reading
  | .text _ => []
  | content => [(depth, .data content)]

def reading (depth : Nat) : Layout → Reading
  | leaf content => leafReading depth content
  | mention binder => [(depth, .mention binder)]
  | placeholder parameter => [(depth, .placeholder parameter)]
  | fault error => [(depth, .fault error)]
  | append first second => first.reading depth ++ second.reading depth
  | stack upper lower => upper.reading depth ++ lower.reading depth
  | indent body => body.reading (depth + 1)
  | aliased value newName => value.reading depth ++ [(depth, .newName newName value)]
  | trimStart body => body.reading depth
  | verbatim upper lower => upper.reading depth ++ lower.reading depth
  | unwritten body => (body.reading depth).unwritten

end Layout

/-! ## Phrases

The order of the items is the order of the finished text. Blocks are the bodies
of subqueries and of iterations, lists of assignments, and the branches of a
choice. -/

namespace Item

def ofNames (test : NameTest) (names : List String) : Item :=
  .data (match test with
    | .labels => .labels names
    | .types => .relationshipTypes names)

def ofBinder (depth : Nat) : Option Variable → Reading
  | none => []
  | some binder => [(depth, .mention binder)]

def ofYield (depth : Nat) (column : Yield) : Reading :=
  (depth, .data (.identifier column.column)) :: ofBinder depth column.newName

end Item

/-- What is wrong with a selector in front of `count` paths. -/
def selectorFault (selector : Option PathSelector) (count : Nat) : Option RenderError :=
  match selector with
  | none => none
  | some selector =>
      if 1 < count then some (.selectorWithMultiplePatterns selector count) else none

namespace Phrase

def reading : {category : Category} → Nat → Phrase category → Reading
  | _, _, nil => []
  | _, depth, cons head tail => head.reading depth ++ tail.reading depth
  | _, _, absent => []
  | _, depth, present content => content.reading depth
  /- Expressions. -/
  | _, depth, mention binder => [(depth, .mention binder)]
  | _, depth, placeholder parameter => [(depth, .placeholder parameter)]
  | _, depth, literal value => [(depth, .data (.literal value))]
  | _, depth, property base key => base.reading depth ++ [(depth, .data (.identifier key))]
  | _, depth, subscript base index => base.reading depth ++ index.reading depth
  | _, depth, list items => items.reading depth
  | _, depth, map entries => entries.reading depth
  | _, depth, connective _ first second rest =>
      first.reading depth ++ second.reading depth ++ rest.reading depth
  | _, depth, negation operand => operand.reading depth
  | _, depth, comparison _ left right => left.reading depth ++ right.reading depth
  | _, depth, arithmetic _ first second rest =>
      first.reading depth ++ second.reading depth ++ rest.reading depth
  | _, depth, negative operand => operand.reading depth
  | _, depth, call callee => callee.reading depth
  | _, depth, choose alternatives => alternatives.reading depth
  | _, depth, nameTest test target first rest =>
      [(depth, .mention target), (depth, Item.ofNames test (first :: rest))]
  | _, depth, patternQuery _ body => body.reading depth
  | _, depth, chainQuery _ body => body.reading (depth + 1)
  | _, depth, gather selection => selection.reading depth
  | _, depth, raw fragment => fragment.reading depth
  | _, depth, entry key value => (depth, .data (.identifier key)) :: value.reading depth
  | _, depth, function _ _ arguments => arguments.reading depth
  | _, _, starFunction _ => []
  | _, depth, choice subject branches default =>
      subject.reading depth ++ branches.reading (depth + 1) ++ default.reading (depth + 1)
  /- A branch without a result fails before its condition is read. -/
  | _, depth, branch _ absent => [(depth, .fault .caseWithoutThen)]
  | _, depth, branch condition (present result) =>
      condition.reading depth ++ result.reading depth
  | _, depth, comprehension member source filter result =>
      (depth, .mention member) ::
        (source.reading depth ++ filter.reading depth ++ result.reading depth)
  /- Patterns. -/
  | _, depth, node binder labels properties predicate =>
      Item.ofBinder depth binder ++ [(depth, .data (.labels labels))] ++
        properties.reading depth ++ predicate.reading depth
  | _, depth, relationship binder types _ _ properties predicate =>
      Item.ofBinder depth binder ++ [(depth, .data (.relationshipTypes types))] ++
        predicate.reading depth ++ properties.reading depth
  | _, depth, hop edge target => edge.reading depth ++ target.reading depth
  | _, depth, pattern start hops => start.reading depth ++ hops.reading depth
  | _, depth, once body => body.reading depth
  | _, depth, repeated body _ => body.reading depth
  | _, depth, path binder first rest =>
      Item.ofBinder depth binder ++ first.reading depth ++ rest.reading depth
  /- Columns and their order. -/
  | _, depth, column value => value.reading depth
  | _, depth, renamed value newName =>
      value.reading depth ++ [(depth, .newName newName value.layout)]
  | _, depth, projection _ columns => columns.reading depth
  | _, depth, sortKey key _ => key.reading depth
  | _, depth, rowOrder keys skip limit =>
      keys.reading depth ++ skip.reading depth ++ limit.reading depth
  /- Changes to the graph. -/
  | _, depth, assign target value => target.reading depth ++ value.reading depth
  | _, depth, extend target value => (depth, .mention target) :: value.reading depth
  | _, depth, addLabels target labels =>
      [(depth, .mention target), (depth, .data (.labels labels))]
  | _, depth, removeProperty target => target.reading depth
  | _, depth, removeLabels target labels =>
      [(depth, .mention target), (depth, .data (.labels labels))]
  | _, depth, set first rest => first.reading (depth + 1) ++ rest.reading (depth + 1)
  | _, depth, remove first rest => first.reading depth ++ rest.reading depth
  | _, depth, deletion _ targets => targets.reading depth
  /- Clauses. A selector that does not fit its paths fails before they are read. -/
  | _, depth, matching _ selector first rest filter updates deleted =>
      (match selectorFault selector (rest.toList.length + 1) with
        | some error => [(depth, .fault error)]
        | none => first.reading depth ++ rest.reading depth) ++
        filter.reading depth ++ updates.reading depth ++ deleted.reading depth
  | _, depth, creating first rest updates =>
      first.reading depth ++ rest.reading depth ++ updates.reading depth
  | _, depth, merging target onCreate onMatch updates =>
      target.reading depth ++ onCreate.reading (depth + 1) ++ onMatch.reading (depth + 1) ++
        updates.reading depth
  | _, depth, passing _ columns order filter =>
      columns.reading depth ++ order.reading depth ++ filter.reading depth
  | _, depth, returning _ columns order => columns.reading depth ++ order.reading depth
  | _, depth, unwinding source member updates deleted =>
      source.reading depth ++ [(depth, .mention member)] ++ updates.reading depth ++
        deleted.reading depth
  | _, depth, calling imports body transactions =>
      imports.reading (depth + 1) ++ body.reading (depth + 1) ++ transactions.reading depth
  | _, depth, procedure _ arguments yields filter =>
      arguments.reading depth ++ yields.flatMap (Item.ofYield depth) ++ filter.reading depth
  | _, depth, iterating member source body =>
      (depth, .mention member) :: (source.reading depth ++ body.reading (depth + 1))
  | _, depth, union _ queries => queries.reading depth
  | _, depth, deleting deleted => deleted.reading depth
  | _, _, finish => []
  | _, depth, rawClause fragment => fragment.reading depth
  | _, depth, last clause => clause.reading depth
  | _, depth, link clause rest => clause.reading depth ++ rest.reading depth
  /- Fragments. -/
  | _, _, verbatim _ => []
  | _, depth, computed pieces => pieces.reading depth
  | _, _, textPiece _ => []
  | _, depth, labelPiece name => [(depth, .data (.label name))]
  | _, depth, phrasePiece content => content.reading depth
  | _, depth, unwrittenPiece content => (content.reading depth).unwritten
  | _, depth, failure text => [(depth, .fault (.raw text))]

end Phrase

/-! ## The layouts of a phrase -/

namespace Category

/-- The layouts that the layout of a phrase consists of, in reading order. -/
def parts : (category : Category) → category.Layout → List Cypher.Layout
  | many element, layouts => layouts.flatMap element.parts
  | maybe content, layout => layout.toList.flatMap content.parts
  | path, layout => [layout.assignment, layout.segments]
  | clause, .line content => [content]
  | clause, .skipped => []
  | clause, .verbatim content => [content]
  | rowOrder, layouts => layouts
  | deletion, layout => layout.toList
  | expression, layout | entry, layout | function, layout | choice, layout | branch, layout
  | comprehension, layout | node, layout | relationship, layout | hop, layout
  | pattern, layout | segment, layout | column, layout | projection, layout
  | sortKey, layout | assignment, layout | removal, layout | update, layout | chain, layout
  | fragment, layout | piece, layout => [layout]

end Category

namespace Layout

/-! ## The reading of composed layouts -/

variable (depth : Nat)

@[simp] theorem reading_text (content : String) : (text content).reading depth = [] := rfl

@[simp] theorem reading_empty : empty.reading depth = [] := rfl

@[simp] theorem reading_append (first second : Layout) :
    (first ++ second).reading depth = first.reading depth ++ second.reading depth := rfl

@[simp] theorem reading_joined (separator : String) (layouts : List Layout) :
    (joined separator layouts).reading depth = layouts.flatMap (reading depth) := by
  induction layouts with
  | nil => rfl
  | cons head tail induction =>
      cases tail with
      | nil => simp [joined]
      | cons next rest => simp [joined, induction]

@[simp] theorem reading_lines (layouts : List Layout) :
    (lines layouts).reading depth = layouts.flatMap (reading depth) :=
  reading_joined depth "\n" layouts

@[simp] theorem reading_optional (lead : String) (layout : Option Layout) :
    (optional lead layout).reading depth = layout.toList.flatMap (reading depth) := by
  cases layout <;> simp [optional]

@[simp] theorem reading_block (body : Layout) :
    (block body).reading depth = body.reading (depth + 1) := by
  simp [block, reading]

@[simp] theorem reading_map (entries : List Layout) :
    (map entries).reading depth = entries.flatMap (reading depth) := by
  cases entries <;> simp [map]

@[simp] theorem reading_operation (operator : String) (operands : List Layout) :
    (operation operator operands).reading depth = operands.flatMap (reading depth) := by
  simp [operation]

@[simp] theorem reading_binder (binder? : Option Variable) :
    (binder binder?).reading depth = Item.ofBinder depth binder? := by
  cases binder? <;> rfl

@[simp] theorem reading_pathLength (length : Option PathLength) :
    (pathLength length).reading depth = [] := by
  cases length <;> rfl

@[simp] theorem reading_names (test : NameTest) (names : List String) :
    (Layout.names test names).reading depth = [(depth, Item.ofNames test names)] := by
  cases test <;> rfl

@[simp] theorem reading_after (lead : String) (layout : Layout) :
    (after lead layout).reading depth = layout.reading depth := by
  simp [after]

@[simp] theorem reading_choice (subject : Option Layout) (branches : List Layout)
    (default : Option Layout) :
    (Layout.choice subject branches default).reading depth =
      subject.toList.flatMap (reading depth) ++ branches.flatMap (reading (depth + 1)) ++
        default.toList.flatMap (reading (depth + 1)) := by
  cases branches <;> cases default <;> simp [Layout.choice, reading]

@[simp] theorem reading_yield (column : Yield) :
    (yield column).reading depth = Item.ofYield depth column := by
  rcases column with ⟨name, newName⟩
  cases newName <;> rfl

@[simp] theorem reading_yields (columns : List Yield) :
    (yields columns).reading depth = columns.flatMap (Item.ofYield depth) := by
  cases columns <;> simp [yields, List.flatMap_map]

@[simp] theorem reading_assignments (keyword : String) (items : List Layout) :
    (assignments keyword items).toList.flatMap (reading depth) =
      items.flatMap (reading (depth + 1)) := by
  cases items <;> simp [assignments, reading]

@[simp] theorem reading_condition (filter : Option Layout) :
    (condition filter).toList.flatMap (reading depth) =
      filter.toList.flatMap (reading depth) := by
  cases filter <;> simp [condition]

@[simp] theorem reading_projection (star : Bool) (columns : List Layout) :
    (Layout.projection star columns).reading depth = columns.flatMap (reading depth) := by
  cases star <;> cases columns <;> simp [Layout.projection]

@[simp] theorem reading_projected (keyword : String) (distinct : Bool) (columns : Layout) :
    (projected keyword distinct columns).reading depth = columns.reading depth := by
  cases distinct <;> simp [projected]

@[simp] theorem reading_transactions (rows : Option (Option Layout)) :
    (transactions rows).reading depth =
      (rows.toList.flatMap Option.toList).flatMap (reading depth) := by
  rcases rows with _ | _ | rows <;> simp [transactions]

@[simp] theorem reading_subquery (imports : Option Layout) (body : Layout) :
    (subquery imports body).reading depth =
      imports.toList.flatMap (reading depth) ++ body.reading depth := by
  cases imports <;> simp [subquery, reading]

@[simp] theorem reading_union (all : Bool) (queries : List Layout) :
    (Layout.union all queries).reading depth = queries.flatMap (reading depth) := by
  simp [Layout.union]

end Layout

namespace PathLayout

@[simp] theorem reading_layout (depth : Nat) (path : PathLayout)
    (selector : Option PathSelector) :
    (path.layout selector).reading depth =
      path.assignment.reading depth ++ path.segments.reading depth := by
  cases selector <;> simp [layout]

theorem reading_select (depth : Nat) (selector : Option PathSelector)
    (paths : List PathLayout) :
    (select selector paths).reading depth =
      match selectorFault selector paths.length with
      | some error => [(depth, .fault error)]
      | none => paths.flatMap fun path =>
          path.assignment.reading depth ++ path.segments.reading depth := by
  cases selector with
  | none => simp [select, selectorFault, List.flatMap_map]
  | some selector =>
      by_cases several : 1 < paths.length <;>
        simp [select, selectorFault, several, List.flatMap_map, Layout.reading]

end PathLayout

namespace Category

/-- Nothing is added or lost when a phrase stands on its own. -/
theorem reading_alone (depth : Nat) : ∀ (category : Category) (layout : category.Layout),
    (category.alone layout).reading depth =
      (category.parts layout).flatMap (Layout.reading depth)
  | many element, layouts => by
      simp only [alone, parts, Layout.reading_joined, List.flatMap_map, List.flatMap_assoc]
      have same : (fun layout => (element.alone layout).reading depth) =
          fun layout => (element.parts layout).flatMap (Layout.reading depth) := by
        funext layout
        exact reading_alone depth element layout
      exact congrArg (List.flatMap · layouts) same
  | maybe content, none => rfl
  | maybe content, some layout => by
      simpa [alone, parts] using reading_alone depth content layout
  | path, layout => by simp [alone, parts]
  | clause, .line content => by simp [alone, parts, ClauseLayout.alone]
  | clause, .skipped => rfl
  | clause, .verbatim content => by simp [alone, parts, ClauseLayout.alone]
  | rowOrder, layouts => by simp [alone, parts]
  | deletion, none => rfl
  | deletion, some layout => by simp [alone, parts]
  | expression, layout | entry, layout | function, layout | choice, layout | branch, layout
  | comprehension, layout | node, layout | relationship, layout | hop, layout
  | pattern, layout | segment, layout | column, layout | projection, layout
  | sortKey, layout | assignment, layout | removal, layout | update, layout | chain, layout
  | fragment, layout | piece, layout => by simp [alone, parts]

end Category

namespace Phrase

/-- The layouts of a phrase are read in the order of the phrase. -/
theorem reading_parts (phrase : Phrase category) : ∀ depth,
    (category.parts phrase.layout).flatMap (Layout.reading depth) = phrase.reading depth := by
  induction phrase with
  | negation operand induction =>
      intro depth
      simp only [Category.parts, List.flatMap_singleton] at induction ⊢
      cases connective : operand.isConnective <;>
        simp [layout, reading, connective, induction]
  | branch condition result conditionInduction resultInduction =>
      intro depth
      cases result with
      | absent => simp [Category.parts, layout, reading, Layout.branch, Layout.reading]
      | present result =>
          simp_all [Category.parts, layout, reading, Layout.branch]
  | node binder labels properties predicate propertiesInduction predicateInduction =>
      intro depth
      cases entries : properties.layout <;>
        simp_all [Category.parts, layout, reading, Layout.reading, Layout.leafReading]
  | relationship binder types direction length properties predicate propertiesInduction
      predicateInduction =>
      intro depth
      cases entries : properties.layout <;>
        simp_all [Category.parts, layout, reading, Layout.reading, Layout.leafReading]
  | hop edge target edgeInduction targetInduction =>
      intro depth
      cases target <;> simp_all [Category.parts, layout, reading]
  | path binder first rest firstInduction restInduction =>
      intro depth
      cases binder <;>
        simp_all [Category.parts, layout, reading, Layout.reading, Item.ofBinder]
  | rowOrder keys skip limit keysInduction skipInduction limitInduction =>
      intro depth
      cases keyLayouts : keys.layout <;> cases skipLayout : skip.layout <;>
        cases limitLayout : limit.layout <;>
        simp_all [Category.parts, layout, reading]
  | deletion detach targets induction =>
      intro depth
      cases layouts : targets.layout <;> simp_all [Category.parts, layout, reading]
  | matching optional selector first rest filter updates deleted firstInduction restInduction
      filterInduction updatesInduction deletionInduction =>
      intro depth
      have count : rest.layout.length = rest.toList.length := by
        rw [layout_eq_map, List.length_map]
      simp_all [Category.parts, layout, reading, PathLayout.reading_select,
        List.flatMap_assoc]
  | creating first rest updates firstInduction restInduction updatesInduction =>
      intro depth
      simp_all [Category.parts, layout, reading, List.flatMap_map, List.flatMap_assoc]
  | deleting deleted induction =>
      intro depth
      cases content : deleted.layout <;> simp_all [Category.parts, layout, reading]
  | last clause induction =>
      intro depth
      cases content : clause.layout <;>
        simp_all [Category.parts, layout, reading, ClauseLayout.alone]
  | link clause rest clauseInduction restInduction =>
      intro depth
      cases content : clause.layout <;>
        simp_all [Category.parts, layout, reading, Layout.reading, ClauseLayout.followedBy]
  | phrasePiece content induction =>
      intro depth
      simp only [Category.parts, layout, reading, List.flatMap_singleton, Category.reading_alone,
        induction]
  | unwrittenPiece content induction =>
      intro depth
      simp only [Category.parts, layout, reading, List.flatMap_singleton, Layout.reading,
        Category.reading_alone, induction]
  | _ =>
      intro depth
      simp_all [Category.parts, layout, reading, Layout.reading, Layout.leafReading]

theorem reading_whole (phrase : Phrase category) (depth : Nat) :
    phrase.whole.reading depth = phrase.reading depth := by
  rw [whole, Category.reading_alone, reading_parts]

end Phrase

end Cypher
