import Cypher.Proofs.Parts

/-! Replacing the variables and parameters of a tree. Replacing them in a phrase is
the same as replacing them in its layout. -/

namespace Cypher

/-- Other variables for the variables of a tree, and other parameters or literals for
its parameters. -/
structure Replacement where
  ofVariable : Variable → Variable := id
  ofParameter : Parameter → Parameter ⊕ Value := .inl

namespace Replacement

variable (change : Replacement)

def ofYield (column : Yield) : Yield :=
  { column with newName := column.newName.map change.ofVariable }

def placeholderPhrase (parameter : Parameter) : Expression :=
  match change.ofParameter parameter with
  | .inl parameter => .placeholder parameter
  | .inr value => .literal value

def placeholderLayout (parameter : Parameter) : Layout :=
  match change.ofParameter parameter with
  | .inl parameter => .placeholder parameter
  | .inr value => .leaf (.literal value)

end Replacement

namespace Phrase

def replace (change : Replacement) : {category : Category} → Phrase category → Phrase category
  | _, nil => nil
  | _, cons head tail => cons (head.replace change) (tail.replace change)
  | _, absent => absent
  | _, present content => present (content.replace change)
  /- Expressions. -/
  | _, mention binder => mention (change.ofVariable binder)
  | _, placeholder parameter => change.placeholderPhrase parameter
  | _, literal value => literal value
  | _, property base key => property (base.replace change) key
  | _, subscript base index => subscript (base.replace change) (index.replace change)
  | _, list items => list (items.replace change)
  | _, map entries => map (entries.replace change)
  | _, connective operator first second rest =>
      connective operator (first.replace change) (second.replace change) (rest.replace change)
  | _, negation operand => negation (operand.replace change)
  | _, comparison comparator left right =>
      comparison comparator (left.replace change) (right.replace change)
  | _, arithmetic operator first second rest =>
      arithmetic operator (first.replace change) (second.replace change) (rest.replace change)
  | _, negative operand => negative (operand.replace change)
  | _, call callee => call (callee.replace change)
  | _, choose alternatives => choose (alternatives.replace change)
  | _, nameTest test target first rest => nameTest test (change.ofVariable target) first rest
  | _, patternQuery kind body => patternQuery kind (body.replace change)
  | _, chainQuery kind body => chainQuery kind (body.replace change)
  | _, gather selection => gather (selection.replace change)
  | _, raw fragment => raw (fragment.replace change)
  | _, entry key value => entry key (value.replace change)
  | _, function name distinct arguments => function name distinct (arguments.replace change)
  | _, starFunction name => starFunction name
  | _, choice subject branches default =>
      choice (subject.replace change) (branches.replace change) (default.replace change)
  | _, branch condition result => branch (condition.replace change) (result.replace change)
  | _, comprehension member source filter result =>
      comprehension (change.ofVariable member) (source.replace change) (filter.replace change)
        (result.replace change)
  /- Patterns. -/
  | _, node binder labels properties predicate =>
      node (binder.map change.ofVariable) labels (properties.replace change)
        (predicate.replace change)
  | _, relationship binder types direction length properties predicate =>
      relationship (binder.map change.ofVariable) types direction length
        (properties.replace change) (predicate.replace change)
  | _, hop edge target => hop (edge.replace change) (target.replace change)
  | _, pattern start hops => pattern (start.replace change) (hops.replace change)
  | _, once body => once (body.replace change)
  | _, repeated body quantifier => repeated (body.replace change) quantifier
  | _, path binder first rest =>
      path (binder.map change.ofVariable) (first.replace change) (rest.replace change)
  /- Columns and their order. -/
  | _, column value => column (value.replace change)
  | _, renamed value newName => renamed (value.replace change) (change.ofVariable newName)
  | _, projection star columns => projection star (columns.replace change)
  | _, sortKey key direction => sortKey (key.replace change) direction
  | _, rowOrder keys skip limit =>
      rowOrder (keys.replace change) (skip.replace change) (limit.replace change)
  /- Changes to the graph. -/
  | _, assign target value => assign (target.replace change) (value.replace change)
  | _, extend target value => extend (change.ofVariable target) (value.replace change)
  | _, addLabels target labels => addLabels (change.ofVariable target) labels
  | _, removeProperty target => removeProperty (target.replace change)
  | _, removeLabels target labels => removeLabels (change.ofVariable target) labels
  | _, set first rest => set (first.replace change) (rest.replace change)
  | _, remove first rest => remove (first.replace change) (rest.replace change)
  | _, deletion detach targets => deletion detach (targets.replace change)
  /- Clauses. -/
  | _, matching optional selector first rest filter updates deleted =>
      matching optional selector (first.replace change) (rest.replace change)
        (filter.replace change) (updates.replace change) (deleted.replace change)
  | _, creating first rest updates =>
      creating (first.replace change) (rest.replace change) (updates.replace change)
  | _, merging target onCreate onMatch updates =>
      merging (target.replace change) (onCreate.replace change) (onMatch.replace change)
        (updates.replace change)
  | _, passing distinct columns order filter =>
      passing distinct (columns.replace change) (order.replace change) (filter.replace change)
  | _, returning distinct columns order =>
      returning distinct (columns.replace change) (order.replace change)
  | _, unwinding source member updates deleted =>
      unwinding (source.replace change) (change.ofVariable member) (updates.replace change)
        (deleted.replace change)
  | _, calling imports body transactions =>
      calling (imports.replace change) (body.replace change) (transactions.replace change)
  | _, procedure name arguments yields filter =>
      procedure name (arguments.replace change) (yields.map change.ofYield)
        (filter.replace change)
  | _, iterating member source body =>
      iterating (change.ofVariable member) (source.replace change) (body.replace change)
  | _, union all queries => union all (queries.replace change)
  | _, deleting deleted => deleting (deleted.replace change)
  | _, finish => finish
  | _, rawClause fragment => rawClause (fragment.replace change)
  | _, last clause => last (clause.replace change)
  | _, link clause rest => link (clause.replace change) (rest.replace change)
  /- Fragments. -/
  | _, verbatim content => verbatim content
  | _, computed pieces => computed (pieces.replace change)
  | _, textPiece content => textPiece content
  | _, labelPiece name => labelPiece name
  | _, phrasePiece content => phrasePiece (content.replace change)
  | _, unwrittenPiece content => unwrittenPiece (content.replace change)
  | _, failure message => failure message

end Phrase

namespace Layout

def replace (change : Replacement) : Layout → Layout
  | leaf content => leaf content
  | mention binder => mention (change.ofVariable binder)
  | placeholder parameter => change.placeholderLayout parameter
  | fault error => fault error
  | append first second => append (first.replace change) (second.replace change)
  | stack upper lower => stack (upper.replace change) (lower.replace change)
  | indent body => indent (body.replace change)
  | aliased value newName => aliased (value.replace change) (change.ofVariable newName)
  | trimStart body => trimStart (body.replace change)
  | verbatim upper lower => verbatim (upper.replace change) (lower.replace change)
  | unwritten body => unwritten (body.replace change)

end Layout

/-- Change all layouts that the layout of a phrase consists of. -/
def Category.mapLayout (change : Cypher.Layout → Cypher.Layout) :
    (category : Category) → category.Layout → category.Layout
  | many element, layouts => layouts.map (element.mapLayout change)
  | maybe content, layout => layout.map (content.mapLayout change)
  | path, layout =>
      { assignment := change layout.assignment, segments := change layout.segments }
  | clause, .line content => .line (change content)
  | clause, .skipped => .skipped
  | clause, .verbatim content => .verbatim (change content)
  | rowOrder, layouts => List.map change layouts
  | deletion, layout => Option.map change layout
  | expression, layout | entry, layout | function, layout | choice, layout | branch, layout
  | comprehension, layout | node, layout | relationship, layout | hop, layout
  | pattern, layout | segment, layout | column, layout | projection, layout
  | sortKey, layout | assignment, layout | removal, layout | update, layout | chain, layout
  | fragment, layout | piece, layout => change layout

namespace Layout

/-! ## Replacing in composed layouts -/

variable (change : Replacement)

@[simp] theorem replace_text (content : String) :
    (text content).replace change = text content := rfl

@[simp] theorem replace_empty : empty.replace change = empty := rfl

@[simp] theorem replace_append (first second : Layout) :
    (first ++ second).replace change = first.replace change ++ second.replace change := rfl

@[simp] theorem replace_joined (separator : String) (layouts : List Layout) :
    (joined separator layouts).replace change =
      joined separator (layouts.map (replace change)) := by
  induction layouts with
  | nil => rfl
  | cons head tail induction =>
      cases tail with
      | nil => rfl
      | cons next rest => simp [joined, induction]

@[simp] theorem replace_lines (layouts : List Layout) :
    (lines layouts).replace change = lines (layouts.map (replace change)) :=
  replace_joined change "\n" layouts

@[simp] theorem replace_optional (lead : String) (layout : Option Layout) :
    (optional lead layout).replace change = optional lead (layout.map (replace change)) := by
  cases layout <;> rfl

@[simp] theorem replace_block (body : Layout) :
    (block body).replace change = block (body.replace change) := rfl

@[simp] theorem replace_map (entries : List Layout) :
    (map entries).replace change = map (entries.map (replace change)) := by
  cases entries <;> simp [map]

@[simp] theorem replace_operation (operator : String) (operands : List Layout) :
    (operation operator operands).replace change =
      operation operator (operands.map (replace change)) := by
  simp [operation]

@[simp] theorem replace_binder (binder? : Option Variable) :
    (binder binder?).replace change = binder (binder?.map change.ofVariable) := by
  cases binder? <;> rfl

@[simp] theorem replace_pathLength (length : Option PathLength) :
    (pathLength length).replace change = pathLength length := by
  cases length <;> rfl

@[simp] theorem replace_names (test : NameTest) (names : List String) :
    (Layout.names test names).replace change = Layout.names test names := by
  cases test <;> rfl

@[simp] theorem replace_after (lead : String) (layout : Layout) :
    (after lead layout).replace change = after lead (layout.replace change) := rfl

@[simp] theorem replace_choice (subject : Option Layout) (branches : List Layout)
    (default : Option Layout) :
    (Layout.choice subject branches default).replace change =
      Layout.choice (subject.map (replace change)) (branches.map (replace change))
        (default.map (replace change)) := by
  cases branches <;> cases default <;> simp [Layout.choice, replace]

@[simp] theorem replace_branch (condition : Layout) (result : Option Layout) :
    (Layout.branch condition result).replace change =
      Layout.branch (condition.replace change) (result.map (replace change)) := by
  cases result <;> rfl

@[simp] theorem replace_yield (column : Yield) :
    (yield column).replace change = yield (change.ofYield column) := by
  rcases column with ⟨name, newName⟩
  cases newName <;> rfl

@[simp] theorem replace_yields (columns : List Yield) :
    (yields columns).replace change = yields (columns.map change.ofYield) := by
  cases columns <;> simp [yields, Function.comp_def]

@[simp] theorem replace_assignments (keyword : String) (items : List Layout) :
    (assignments keyword items).toList.map (replace change) =
      (assignments keyword (items.map (replace change))).toList := by
  cases items <;> simp [assignments, replace]

@[simp] theorem replace_condition (filter : Option Layout) :
    (condition filter).toList.map (replace change) =
      (condition (filter.map (replace change))).toList := by
  cases filter <;> simp [condition]

@[simp] theorem replace_projection (star : Bool) (columns : List Layout) :
    (Layout.projection star columns).replace change =
      Layout.projection star (columns.map (replace change)) := by
  cases star <;> cases columns <;> simp [Layout.projection]

@[simp] theorem replace_projected (keyword : String) (distinct : Bool) (columns : Layout) :
    (projected keyword distinct columns).replace change =
      projected keyword distinct (columns.replace change) := by
  cases distinct <;> rfl

@[simp] theorem replace_transactions (rows : Option (Option Layout)) :
    (transactions rows).replace change =
      transactions (rows.map (Option.map (replace change))) := by
  rcases rows with _ | _ | rows <;> rfl

@[simp] theorem replace_subquery (imports : Option Layout) (body : Layout) :
    (subquery imports body).replace change =
      subquery (imports.map (replace change)) (body.replace change) := by
  cases imports <;> rfl

@[simp] theorem replace_union (all : Bool) (queries : List Layout) :
    (Layout.union all queries).replace change =
      Layout.union all (queries.map (replace change)) := by
  simp [Layout.union]

end Layout

namespace PathLayout

@[simp] theorem replace_layout (change : Replacement) (path : PathLayout)
    (selector : Option PathSelector) :
    (path.layout selector).replace change =
      layout { assignment := path.assignment.replace change
               segments := path.segments.replace change } selector := by
  cases selector <;> rfl

@[simp] theorem replace_select (change : Replacement) (selector : Option PathSelector)
    (paths : List PathLayout) :
    (select selector paths).replace change =
      select selector (paths.map fun path =>
        { assignment := path.assignment.replace change
          segments := path.segments.replace change }) := by
  cases selector with
  | none => simp [select, Function.comp_def]
  | some selector =>
      by_cases several : 1 < paths.length <;>
        simp [select, several, Layout.replace, Function.comp_def]

end PathLayout

theorem Category.alone_mapLayout (change : Replacement) :
    ∀ (category : Category) (layout : category.Layout),
      category.alone (category.mapLayout (Layout.replace change) layout) =
        (category.alone layout).replace change
  | many element, layouts => by
      simp only [alone, mapLayout, Layout.replace_joined, List.map_map]
      congr 1
      exact List.map_congr_left fun layout _ => alone_mapLayout change element layout
  | maybe content, none => rfl
  | maybe content, some layout => alone_mapLayout change content layout
  | path, layout => rfl
  | clause, .line content => rfl
  | clause, .skipped => rfl
  | clause, .verbatim content => rfl
  | rowOrder, layouts => by simp [alone, mapLayout]
  | deletion, none => rfl
  | deletion, some layout => rfl
  | expression, layout | entry, layout | function, layout | choice, layout | branch, layout
  | comprehension, layout | node, layout | relationship, layout | hop, layout
  | pattern, layout | segment, layout | column, layout | projection, layout
  | sortKey, layout | assignment, layout | removal, layout | update, layout | chain, layout
  | fragment, layout | piece, layout => rfl

namespace Phrase

variable (change : Replacement)

@[simp] theorem isConnective_replace (phrase : Phrase category) :
    (phrase.replace change).isConnective = phrase.isConnective := by
  cases phrase with
  | placeholder parameter =>
      simp only [replace, Replacement.placeholderPhrase]
      split <;> rfl
  | _ => simp [replace, isConnective]

theorem isTame_replace {phrase : Phrase category} (tame : (Part.of phrase).isTame) :
    (Part.of (phrase.replace change)).isTame := by
  cases phrase with
  | placeholder parameter =>
      rw [replace, Replacement.placeholderPhrase]
      split <;> rfl
  | _ =>
      rw [replace]
      exact tame

/-- Other variables and parameters take nothing from the tameness of a phrase. -/
theorem tame_replace {phrase : Phrase category} (tame : phrase.Tame) :
    (phrase.replace change).Tame := by
  induction phrase with
  | placeholder parameter =>
      simp only [replace, Replacement.placeholderPhrase]
      split <;> exact List.forall_mem_singleton.mpr rfl
  | _ =>
      have first := isTame_replace change (tame _ (of_mem_parts _))
      simp only [replace] at first ⊢
      simp only [Tame, parts, List.forall_mem_cons, List.forall_mem_append] at *
      simp_all only [and_self, implies_true]

/-- The layout of the changed phrase is the changed layout of the phrase. -/
theorem layout_replace (phrase : Phrase category) :
    (phrase.replace change).layout = category.mapLayout (Layout.replace change) phrase.layout := by
  induction phrase with
  | placeholder parameter =>
      simp only [replace, Replacement.placeholderPhrase, layout, Category.mapLayout,
        Layout.replace, Replacement.placeholderLayout]
      split <;> simp [layout]
  | negation operand induction =>
      cases connective : operand.isConnective <;>
        simp_all [replace, layout, Category.mapLayout]
  | node binder labels properties predicate propertiesInduction predicateInduction =>
      cases entries : properties.layout <;>
        simp_all [replace, layout, Category.mapLayout, Layout.replace]
  | relationship binder types direction length properties predicate propertiesInduction
      predicateInduction =>
      cases entries : properties.layout <;>
        simp_all [replace, layout, Category.mapLayout, Layout.replace]
  | hop edge target edgeInduction targetInduction =>
      cases end? : target.layout <;> simp_all [replace, layout, Category.mapLayout]
  | path binder first rest firstInduction restInduction =>
      cases binder <;> simp_all [replace, layout, Category.mapLayout, Layout.replace]
  | rowOrder keys skip limit keysInduction skipInduction limitInduction =>
      cases keyLayouts : keys.layout <;> cases skipLayout : skip.layout <;>
        cases limitLayout : limit.layout <;>
        simp_all [replace, layout, Category.mapLayout]
  | deletion detach targets induction =>
      cases layouts : targets.layout <;> simp_all [replace, layout, Category.mapLayout]
  | deleting deleted induction =>
      cases content : deleted.layout <;> simp_all [replace, layout, Category.mapLayout]
  | last clause induction =>
      cases content : clause.layout <;>
        simp_all [replace, layout, Category.mapLayout, ClauseLayout.alone]
  | link clause rest clauseInduction restInduction =>
      cases content : clause.layout <;>
        simp_all [replace, layout, Category.mapLayout, Layout.replace, ClauseLayout.followedBy]
  | phrasePiece content induction =>
      simp only [replace, layout, induction, Category.alone_mapLayout, Category.mapLayout]
  | unwrittenPiece content induction =>
      simp only [replace, layout, induction, Category.alone_mapLayout, Category.mapLayout,
        Layout.replace]
  | _ =>
      simp_all [replace, layout, Category.mapLayout, Layout.replace, Function.comp_def,
        Option.toList_map]

end Phrase

theorem Phrase.whole_replace (change : Replacement) (phrase : Phrase category) :
    (phrase.replace change).whole = phrase.whole.replace change := by
  rw [whole, layout_replace, Category.alone_mapLayout, whole]

/-! ## Changed readings -/

def Item.replace (change : Replacement) : Item → Item
  | mention binder => mention (change.ofVariable binder)
  | newName binder value => newName (change.ofVariable binder) (value.replace change)
  | placeholder parameter =>
      match change.ofParameter parameter with
      | .inl parameter => placeholder parameter
      | .inr value => data (.literal value)
  | data content => data content
  | fault error => fault error
  | unwritten item => unwritten (item.replace change)

def Reading.replace (change : Replacement) (reading : Reading) : Reading :=
  reading.map fun entry => (entry.1, entry.2.replace change)

theorem Layout.reading_replace (change : Replacement) (layout : Layout) (depth : Nat) :
    (layout.replace change).reading depth = (layout.reading depth).replace change := by
  induction layout generalizing depth with
  | leaf content => cases content <;> rfl
  | placeholder parameter =>
      simp only [Layout.replace, Replacement.placeholderLayout, reading, Reading.replace,
        List.map_singleton, Item.replace]
      split <;> rfl
  | unwritten body induction =>
      simp [Layout.replace, reading, induction, Reading.replace, Reading.unwritten, Item.replace]
  | _ => simp_all [Layout.replace, reading, Reading.replace, Item.replace]

namespace Reading

variable (change : Replacement) (reading : Reading)

theorem fault?_replace_item (item : Item) : (item.replace change).fault? = item.fault? := by
  induction item with
  | placeholder parameter =>
      rw [Item.replace]
      split <;> rfl
  | unwritten _ induction => exact induction
  | _ => rfl

/-- Other variables and parameters leave the faults as they are. -/
theorem fault?_replace : (reading.replace change).fault? = reading.fault? := by
  induction reading with
  | nil => rfl
  | cons entry rest induction =>
      simp only [fault?, replace, List.map_cons, List.findSome?_cons,
        fault?_replace_item] at induction ⊢
      rw [induction]

theorem sound_replace : (reading.replace change).sound = reading.sound.replace change := by
  simp only [sound, replace, List.takeWhile_map, Function.comp_def, fault?_replace_item]

end Reading

end Cypher
