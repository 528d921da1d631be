import Cypher.Layout
import Cypher.Phrase

/-! The layout of every phrase. Phrases of most categories have one layout.
Lists and optional parts have a layout for each of their phrases, and some
categories leave open how their text meets the text around it. -/

namespace Cypher

/-- A selector stands between the assignment of a path and its segments. -/
structure PathLayout where
  assignment : Layout
  segments : Layout

/-- How the text of a clause meets the clauses after it. -/
inductive ClauseLayout where
  /-- The next clause starts on a new line. -/
  | line (content : Layout)
  /-- A clause without text takes no line. -/
  | skipped
  /-- Only rendering tells whether the clause has text. -/
  | verbatim (content : Layout)

@[reducible] def Category.Layout : Category → Type
  | .many element => List element.Layout
  | .maybe content => Option content.Layout
  | .path => PathLayout
  | .clause => ClauseLayout
  /- One line for each part. -/
  | .rowOrder => List Cypher.Layout
  /- Nothing to delete has no text. -/
  | .deletion => Option Cypher.Layout
  | _ => Cypher.Layout

namespace PathLayout

def layout (path : PathLayout) (selector : Option PathSelector := none) : Layout :=
  match selector with
  | none => path.assignment ++ path.segments
  | some selector => path.assignment ++ (selector.keyword ++ " ") ++ path.segments

/-- A selector chooses among the paths of one pattern only. -/
def select (selector : Option PathSelector) (paths : List PathLayout) : Layout :=
  match selector with
  | none => Layout.joined ", " (paths.map (·.layout))
  | some selector =>
      if 1 < paths.length then
        .fault (.selectorWithMultiplePatterns selector paths.length)
      else
        Layout.joined ", " (paths.map (·.layout (some selector)))

end PathLayout

namespace ClauseLayout

/-- The text of a clause at the end of its chain. -/
def alone : ClauseLayout → Layout
  | line content => content
  | skipped => .empty
  | verbatim content => content

/-- The text of a clause in front of the rest of its chain. -/
def followedBy (rest : Layout) : ClauseLayout → Layout
  | line content => content ++ "\n" ++ rest
  | skipped => rest
  | verbatim content => .verbatim content rest

end ClauseLayout

namespace Layout

/-- The variable of a pattern, or nothing. -/
def binder : Option Variable → Layout
  | none => empty
  | some binder => mention binder

def pathLength : Option PathLength → Layout
  | none => empty
  | some length => length.text

/-- Operands with an operator between them, in parentheses of their own. -/
def operation (operator : String) (operands : List Layout) : Layout :=
  "(" ++ joined (" " ++ operator ++ " ") operands ++ ")"

def names (test : NameTest) (names : List String) : Layout :=
  match test with
  | .labels => leaf (.labels names)
  | .types => leaf (.relationshipTypes names)

def after (lead : String) (layout : Layout) : Layout :=
  lead ++ layout

def choice (subject : Option Layout) (branches : List Layout) (default : Option Layout) :
    Layout :=
  let entries := branches ++ (default.map (after "ELSE ")).toList
  let body := if entries.isEmpty then [] else [indent (lines entries)]
  lines (after "CASE" (optional " " subject) :: body ++ [text "END"])

/-- The result is looked at first, so a branch without one has no text at all. -/
def branch (condition : Layout) (result : Option Layout) : Layout :=
  match result with
  | none => fault .caseWithoutThen
  | some result => "WHEN " ++ condition ++ " THEN " ++ result

def yield (column : Yield) : Layout :=
  match column.newName with
  | none => leaf (.identifier column.column)
  | some newName => leaf (.identifier column.column) ++ " AS " ++ mention newName

/-- Behind the arguments of a procedure. -/
def yields (columns : List Yield) : Layout :=
  if columns.isEmpty then empty else " YIELD " ++ joined ", " (columns.map yield)

/-- One assignment on each line of a block. No assignments have no text. -/
def assignments (keyword : String) (items : List Layout) : Option Layout :=
  if items.isEmpty then none
  else some (keyword ++ "\n" ++ indent (joined ",\n" items))

def condition (filter : Option Layout) : Option Layout :=
  filter.map (after "WHERE ")

/-- A list of columns without any column means all columns. -/
def projection (star : Bool) (columns : List Layout) : Layout :=
  joined ", " (if star || columns.isEmpty then text "*" :: columns else columns)

/-- The projection behind the keyword of its clause. -/
def projected (keyword : String) (distinct : Bool) (projection : Layout) : Layout :=
  keyword ++ " " ++ (if distinct then "DISTINCT " else "") ++ projection

def transactions : Option (Option Layout) → Layout
  | none => empty
  | some none => " IN TRANSACTIONS"
  | some (some rows) => " IN TRANSACTIONS OF " ++ rows ++ " ROWS"

/-- The imported columns stand above the body of a subquery. -/
def subquery (imports : Option Layout) (body : Layout) : Layout :=
  match imports with
  | none => body
  | some imports => stack ("WITH " ++ imports) body

def union (all : Bool) (queries : List Layout) : Layout :=
  joined (if all then "\nUNION ALL\n" else "\nUNION\n") queries

end Layout

/-- The layout of a phrase that stands on its own. -/
def Category.alone : (category : Category) → category.Layout → Cypher.Layout
  | many element, layouts => .joined "" (layouts.map element.alone)
  | maybe content, layout => (layout.map content.alone).getD .empty
  | path, layout => layout.layout
  | clause, layout => layout.alone
  | rowOrder, layouts => .lines layouts
  | deletion, layout => layout.getD .empty
  | expression, layout | entry, layout | function, layout | choice, layout | branch, layout
  | comprehension, layout | node, layout | relationship, layout | hop, layout
  | pattern, layout | segment, layout | column, layout | projection, layout
  | sortKey, layout | assignment, layout | removal, layout | update, layout | chain, layout
  | fragment, layout | piece, layout => layout

namespace Phrase

def isConnective : Phrase category → Bool
  | connective .. => true
  | _ => false

open Layout (joined lines optional leaf)

def layout : {category : Category} → Phrase category → category.Layout
  | _, nil => []
  | _, cons head tail => head.layout :: tail.layout
  | _, absent => none
  | _, present content => some content.layout
  /- Expressions. -/
  | _, mention binder => .mention binder
  | _, placeholder parameter => .placeholder parameter
  | _, literal value => leaf (.literal value)
  | _, property base key => base.layout ++ "." ++ leaf (.identifier key)
  | _, subscript base index => base.layout ++ "[" ++ index.layout ++ "]"
  | _, list items => "[" ++ joined ", " items.layout ++ "]"
  | _, map entries => .map entries.layout
  | _, connective operator first second rest =>
      .operation operator.keyword (first.layout :: second.layout :: rest.layout)
  | _, negation operand =>
      if operand.isConnective then "NOT " ++ operand.layout
      else "NOT (" ++ operand.layout ++ ")"
  | _, comparison comparator left right =>
      left.layout ++ (" " ++ comparator.keyword) ++ optional " " right.layout
  | _, arithmetic operator first second rest =>
      .operation operator.symbol (first.layout :: second.layout :: rest.layout)
  | _, negative operand => "-" ++ operand.layout
  | _, call callee => callee.layout
  | _, choose alternatives => alternatives.layout
  | _, nameTest test target first rest => .mention target ++ Layout.names test (first :: rest)
  | _, patternQuery kind body =>
      (kind.keyword ++ " \x7b ") ++ body.layout.layout ++ " \x7d"
  | _, chainQuery kind body => (kind.keyword ++ " ") ++ Layout.block body.layout
  | _, gather selection => selection.layout
  | _, raw fragment => fragment.layout
  | _, entry key value => leaf (.identifier key) ++ ": " ++ value.layout
  | _, function name distinct arguments =>
      (name ++ "(" ++ if distinct then "DISTINCT " else "") ++
        joined ", " arguments.layout ++ ")"
  | _, starFunction name => (name ++ "(*)" : String)
  | _, choice subject branches default =>
      .choice subject.layout branches.layout default.layout
  | _, branch condition result => .branch condition.layout result.layout
  | _, comprehension member source filter result =>
      "[" ++ .mention member ++ " IN " ++ source.layout ++ optional " WHERE " filter.layout ++
        optional " | " result.layout ++ "]"
  /- Patterns. -/
  | _, node binder labels properties predicate =>
      "(" ++ .binder binder ++ leaf (.labels labels) ++
        optional " " (properties.layout.map Layout.map) ++
        optional " WHERE " predicate.layout ++ ")"
  | _, relationship binder types direction length properties predicate =>
      (direction.opening ++ "[") ++
        .trimStart (.binder binder ++ leaf (.relationshipTypes types) ++ .pathLength length ++
          optional " WHERE " predicate.layout ++
          optional " " (properties.layout.map Layout.map)) ++
        ("]" ++ direction.closing)
  | _, hop edge target => edge.layout ++ target.layout.getD "()"
  | _, pattern start hops => start.layout ++ joined "" hops.layout
  | _, once body => body.layout
  | _, repeated body quantifier => "(" ++ body.layout ++ (")" ++ quantifier.text)
  | _, path binder first rest =>
      { assignment := match binder with
          | none => .empty
          | some binder => .mention binder ++ " = "
        segments := joined "" (first.layout :: rest.layout) }
  /- Columns and their order. -/
  | _, column value => value.layout
  | _, renamed value newName => .aliased value.layout newName
  | _, projection star columns => .projection star columns.layout
  | _, sortKey key direction => key.layout ++ (" " ++ direction.keyword)
  | _, rowOrder keys skip limit =>
      let keyLine := if keys.layout.isEmpty then [] else
        ["ORDER BY " ++ joined ", " keys.layout]
      keyLine ++ (skip.layout.map (Layout.after "SKIP ")).toList ++
        (limit.layout.map (Layout.after "LIMIT ")).toList
  /- Changes to the graph. -/
  | _, assign target value => target.layout ++ " = " ++ value.layout
  | _, extend target value => .mention target ++ " += " ++ value.layout
  | _, addLabels target labels => .mention target ++ leaf (.labels labels)
  | _, removeProperty target => target.layout
  | _, removeLabels target labels => .mention target ++ leaf (.labels labels)
  | _, set first rest => "SET\n" ++ .indent (joined ",\n" (first.layout :: rest.layout))
  | _, remove first rest => "REMOVE " ++ joined ", " (first.layout :: rest.layout)
  | _, deletion detach targets =>
      if targets.layout.isEmpty then none
      else some ((if detach then "DETACH DELETE " else "DELETE ") ++ joined ", " targets.layout)
  /- Clauses. -/
  | _, matching isOptional selector first rest filter updates deleted =>
      .line (lines (((if isOptional then "OPTIONAL MATCH " else "MATCH ") ++
          PathLayout.select selector (first.layout :: rest.layout)) ::
        (Layout.condition filter.layout).toList ++ updates.layout ++ deleted.layout.toList))
  | _, creating first rest updates =>
      .line (lines (("CREATE " ++
          joined ", " ((first.layout :: rest.layout).map (·.layout))) :: updates.layout))
  | _, merging target onCreate onMatch updates =>
      .line (lines (("MERGE " ++ target.layout.layout) ::
        (Layout.assignments "ON CREATE SET" onCreate.layout).toList ++
        (Layout.assignments "ON MATCH SET" onMatch.layout).toList ++ updates.layout))
  | _, passing distinct columns order filter =>
      .line (lines (Layout.projected "WITH" distinct columns.layout ::
        order.layout ++ (Layout.condition filter.layout).toList))
  | _, returning distinct columns order =>
      .line (lines (Layout.projected "RETURN" distinct columns.layout :: order.layout))
  | _, unwinding source member updates deleted =>
      .line (lines (("UNWIND " ++ source.layout ++ " AS " ++ .mention member) ::
        updates.layout ++ deleted.layout.toList))
  | _, calling imports body transactions =>
      .line ("CALL " ++ Layout.block (Layout.subquery imports.layout body.layout) ++
        Layout.transactions transactions.layout)
  | _, procedure name arguments yields filter =>
      .line (lines (((("CALL " ++ name ++ "(" : String) : Layout) ++
          joined ", " arguments.layout ++ ")" ++ Layout.yields yields) ::
        (Layout.condition filter.layout).toList))
  | _, iterating member source body =>
      .line ("FOREACH (" ++ .mention member ++ " IN " ++ source.layout ++ " |\n" ++
        .indent body.layout ++ "\n)")
  | _, union all queries => .line (Layout.union all queries.layout)
  | _, deleting deleted =>
      match deleted.layout with
      | none => .skipped
      | some content => .line content
  | _, finish => .line "FINISH"
  | _, rawClause fragment => .verbatim fragment.layout
  | _, last clause => clause.layout.alone
  | _, link clause rest => clause.layout.followedBy rest.layout
  /- Fragments. -/
  | _, verbatim content => .text content
  | _, computed pieces => joined "" pieces.layout
  | _, textPiece content => .text content
  | _, labelPiece name => leaf (.label name)
  | _, @phrasePiece content phrase => content.alone phrase.layout
  | _, @unwrittenPiece content phrase => .unwritten (content.alone phrase.layout)
  | _, failure message => .fault (.raw message)

/-- The layout of a phrase that stands on its own. -/
def whole (phrase : Phrase category) : Layout :=
  category.alone phrase.layout

/-- The layouts of a list are those of its elements. -/
theorem layout_ofList (phrases : List (Phrase category)) :
    (ofList phrases).layout = phrases.map layout := by
  induction phrases with
  | nil => simp [ofList, layout]
  | cons head tail induction => simp [ofList, layout, induction]

theorem layout_eq_map (phrases : Phrase (.many category)) :
    phrases.layout = phrases.toList.map layout := by
  rw [← layout_ofList, ofList_toList]

end Phrase

end Cypher
