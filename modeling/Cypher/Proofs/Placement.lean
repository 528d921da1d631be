import Cypher.Proofs.Margins
import Cypher.Proofs.Rendering

/-! The text of a phrase at a depth. The depth is the number of blocks around the phrase,
and every line break is written with the margin of its depth from the beginning: no text is
searched for lines once it is written. Names come from a dictionary. -/

namespace Cypher

open Block (lineBreak)

/-- What is written for a phrase. -/
@[reducible] def Category.Text : Category → Type
  | .many element => List element.Text
  | .maybe content => Option content.Text
  /- A selector may stand between the assignment and the segments. -/
  | .path => String × String
  | .rowOrder => List String
  | .deletion => Option String
  | _ => String

namespace Placement

/-- An optional text behind `lead`. -/
def led (lead : String) : Option String → String
  | none => ""
  | some text => lead ++ text

/-- Texts on lines of their own, below a line. -/
def below (depth : Nat) : List String → String
  | [] => ""
  | line :: rest => lineBreak depth ++ line ++ below depth rest

/-- A body on lines of its own, one level deeper than what opens and closes it. -/
def nested (opening closing : String) (depth : Nat) (body : String) : String :=
  opening ++ lineBreak (depth + 1) ++ body ++ lineBreak depth ++ closing

/-- A block in braces. -/
def block : Nat → String → String :=
  nested "\x7b" "\x7d"

/-- Assignments one level deeper than their keyword. -/
def assigned (keyword : String) (depth : Nat) (items : List String) : String :=
  keyword ++ lineBreak (depth + 1) ++ ("," ++ lineBreak (depth + 1)).intercalate items

/-- No assignments have no text. -/
def assignments (keyword : String) (depth : Nat) (items : List String) : List String :=
  if items.isEmpty then [] else [assigned keyword depth items]

/-- Alternatives one level deeper than the keywords around them. -/
def choice (subject : Option String) (depth : Nat) (alternatives : List String) : String :=
  "CASE" ++ led " " subject ++ below (depth + 1) alternatives ++ lineBreak depth ++ "END"

def union (all : Bool) (depth : Nat) (queries : List String) : String :=
  (lineBreak depth ++ (if all then "UNION ALL" else "UNION") ++ lineBreak depth).intercalate
    queries

/-- The imported columns stand above the body of a subquery. -/
def subquery (imports : Option String) (depth : Nat) (body : String) : String :=
  match imports with
  | none => body
  | some imports => "WITH " ++ imports ++ lineBreak depth ++ body

def operation (operator : String) (operands : List String) : String :=
  "(" ++ (" " ++ operator ++ " ").intercalate operands ++ ")"

def condition (filter : Option String) : List String :=
  (filter.map ("WHERE " ++ ·)).toList

/-- A path with its selector. -/
def selected (selector : Option PathSelector) (path : String × String) : String :=
  match selector with
  | none => path.1 ++ path.2
  | some selector => path.1 ++ (selector.keyword ++ " ") ++ path.2

def paths (selector : Option PathSelector) (paths : List (String × String)) : String :=
  ", ".intercalate (paths.map (selected selector))

/-- A list of columns without any column means all columns. -/
def projection (star : Bool) (columns : List String) : String :=
  ", ".intercalate (if star || columns.isEmpty then "*" :: columns else columns)

def projected (keyword : String) (distinct : Bool) (columns : String) : String :=
  keyword ++ " " ++ (if distinct then "DISTINCT " else "") ++ columns

def rowOrder (keys : List String) (skip limit : Option String) : List String :=
  (if keys.isEmpty then [] else ["ORDER BY " ++ ", ".intercalate keys]) ++
    (skip.map ("SKIP " ++ ·)).toList ++ (limit.map ("LIMIT " ++ ·)).toList

/-- Nothing to delete has no text. -/
def deletion (detach : Bool) (targets : List String) : Option String :=
  if targets.isEmpty then none
  else some ((if detach then "DETACH DELETE " else "DELETE ") ++ ", ".intercalate targets)

def transactions : Option (Option String) → String
  | none => ""
  | some none => " IN TRANSACTIONS"
  | some (some rows) => " IN TRANSACTIONS OF " ++ rows ++ " ROWS"

variable (names : Dictionary)

/-- The variable of a pattern, or nothing. -/
def binder : Option Variable → String
  | none => ""
  | some binder => names.variableText binder

def tested (test : NameTest) (words : List String) : String :=
  match test with
  | .labels => names.config.labels words
  | .types => names.config.relationshipTypes words

/-- What a relationship is called, and the types and the length that it should have. -/
def edge (binder : Option Variable) (types : List String) (length : Option PathLength) :
    List String :=
  if binder.isNone && types.isEmpty && length.isNone then []
  else [Blank.trimStart (Placement.binder names binder) ++ names.config.relationshipTypes types ++
    (length.map (·.text)).getD ""]

def column (column : Yield) : String :=
  names.config.identifier column.column ++ led " AS " (column.newName.map names.variableText)

def yields (columns : List Yield) : String :=
  if columns.isEmpty then "" else " YIELD " ++ ", ".intercalate (columns.map (column names))

end Placement

/-- What is written for a phrase that stands on its own. -/
def Category.together (depth : Nat) : (category : Category) → category.Text → String
  | many element, texts => "".intercalate (texts.map (element.together depth))
  | maybe content, text => (text.map (content.together depth)).getD ""
  | path, text => Placement.selected none text
  | rowOrder, texts => (lineBreak depth).intercalate texts
  | deletion, text => text.getD ""
  | expression, text | entry, text | function, text | choice, text | branch, text
  | comprehension, text | node, text | relationship, text | hop, text | pattern, text
  | segment, text | column, text | projection, text | sortKey, text | assignment, text
  | removal, text | update, text | clause, text | chain, text | fragment, text
  | piece, text => text

namespace Phrase

open Placement

variable (names : Dictionary)

/-- The text of a phrase inside `depth` blocks. -/
def textAt : {category : Category} → Phrase category → Nat → category.Text
  | _, nil, _ => []
  | _, cons head tail, depth => head.textAt depth :: tail.textAt depth
  | _, absent, _ => none
  | _, present content, depth => some (content.textAt depth)
  /- Expressions. -/
  | _, mention binder, _ => names.variableText binder
  | _, placeholder parameter, _ =>
      if parameter.isNull then "NULL" else "$" ++ names.parameterText parameter
  | _, literal value, _ => value.literal names.config.extraReservedWords
  | _, property base key, depth => base.textAt depth ++ "." ++ names.config.identifier key
  | _, subscript base index, depth => base.textAt depth ++ "[" ++ index.textAt depth ++ "]"
  | _, list items, depth => "[" ++ ", ".intercalate (items.textAt depth) ++ "]"
  | _, map entries, depth => Value.mapText (entries.textAt depth)
  | _, connective operator first second rest, depth =>
      operation operator.keyword (first.textAt depth :: second.textAt depth :: rest.textAt depth)
  | _, negation operand, depth =>
      if operand.isConnective then "NOT " ++ operand.textAt depth
      else "NOT (" ++ operand.textAt depth ++ ")"
  | _, comparison comparator left right, depth =>
      left.textAt depth ++ (" " ++ comparator.keyword) ++ led " " (right.textAt depth)
  | _, arithmetic operator first second rest, depth =>
      operation operator.symbol (first.textAt depth :: second.textAt depth :: rest.textAt depth)
  | _, negative operand, depth => "-" ++ operand.textAt depth
  | _, call callee, depth => callee.textAt depth
  | _, choose alternatives, depth => alternatives.textAt depth
  | _, nameTest test target first rest, _ =>
      names.variableText target ++ tested names test (first :: rest)
  | _, patternQuery kind body, depth =>
      kind.keyword ++ " \x7b " ++ selected none (body.textAt depth) ++ " \x7d"
  | _, chainQuery kind body, depth =>
      kind.keyword ++ " " ++ block depth (body.textAt (depth + 1))
  | _, gather selection, depth => selection.textAt depth
  | _, raw fragment, depth => fragment.textAt depth
  | _, entry key value, depth => names.config.identifier key ++ ": " ++ value.textAt depth
  | _, function name distinct arguments, depth =>
      name ++ "(" ++ (if distinct then "DISTINCT " else "") ++
        ", ".intercalate (arguments.textAt depth) ++ ")"
  | _, starFunction name, _ => name ++ "(*)"
  | _, choice subject branches default, depth =>
      Placement.choice (subject.textAt depth) depth (branches.textAt (depth + 1) ++
        ((default.textAt (depth + 1)).map ("ELSE " ++ ·)).toList)
  | _, branch condition result, depth =>
      "WHEN " ++ condition.textAt depth ++ led " THEN " (result.textAt depth)
  | _, comprehension member source filter result, depth =>
      "[" ++ names.variableText member ++ " IN " ++ source.textAt depth ++
        led " WHERE " (filter.textAt depth) ++ led " | " (result.textAt depth) ++ "]"
  /- Patterns. -/
  | _, node binder labels properties predicate, depth =>
      "(" ++ Placement.binder names binder ++ names.config.labels labels ++
        led " " ((properties.textAt depth).map Value.mapText) ++
        led " WHERE " (predicate.textAt depth) ++ ")"
  | _, relationship binder types direction length properties predicate, depth =>
      direction.opening ++ "[" ++
        " ".intercalate (edge names binder types length ++ condition (predicate.textAt depth) ++
          ((properties.textAt depth).map Value.mapText).toList) ++
        ("]" ++ direction.closing)
  | _, hop edge target, depth => edge.textAt depth ++ (target.textAt depth).getD "()"
  | _, pattern start hops, depth => start.textAt depth ++ "".intercalate (hops.textAt depth)
  | _, once body, depth => body.textAt depth
  | _, repeated body quantifier, depth => "(" ++ body.textAt depth ++ (")" ++ quantifier.text)
  | _, path binder first rest, depth =>
      (match binder with
        | none => ""
        | some binder => names.variableText binder ++ " = ",
        "".intercalate (first.textAt depth :: rest.textAt depth))
  /- Columns and their order. -/
  | _, column value, depth => value.textAt depth
  | _, renamed value newName, depth =>
      if names.variableText newName = value.textAt depth then value.textAt depth
      else value.textAt depth ++ " AS " ++ names.variableText newName
  | _, projection star columns, depth =>
      Placement.projection star (columns.textAt depth)
  | _, sortKey key direction, depth => key.textAt depth ++ (" " ++ direction.keyword)
  | _, rowOrder keys skip limit, depth =>
      Placement.rowOrder (keys.textAt depth) (skip.textAt depth) (limit.textAt depth)
  /- Changes to the graph. -/
  | _, assign target value, depth => target.textAt depth ++ " = " ++ value.textAt depth
  | _, extend target value, depth => names.variableText target ++ " += " ++ value.textAt depth
  | _, addLabels target labels, _ => names.variableText target ++ names.config.labels labels
  | _, removeProperty target, depth => target.textAt depth
  | _, removeLabels target labels, _ => names.variableText target ++ names.config.labels labels
  | _, set first rest, depth =>
      assigned "SET" depth (first.textAt (depth + 1) :: rest.textAt (depth + 1))
  | _, remove first rest, depth =>
      "REMOVE " ++ ", ".intercalate (first.textAt depth :: rest.textAt depth)
  | _, deletion detach targets, depth =>
      Placement.deletion detach (targets.textAt depth)
  /- Clauses. -/
  | _, matching isOptional selector first rest filter updates deleted, depth =>
      (if isOptional then "OPTIONAL MATCH " else "MATCH ") ++
        paths selector (first.textAt depth :: rest.textAt depth) ++
        below depth (condition (filter.textAt depth) ++ updates.textAt depth ++
          (deleted.textAt depth).toList)
  | _, creating first rest updates, depth =>
      "CREATE " ++ paths none (first.textAt depth :: rest.textAt depth) ++
        below depth (updates.textAt depth)
  | _, merging target onCreate onMatch updates, depth =>
      "MERGE " ++ selected none (target.textAt depth) ++
        below depth (assignments "ON CREATE SET" depth (onCreate.textAt (depth + 1)) ++
          assignments "ON MATCH SET" depth (onMatch.textAt (depth + 1)) ++ updates.textAt depth)
  | _, passing distinct columns order filter, depth =>
      projected "WITH" distinct (columns.textAt depth) ++
        below depth (order.textAt depth ++ condition (filter.textAt depth))
  | _, returning distinct columns order, depth =>
      projected "RETURN" distinct (columns.textAt depth) ++ below depth (order.textAt depth)
  | _, unwinding source member updates deleted, depth =>
      "UNWIND " ++ source.textAt depth ++ " AS " ++ names.variableText member ++
        below depth (updates.textAt depth ++ (deleted.textAt depth).toList)
  | _, calling imports body transactions, depth =>
      "CALL " ++ block depth (subquery (imports.textAt (depth + 1)) (depth + 1)
          (body.textAt (depth + 1))) ++
        Placement.transactions (transactions.textAt depth)
  | _, procedure name arguments yields filter, depth =>
      "CALL " ++ name ++ "(" ++ ", ".intercalate (arguments.textAt depth) ++ ")" ++
        Placement.yields names yields ++ below depth (condition (filter.textAt depth))
  | _, iterating member source body, depth =>
      nested ("FOREACH (" ++ names.variableText member ++ " IN " ++ source.textAt depth ++ " |")
        ")" depth (body.textAt (depth + 1))
  | _, union all queries, depth =>
      Placement.union all depth (queries.textAt depth)
  | _, deleting deleted, depth => (deleted.textAt depth).getD ""
  | _, finish, _ => "FINISH"
  | _, rawClause fragment, depth => fragment.textAt depth
  | _, last clause, depth => clause.textAt depth
  | _, link clause rest, depth => clause.textAt depth ++ lineBreak depth ++ rest.textAt depth
  /- Fragments. -/
  | _, verbatim content, _ => content
  | _, computed pieces, depth => "".intercalate (pieces.textAt depth)
  | _, textPiece content, _ => content
  | _, labelPiece name, _ => names.config.label name
  | _, @phrasePiece content phrase, depth => content.together depth (phrase.textAt depth)
  | _, unwrittenPiece _, _ => ""
  | _, failure _, _ => ""

end Phrase

/-- The text of a phrase outside of any block. -/
def Phrase.placed (names : Dictionary) (phrase : Phrase category) : String :=
  category.together 0 (phrase.textAt names 0)

end Cypher
