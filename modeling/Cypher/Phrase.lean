import Cypher.Error
import Cypher.Operator
import Cypher.Parameter

/-! The language of queries as one family of trees.

Every part of a query is a phrase of some category: expressions, patterns,
clauses, chains of clauses, and the parts they are made of. The category is an
index, so a phrase cannot stand where its category does not fit, and a function
or a proof about whole queries is a single recursion. Lists and optional parts
are phrases as well. -/

namespace Cypher

inductive Category where
  | expression
  | entry
  | function
  | choice
  | branch
  | comprehension
  | node
  | relationship
  | hop
  | pattern
  | segment
  | path
  | column
  | projection
  | sortKey
  | rowOrder
  | assignment
  | removal
  | update
  | deletion
  | clause
  | chain
  | fragment
  | piece
  | many (element : Category)
  | maybe (content : Category)
deriving DecidableEq, Repr

/-- The category of the elements of a list. -/
@[reducible] def Category.element : Category → Category
  | .many element => element
  | other => other

/-- A result column of a procedure. -/
structure Yield where
  column : String
  newName : Option Variable := none
deriving Repr

inductive Phrase : Category → Type where
  /- Lists and optional parts. -/
  | nil : Phrase (.many category)
  | cons (head : Phrase category) (tail : Phrase (.many category)) : Phrase (.many category)
  | absent : Phrase (.maybe category)
  | present (content : Phrase category) : Phrase (.maybe category)
  /- Expressions. -/
  | mention (binder : Variable) : Phrase .expression
  | placeholder (parameter : Parameter) : Phrase .expression
  | literal (value : Value) : Phrase .expression
  | property (base : Phrase .expression) (key : String) : Phrase .expression
  | subscript (base index : Phrase .expression) : Phrase .expression
  | list (items : Phrase (.many .expression)) : Phrase .expression
  | map (entries : Phrase (.many .entry)) : Phrase .expression
  | connective (operator : Connective) (first second : Phrase .expression)
      (rest : Phrase (.many .expression)) : Phrase .expression
  | negation (operand : Phrase .expression) : Phrase .expression
  | comparison (comparator : Comparator) (left : Phrase .expression)
      (right : Phrase (.maybe .expression)) : Phrase .expression
  | arithmetic (operator : Arithmetic) (first second : Phrase .expression)
      (rest : Phrase (.many .expression)) : Phrase .expression
  | negative (operand : Phrase .expression) : Phrase .expression
  | call (function : Phrase .function) : Phrase .expression
  | choose (choice : Phrase .choice) : Phrase .expression
  | nameTest (test : NameTest) (target : Variable) (first : String) (rest : List String) :
      Phrase .expression
  | patternQuery (kind : SubqueryKind) (path : Phrase .path) : Phrase .expression
  | chainQuery (kind : SubqueryKind) (body : Phrase .chain) : Phrase .expression
  | gather (comprehension : Phrase .comprehension) : Phrase .expression
  | raw (fragment : Phrase .fragment) : Phrase .expression
  | entry (key : String) (value : Phrase .expression) : Phrase .entry
  | function (name : String) (distinct : Bool) (arguments : Phrase (.many .expression)) :
      Phrase .function
  /-- A function of all rows: `count(*)`. -/
  | starFunction (name : String) : Phrase .function
  | choice (subject : Phrase (.maybe .expression)) (branches : Phrase (.many .branch))
      (default : Phrase (.maybe .expression)) : Phrase .choice
  | branch (condition : Phrase .expression) (result : Phrase (.maybe .expression)) :
      Phrase .branch
  | comprehension (member : Variable) (list : Phrase .expression)
      (filter projection : Phrase (.maybe .expression)) : Phrase .comprehension
  /- Patterns. -/
  | node (binder : Option Variable) (labels : List String)
      (properties : Phrase (.maybe (.many .entry)))
      (predicate : Phrase (.maybe .expression)) : Phrase .node
  | relationship (binder : Option Variable) (types : List String) (direction : Direction)
      (length : Option PathLength) (properties : Phrase (.maybe (.many .entry)))
      (predicate : Phrase (.maybe .expression)) : Phrase .relationship
  /-- A relationship and the node at its far end. -/
  | hop (relationship : Phrase .relationship) (target : Phrase (.maybe .node)) : Phrase .hop
  | pattern (start : Phrase .node) (hops : Phrase (.many .hop)) : Phrase .pattern
  | once (pattern : Phrase .pattern) : Phrase .segment
  | repeated (pattern : Phrase .pattern) (quantifier : Quantifier) : Phrase .segment
  | path (binder : Option Variable) (first : Phrase .segment)
      (rest : Phrase (.many .segment)) : Phrase .path
  /- Columns and their order. -/
  | column (value : Phrase .expression) : Phrase .column
  | renamed (value : Phrase .expression) (newName : Variable) : Phrase .column
  | projection (star : Bool) (columns : Phrase (.many .column)) : Phrase .projection
  | sortKey (key : Phrase .expression) (direction : SortDirection) : Phrase .sortKey
  | rowOrder (keys : Phrase (.many .sortKey)) (skip limit : Phrase (.maybe .expression)) :
      Phrase .rowOrder
  /- Changes to the graph. -/
  | assign (target value : Phrase .expression) : Phrase .assignment
  | extend (target : Variable) (value : Phrase .expression) : Phrase .assignment
  | addLabels (target : Variable) (labels : List String) : Phrase .assignment
  | removeProperty (target : Phrase .expression) : Phrase .removal
  | removeLabels (target : Variable) (labels : List String) : Phrase .removal
  | set (first : Phrase .assignment) (rest : Phrase (.many .assignment)) : Phrase .update
  | remove (first : Phrase .removal) (rest : Phrase (.many .removal)) : Phrase .update
  | deletion (detach : Bool) (targets : Phrase (.many .expression)) : Phrase .deletion
  /- Clauses. -/
  | matching (optional : Bool) (selector : Option PathSelector) (first : Phrase .path)
      (rest : Phrase (.many .path)) (filter : Phrase (.maybe .expression))
      (updates : Phrase (.many .update)) (deletion : Phrase .deletion) : Phrase .clause
  | creating (first : Phrase .path) (rest : Phrase (.many .path))
      (updates : Phrase (.many .update)) : Phrase .clause
  | merging (path : Phrase .path) (onCreate onMatch : Phrase (.many .assignment))
      (updates : Phrase (.many .update)) : Phrase .clause
  | passing (distinct : Bool) (projection : Phrase .projection) (order : Phrase .rowOrder)
      (filter : Phrase (.maybe .expression)) : Phrase .clause
  | returning (distinct : Bool) (projection : Phrase .projection)
      (order : Phrase .rowOrder) : Phrase .clause
  | unwinding (list : Phrase .expression) (member : Variable)
      (updates : Phrase (.many .update)) (deletion : Phrase .deletion) : Phrase .clause
  | calling (imports : Phrase (.maybe .projection)) (body : Phrase .chain)
      (transactions : Phrase (.maybe (.maybe .expression))) : Phrase .clause
  | procedure (name : String) (arguments : Phrase (.many .expression)) (yields : List Yield)
      (filter : Phrase (.maybe .expression)) : Phrase .clause
  | iterating (member : Variable) (list : Phrase .expression) (body : Phrase .chain) :
      Phrase .clause
  | union (all : Bool) (queries : Phrase (.many .chain)) : Phrase .clause
  | deleting (deletion : Phrase .deletion) : Phrase .clause
  | finish : Phrase .clause
  | rawClause (fragment : Phrase .fragment) : Phrase .clause
  | last (clause : Phrase .clause) : Phrase .chain
  | link (clause : Phrase .clause) (rest : Phrase .chain) : Phrase .chain
  /- Text that is taken as it stands, and text that is computed piece by piece. A computation that
  looks at the texts it got, or that registers parameters which are in no phrase, is left out. -/
  | verbatim (text : String) : Phrase .fragment
  | computed (pieces : Phrase (.many .piece)) : Phrase .fragment
  | textPiece (text : String) : Phrase .piece
  | labelPiece (name : String) : Phrase .piece
  /-- A phrase of any category, with the names that it has where it stands. -/
  | phrasePiece (content : Phrase category) : Phrase .piece
  /-- A phrase that is asked for its names only, and not written. -/
  | unwrittenPiece (content : Phrase category) : Phrase .piece
  | failure (text : String) : Phrase .piece

abbrev Expression := Phrase .expression
abbrev Entries := Phrase (.many .entry)
abbrev FunctionCall := Phrase .function
abbrev Choice := Phrase .choice
abbrev Comprehension := Phrase .comprehension
abbrev Node := Phrase .node
abbrev Relationship := Phrase .relationship
abbrev Pattern := Phrase .pattern
abbrev Segment := Phrase .segment
abbrev Path := Phrase .path
abbrev Column := Phrase .column
abbrev Projection := Phrase .projection
abbrev RowOrder := Phrase .rowOrder
abbrev Assignment := Phrase .assignment
abbrev Removal := Phrase .removal
abbrev Updates := Phrase (.many .update)
abbrev Deletion := Phrase .deletion
abbrev Clause := Phrase .clause
abbrev Chain := Phrase .chain
abbrev Fragment := Phrase .fragment
abbrev Piece := Phrase .piece

namespace Phrase

/-! ## Lists -/

def ofList : List (Phrase category) → Phrase (.many category)
  | [] => nil
  | head :: tail => cons head (ofList tail)

/-- The elements of a list. Phrases of other categories have none. -/
def elements : Phrase category → List (Phrase category.element)
  | cons head tail => head :: tail.elements
  | _ => []

def toList (phrases : Phrase (.many category)) : List (Phrase category) :=
  phrases.elements

@[simp] theorem toList_nil : (nil : Phrase (.many category)).toList = [] := rfl

@[simp] theorem toList_cons (head : Phrase category) (tail : Phrase (.many category)) :
    (cons head tail).toList = head :: tail.toList := rfl

@[simp] theorem toList_ofList (phrases : List (Phrase category)) :
    (ofList phrases).toList = phrases := by
  induction phrases with
  | nil => rfl
  | cons head tail induction => rw [ofList, toList_cons, induction]

theorem ofList_elements (phrase : Phrase category) :
    ∀ {element : Category} (equal : category = .many element),
      ofList (equal ▸ phrase).toList = equal ▸ phrase := by
  induction phrase <;> intro element equal <;> cases equal
  case nil => rfl
  case cons head tail _ induction => exact congrArg (cons head) (induction rfl)

@[simp] theorem ofList_toList (phrases : Phrase (.many category)) :
    ofList phrases.toList = phrases :=
  ofList_elements phrases rfl

/-- One list behind the other. -/
def append (first second : Phrase (.many category)) : Phrase (.many category) :=
  ofList (first.toList ++ second.toList)

instance : Append (Phrase (.many category)) := ⟨append⟩

@[simp] theorem toList_append (first second : Phrase (.many category)) :
    (first ++ second).toList = first.toList ++ second.toList :=
  toList_ofList _

theorem ofList_concat (front : List (Phrase category)) (last : Phrase category) :
    ofList front ++ cons last nil = ofList (front ++ [last]) :=
  congrArg (fun front => ofList (front ++ [last])) (toList_ofList front)

/-! ## Pieces -/

def expressionPiece (expression : Expression) : Piece :=
  phrasePiece expression

def chainPiece (chain : Chain) : Piece :=
  phrasePiece chain

/-! ## Optional parts -/

def ofOption : Option (Phrase category) → Phrase (.maybe category)
  | none => absent
  | some content => present content

def toOption : Phrase (.maybe category) → Option (Phrase category)
  | absent => none
  | present content => some content

@[simp] theorem toOption_ofOption (content : Option (Phrase category)) :
    (ofOption content).toOption = content := by
  cases content <;> rfl

@[simp] theorem ofOption_toOption (content : Phrase (.maybe category)) :
    ofOption content.toOption = content := by
  cases content <;> rfl

end Phrase

end Cypher
