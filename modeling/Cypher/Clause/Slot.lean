import Cypher.Expression

/-! The slots of clauses: the parts of a clause that are filled step by step.
What a slot holds does not depend on how the other slots were filled. -/

namespace Cypher

/-! ## Filters -/

abbrev Filter := Phrase (.maybe .expression)

namespace Filter

/-- Connect a predicate with the filter so far. No predicate changes nothing. -/
def add (operator : Connective) (predicate : Option Expression) (filter : Filter) : Filter :=
  .ofOption (Expression.combine operator [filter.toOption, predicate])

/-- `target.key = value` -/
def propertyEquals (target : Variable) (entry : String × Expression) : Expression :=
  .equal (.property (.mention target) entry.1) entry.2

/-- All the given properties of `target` are to be equal to the given values. -/
def addProperties (target : Variable) (properties : Entries) (filter : Filter) : Filter :=
  filter.add .and (Expression.combine .and
    (properties.toPairs.map fun entry => some (propertyEquals target entry)))

def isSet (filter : Filter) : Bool :=
  filter.toOption.isSome

end Filter

/-! ## Updates -/

namespace Updates

/-- Neighbouring assignments form one update. -/
def setIn (first : Assignment) (rest : List Assignment) :
    List (Phrase .update) → List (Phrase .update)
  | [] => [.set first (.ofList rest)]
  | [.set earliest earlier] => [.set earliest (earlier ++ .cons first (.ofList rest))]
  | head :: tail => head :: setIn first rest tail

/-- No assignments change nothing. -/
def set (items : List Assignment) (updates : Updates) : Updates :=
  match items with
  | [] => updates
  | first :: rest => .ofList (setIn first rest updates.toList)

/-- Neighbouring removals form one update. -/
def removeIn (first : Removal) (rest : List Removal) :
    List (Phrase .update) → List (Phrase .update)
  | [] => [.remove first (.ofList rest)]
  | [.remove earliest earlier] => [.remove earliest (earlier ++ .cons first (.ofList rest))]
  | head :: tail => head :: removeIn first rest tail

/-- No removals change nothing. -/
def remove (items : List Removal) (updates : Updates) : Updates :=
  match items with
  | [] => updates
  | first :: rest => .ofList (removeIn first rest updates.toList)

def isEmpty (updates : Updates) : Bool :=
  updates.toList.isEmpty

end Updates

/-! ## Deletions -/

namespace Deletion

def empty : Deletion :=
  .deletion false .nil

/-- Once a node is to be detached, all of them are. -/
def add (detach : Bool) (targets : List Expression) : Deletion → Deletion
  | .deletion detached earlier => .deletion (detached || detach) (earlier ++ .ofList targets)

def isEmpty : Deletion → Bool
  | .deletion _ targets => targets.toList.isEmpty

end Deletion

/-! ## RowOrder -/

namespace RowOrder

def empty : RowOrder :=
  .rowOrder .nil .absent .absent

def orderBy (key : Expression) (direction : SortDirection) : RowOrder → RowOrder
  | .rowOrder keys skip limit =>
      .rowOrder (keys ++ .cons (.sortKey key direction) .nil) skip limit

/-- It replaces an earlier number of rows to skip. -/
def skip (rows : Expression) : RowOrder → RowOrder
  | .rowOrder keys _ limit => .rowOrder keys (.present rows) limit

/-- It replaces an earlier limit. -/
def limit (rows : Expression) : RowOrder → RowOrder
  | .rowOrder keys skip _ => .rowOrder keys skip (.present rows)

end RowOrder

/-! ## Projections -/

namespace Projection

def ofColumns (columns : List Column) : Projection :=
  .projection false (.ofList columns)

def all : Projection :=
  .projection true .nil

def addColumns (columns : List Column) : Projection → Projection
  | .projection star earlier => .projection star (earlier ++ .ofList columns)

def addAll : Projection → Projection
  | .projection _ columns => .projection true columns

/-- Neither all columns nor any column of its own. -/
def isEmpty : Projection → Bool
  | .projection star columns => !star && columns.toList.isEmpty

end Projection

end Cypher
