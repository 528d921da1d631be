import Cypher.Phrase

/-! Putting expressions together. Every operation here gives a well-formed
expression or says why there is none. -/

namespace Cypher

/-! ## Maps -/

namespace Entries

/-- A key that is present already keeps its place and gets the new value. -/
def insertInto (key : String) (value : Expression) :
    List (Phrase .entry) → List (Phrase .entry)
  | [] => [.entry key value]
  | .entry other old :: rest =>
      if other = key then .entry key value :: rest
      else .entry other old :: insertInto key value rest

def insert (key : String) (value : Expression) (entries : Entries) : Entries :=
  .ofList (insertInto key value entries.toList)

/-- Insert the pairs one after the other. -/
def ofPairs (pairs : List (String × Expression)) : Entries :=
  pairs.foldl (fun entries (key, value) => entries.insert key value) .nil

def toPairs (entries : Entries) : List (String × Expression) :=
  entries.toList.map fun | .entry key value => (key, value)

def keys (entries : Entries) : List String :=
  entries.toPairs.map (·.1)

def size (entries : Entries) : Nat :=
  entries.toList.length

example (first second third : Expression) :
    (ofPairs [("b", first), ("a", second), ("b", third)]).toPairs =
      [("b", third), ("a", second)] := rfl

end Entries

/-! ## Operators -/

namespace Expression

/-- At least two operands have to be given. -/
def connect (operator : Connective) :
    List Expression → Except ConstructionError Expression
  | first :: second :: rest => .ok (.connective operator first second (.ofList rest))
  | operands => .error (.notEnoughOperands operator.keyword operands.length)

/-- Join the operands that are there. One operand needs no operator, and without
operands there is no expression. -/
def combine (operator : Connective) (operands : List (Option Expression)) :
    Option Expression :=
  match operands.filterMap id with
  | [] => none
  | [single] => some single
  | first :: second :: rest => some (.connective operator first second (.ofList rest))

example (first second : Expression) :
    combine .or [none, some first, some second] =
      some (.connective .or first second .nil) := rfl
example (single : Expression) : combine .and [some single, none] = some single := rfl

/-- At least two operands have to be given. -/
def calculate (operator : Arithmetic) :
    List Expression → Except ConstructionError Expression
  | first :: second :: rest => .ok (.arithmetic operator first second (.ofList rest))
  | operands => .error (.notEnoughOperands operator.symbol operands.length)

def binary (operator : Arithmetic) (left right : Expression) : Expression :=
  .arithmetic operator left right .nil

def compare (comparator : Comparator) (left right : Expression) : Expression :=
  .comparison comparator left (.present right)

def test (comparator : Comparator) (operand : Expression) : Expression :=
  .comparison comparator operand .absent

def equal (left right : Expression) : Expression :=
  compare .equal left right

/-! ## Labels and types -/

/-- At least one name has to be given. -/
def hasNames (test : NameTest) (target : Variable) :
    List String → Except ConstructionError Expression
  | [] => .error (.noNames test)
  | first :: rest => .ok (.nameTest test target first rest)

def hasLabels : Variable → List String → Except ConstructionError Expression :=
  hasNames .labels

def hasTypes : Variable → List String → Except ConstructionError Expression :=
  hasNames .types

end Expression

/-! ## Functions -/

namespace FunctionCall

def ofArguments (name : String) (arguments : List Expression) : FunctionCall :=
  .function name false (.ofList arguments)

/-- All rows cannot be distinct values. -/
def distinct : FunctionCall → Except ConstructionError FunctionCall
  | .function name _ arguments => .ok (.function name true arguments)
  | .starFunction name => .error (.distinctStarArgument name)

def count (argument : Expression) : FunctionCall :=
  ofArguments "count" [argument]

def countAll : FunctionCall :=
  .starFunction "count"

def collect (argument : Expression) : FunctionCall :=
  ofArguments "collect" [argument]

def size (argument : Expression) : FunctionCall :=
  ofArguments "size" [argument]

def coalesce (arguments : List Expression) : FunctionCall :=
  ofArguments "coalesce" arguments

def name : FunctionCall → String
  | .function name _ _ => name
  | .starFunction name => name

def isStar : FunctionCall → Bool
  | .function _ _ _ => false
  | .starFunction _ => true

end FunctionCall

/-! ## Choices -/

namespace Choice

def start (subject : Option Expression) : Choice :=
  .choice (.ofOption subject) .nil .absent

/-- Begin a branch. Its result comes later. -/
def when (condition : Expression) : Choice → Choice
  | .choice subject branches default =>
      .choice subject (branches ++ .cons (.branch condition .absent) .nil) default

def resultOfLast (result : Expression) : List (Phrase .branch) → List (Phrase .branch)
  | [] => []
  | [.branch condition _] => [.branch condition (.present result)]
  | head :: tail => head :: resultOfLast result tail

/-- The result of the last branch. It replaces an earlier one, and without a
branch it is dropped. -/
def result (result : Expression) : Choice → Choice
  | .choice subject branches default =>
      .choice subject (.ofList (resultOfLast result branches.toList)) default

/-- The result if no branch fits. It replaces an earlier one. -/
def otherwise (result : Expression) : Choice → Choice
  | .choice subject branches _ => .choice subject branches (.present result)

end Choice

/-! ## Comprehensions -/

namespace Comprehension

def ofList (member : Variable) (list : Expression) : Comprehension :=
  .comprehension member list .absent .absent

/-- It replaces an earlier filter. -/
def filtered (filter : Expression) : Comprehension → Comprehension
  | .comprehension member list _ projection =>
      .comprehension member list (.present filter) projection

/-- It replaces an earlier projection. -/
def projected (projection : Expression) : Comprehension → Comprehension
  | .comprehension member list filter _ =>
      .comprehension member list filter (.present projection)

end Comprehension

end Cypher
