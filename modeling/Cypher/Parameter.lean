import Cypher.Value
import Cypher.Variable

/-! Parameters: places for values that are sent beside the query text. -/

namespace Cypher

/-- A parameter without a value is a placeholder that the caller fills in. That
is not the same as a parameter whose value is `null`. -/
structure Parameter where
  identity : Identity
  name : Option String := none
  value : Option Value := none

namespace Parameter

/-- Generated names of parameters start with this text. -/
def stem : String := "param"

def isSame (left right : Parameter) : Bool :=
  left.identity = right.identity

def hasValue (parameter : Parameter) : Bool :=
  parameter.value.isSome

/-- The value is `null`. A placeholder is not. -/
def isNull (parameter : Parameter) : Bool :=
  match parameter.value with
  | some value => value.isNull
  | none => false

end Parameter

end Cypher
