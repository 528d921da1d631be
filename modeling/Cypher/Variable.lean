/-! Variables. A variable is known by its identity: two variables with one name
are still two variables. -/

namespace Cypher

structure Identity where
  number : Nat
deriving DecidableEq, Repr

inductive VariableKind where
  | node
  | relationship
  | path
  | generic
deriving DecidableEq, Repr

/-- Generated names of the kind start with this text. -/
def VariableKind.stem : VariableKind → String
  | node => "this"
  | relationship => "this"
  | path => "p"
  | generic => "var"

/-- A variable without a name gets one when it is rendered. -/
structure Variable where
  identity : Identity
  kind : VariableKind := .generic
  name : Option String := none
deriving Repr

namespace Variable

def isNamed (binder : Variable) : Bool :=
  binder.name.isSome

def isSame (left right : Variable) : Bool :=
  left.identity = right.identity

end Variable

end Cypher
