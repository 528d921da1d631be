import Cypher.Clause.Kind
import Cypher.Path.Range
import Cypher.Text.Decimal

/-! What can go wrong. Most mistakes are found while a query is put together;
those that depend on the finished query are found while it is rendered. -/

namespace Cypher

/-- What a predicate on names tests a variable for. -/
inductive NameTest where
  | labels
  | types
deriving DecidableEq, Repr

def NameTest.title : NameTest → String
  | labels => "HasLabel"
  | types => "HasType"

inductive ConstructionError where
  | noNames (test : NameTest)
  | notEnoughOperands (operator : String) (count : Nat)
  | distinctStarArgument (function : String)
  | clauseAlreadyChained (next current existing : ClauseKind)
  | clauseEndsChain (next current : ClauseKind)
deriving DecidableEq, Repr

def ConstructionError.message : ConstructionError → String
  | noNames test =>
      test.title ++ " needs at least one label"
  | notEnoughOperands operator count =>
      operator ++ " needs at least 2 operands, got " ++ Decimal.natural count
  | distinctStarArgument function =>
      "Cannot use DISTINCT with star argument in function " ++ function ++ "(*)"
  | clauseAlreadyChained next current existing =>
      "Cannot add " ++ next.name ++ " clause after " ++ current.name ++ ": " ++
        current.name ++ " already has a next clause (" ++ existing.name ++ ")"
  | clauseEndsChain next current =>
      "Cannot add " ++ next.name ++ " clause after " ++ current.name ++ ": " ++
        current.name ++ " ends the chain"

inductive RenderError where
  | caseWithoutThen
  | selectorWithMultiplePatterns (selector : PathSelector) (count : Nat)
  | raw (text : String)
deriving DecidableEq, Repr

def RenderError.message : RenderError → String
  | caseWithoutThen =>
      "Cannot generate CASE ... WHEN statement without THEN"
  | selectorWithMultiplePatterns selector count =>
      selector.keyword ++ " cannot be used with multiple path patterns, got " ++
        Decimal.natural count
  | raw text =>
      "Raw render error: " ++ text

end Cypher
