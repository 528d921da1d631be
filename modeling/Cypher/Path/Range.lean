import Cypher.Text.Decimal

/-! How the relationships of a path may be directed and repeated, and which of
the paths that fit are selected. -/

namespace Cypher

inductive Direction where
  | right
  | left
  | undirected
deriving DecidableEq, Repr

/-- What stands in front of the brackets of a relationship. -/
def Direction.opening : Direction → String
  | right => "-"
  | left => "<-"
  | undirected => "-"

/-- What stands behind the brackets of a relationship. -/
def Direction.closing : Direction → String
  | right => "->"
  | left => "-"
  | undirected => "-"

/-- An open end has no text. -/
def boundText : Option Nat → String
  | some bound => Decimal.natural bound
  | none => ""

/-- How many relationships a variable-length relationship stands for. -/
inductive PathLength where
  | any
  | exactly (length : Nat)
  | range (least greatest : Option Nat)
deriving DecidableEq, Repr

def PathLength.text : PathLength → String
  | any => "*"
  | exactly length => "*" ++ Decimal.natural length
  | range none none => "*"
  | range least greatest => "*" ++ boundText least ++ ".." ++ boundText greatest

example : (PathLength.range (some 1) none).text = "*1.." := by decide

/-- How often a segment of a path is repeated. -/
inductive Quantifier where
  | zeroOrMore
  | oneOrMore
  | exactly (count : Nat)
  | range (least greatest : Option Nat)
deriving DecidableEq, Repr

def Quantifier.text : Quantifier → String
  | zeroOrMore => "*"
  | oneOrMore => "+"
  | exactly count => "\x7b" ++ Decimal.natural count ++ "\x7d"
  | range none none => "*"
  | range least greatest => "\x7b" ++ boundText least ++ "," ++ boundText greatest ++ "\x7d"

example : (Quantifier.range none (some 3)).text = "\x7b,3\x7d" := by decide

/-- Which of the paths that fit a pattern are matched. -/
inductive PathSelector where
  | shortest (count : Nat)
  | allShortest
  | any
  | shortestGroups (count : Nat)
deriving DecidableEq, Repr

def PathSelector.keyword : PathSelector → String
  | shortest count => "SHORTEST " ++ Decimal.natural count
  | allShortest => "ALL SHORTEST"
  | any => "ANY"
  | shortestGroups count => "SHORTEST " ++ Decimal.natural count ++ " GROUPS"

end Cypher
