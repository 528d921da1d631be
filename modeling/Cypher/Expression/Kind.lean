import Cypher.Expression

/-! What sort of expression an expression is, and a summary of raw text. -/

namespace Cypher

inductive ExpressionKind where
  | mention
  | placeholder
  | literal
  | property
  | list
  | map
  | connective
  | negation
  | comparison
  | arithmetic
  | negative
  | call
  | choice
  | nameTest
  | subquery
  | comprehension
  | raw
deriving DecidableEq, Repr

def ExpressionKind.name : ExpressionKind → String
  | mention => "Variable"
  | placeholder => "Param"
  | literal => "Literal"
  | property => "Property"
  | list => "List"
  | map => "Map"
  | connective => "Boolean"
  | negation => "Not"
  | comparison => "Comparison"
  | arithmetic => "Math"
  | negative => "Negate"
  | call => "Function"
  | choice => "Case"
  | nameTest => "Label"
  | subquery => "Subquery"
  | comprehension => "ListComprehension"
  | raw => "Raw"

/-- Properties are found by name or by position. -/
def Expression.kind : Expression → ExpressionKind
  | .mention _ => .mention
  | .placeholder _ => .placeholder
  | .literal _ => .literal
  | .property _ _ => .property
  | .subscript _ _ => .property
  | .list _ => .list
  | .map _ => .map
  | .connective _ _ _ _ => .connective
  | .negation _ => .negation
  | .comparison _ _ _ => .comparison
  | .arithmetic _ _ _ _ => .arithmetic
  | .negative _ => .negative
  | .call _ => .call
  | .choose _ => .choice
  | .nameTest _ _ _ _ => .nameTest
  | .patternQuery _ _ => .subquery
  | .chainQuery _ _ => .subquery
  | .gather _ => .comprehension
  | .raw _ => .raw

namespace Fragment

/-- A character of a summary. Control characters are written as escapes. -/
def summaryCharacter (character : Char) : List Char :=
  if character = '\\' || character = '"' then ['\\', character]
  else if character = '\n' then ['\\', 'n']
  else if character = '\r' then ['\\', 'r']
  else if character = '\t' then ['\\', 't']
  else if character.toNat = 0 then ['\\', '0']
  else if character.toNat < 0x20 || character.toNat = 0x7f then
    ['\\', 'u', '\x7b'] ++ Nat.toDigits 16 character.toNat ++ ['\x7d']
  else [character]

/-- Text is shown between quotes. What computed text will be is not known yet. -/
def summary : Fragment → String
  | .verbatim text =>
      "Raw(\"" ++ String.ofList (text.toList.flatMap summaryCharacter) ++ "\")"
  | .computed _ => "Raw(<callback>)"

example : summary (.verbatim "a\n\"b\"") = "Raw(\"a\\n\\\"b\\\"\")" := by decide

end Fragment

end Cypher
