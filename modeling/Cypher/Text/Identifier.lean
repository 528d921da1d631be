/-! Identifiers as query text. A plain identifier that is no reserved word is
written as it stands. Every other name is written between backticks, with the
backticks inside it doubled. -/

namespace Cypher.Identifier

/-! ## Reserved words -/

/-- Words that are always quoted when they are used as identifiers. -/
def reservedWords : List String :=
  ["contains", "in", "where", "is"]

/-- Equality up to the case of ASCII letters. -/
def sameWord (left right : String) : Bool :=
  left.toList.map Char.toLower == right.toList.map Char.toLower

/-- `extraWords` extends the built-in reserved words. -/
def isReserved (extraWords : List String) (name : String) : Bool :=
  (reservedWords ++ extraWords).any (sameWord name)

example : isReserved ["Match"] "mATCH" = true := by decide

/-! ## Plain identifiers -/

def isInitial (character : Char) : Bool :=
  character.isAlpha || character == '_'

def isSubsequent (character : Char) : Bool :=
  character.isAlphanum || character == '_'

/-- An ASCII letter or underscore, followed by ASCII letters, digits and
underscores. -/
def isPlain (name : String) : Bool :=
  match name.toList with
  | [] => false
  | head :: tail => isInitial head && tail.all isSubsequent

example : isPlain "2nd" = false := by decide

/-! ## Quoted identifiers -/

def backtick : Char := '\x60'

/-- A backtick inside a quoted identifier is written twice. -/
def doubleBackticks : List Char → List Char
  | [] => []
  | head :: tail =>
      if head = backtick then
        backtick :: backtick :: doubleBackticks tail
      else
        head :: doubleBackticks tail

def quote (name : String) : String :=
  String.ofList (backtick :: doubleBackticks name.toList ++ [backtick])

/-- The text of `name` wherever the query language expects an identifier. -/
def escape (extraWords : List String) (name : String) : String :=
  if isPlain name && !isReserved extraWords name then name else quote name

example : escape [] "a\x60b" = "\x60a\x60\x60b\x60" := by decide
example : escape [] "Where" = "\x60Where\x60" := by decide

end Cypher.Identifier
