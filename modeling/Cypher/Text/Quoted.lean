/-! Text between double quotes. A backslash stands before every double quote
and before every backslash; every other character stands for itself, line
breaks included. -/

namespace Cypher.Quoted

def needsEscape (character : Char) : Bool :=
  character == '\\' || character == '"'

def escapeCharacters : List Char → List Char
  | [] => []
  | head :: tail =>
      if needsEscape head then
        '\\' :: head :: escapeCharacters tail
      else
        head :: escapeCharacters tail

/-- The body of a string literal that stands for `text`. -/
def escape (text : String) : String :=
  String.ofList (escapeCharacters text.toList)

/-- The same body. Text without a character that needs a backslash is taken as it stands. -/
def escapeSparingly (text : String) : String :=
  if text.toList.any needsEscape then escape text else text

/-- The string literal that stands for `text`. -/
def quote (text : String) : String :=
  "\"" ++ escape text ++ "\""

example : escape "say \"hi\"" = "say \\\"hi\\\"" := by decide

end Cypher.Quoted
