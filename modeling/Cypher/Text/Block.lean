/-! Lines and blocks of query text. A block is indented by four spaces a line,
and blocks are put below each other with one line break between them. -/

namespace Cypher.Block

/-! ## Indentation

A line ends at a line feed, with or without a carriage return before it. The
text after the last line feed is a line only if it has a character. -/

def margin : String := "    "

/-- The indented text, of which `written` is there already. The margin of the
current line is still to be written if the line is `fresh`, so that an empty
line stays empty. -/
def indentFrom (written : String) (fresh : Bool) : List Char → String
  | [] => written
  | '\n' :: rest =>
      if rest.isEmpty then written else indentFrom (written.push '\n') true rest
  | '\r' :: '\n' :: rest =>
      if rest.isEmpty then written else indentFrom (written.push '\n') true rest
  | head :: rest =>
      indentFrom ((if fresh then written ++ margin else written).push head) false rest

/-- Move every line of `text` that is not empty to the right by one level. -/
def indent (text : String) : String :=
  indentFrom "" true text.toList

example : indent "a\n\nb" = "    a\n\n    b" := by decide
example : indent "a\r\nb\r" = "    a\n    b\r" := by decide
example : indent "a\n\n" = "    a\n" := by decide

/-! ## Stacks -/

/-- Put `lower` on the line below `upper`. Empty text takes no line. -/
def stack (upper lower : String) : String :=
  if upper.isEmpty then lower
  else if lower.isEmpty then upper
  else upper ++ "\n" ++ lower

/-! ## Leading line breaks -/

/-- Drop every line feed in front of the first other character. -/
def dropBreaks (text : String) : String :=
  String.ofList (text.toList.dropWhile (· == '\n'))

example : dropBreaks "\n\n a\n" = " a\n" := by decide

end Cypher.Block
