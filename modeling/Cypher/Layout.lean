import Cypher.Environment
import Cypher.Error
import Cypher.Text.Blank
import Cypher.Text.Block

/-! Layouts: query text whose names are still open.

A layout says how text is put together from pieces. Only rendering gives names
to its variables and parameters, from left to right. What depends on finished
text is a layout of its own: stacking, indentation, the new name that may be
dropped, and the line break that an empty clause does not need. -/

namespace Cypher

/-- Text that depends on the configuration only. -/
inductive Leaf where
  | text (content : String)
  | identifier (name : String)
  | label (name : String)
  | labels (names : List String)
  | relationshipTypes (names : List String)
  | literal (value : Value)

namespace Leaf

def render (config : Config) : Leaf → String
  | .text content => content
  | .identifier name => config.identifier name
  | .label name => config.label name
  | .labels names => config.labels names
  | .relationshipTypes names => config.relationshipTypes names
  | .literal value => value.literal config.extraReservedWords

end Leaf

inductive Layout where
  | leaf (content : Leaf)
  /-- A mention of a variable. -/
  | mention (binder : Variable)
  /-- A mention of a parameter. A parameter that is `null` needs no name. -/
  | placeholder (parameter : Parameter)
  | fault (error : RenderError)
  | append (first second : Layout)
  /-- One below the other, where empty text takes no line. -/
  | stack (upper lower : Layout)
  /-- One level further to the right. -/
  | indent (body : Layout)
  /-- A value and its other name, unless the value has that name already. -/
  | aliased (value : Layout) (newName : Variable)
  /-- Without the blanks in front. -/
  | trimStart (body : Layout)
  /-- One below the other. Empty text above takes no line, and with it go the
  line breaks in front of the text below. -/
  | verbatim (upper lower : Layout)
  /-- No text, though the body gets its names and registers its parameters. -/
  | unwritten (body : Layout)

namespace Layout

/-! ## Composition -/

def text (content : String) : Layout :=
  leaf (.text content)

def empty : Layout :=
  text ""

instance : Coe String Layout := ⟨text⟩

instance : Append Layout := ⟨append⟩

def joined (separator : String) : List Layout → Layout
  | [] => empty
  | [last] => last
  | head :: tail => head ++ separator ++ joined separator tail

/-- Each layout on a line of its own. -/
def lines : List Layout → Layout :=
  joined "\n"

/-- An optional layout behind `lead`. -/
def optional (lead : String) : Option Layout → Layout
  | none => empty
  | some layout => lead ++ layout

/-- A block in braces with its own lines. -/
def block (body : Layout) : Layout :=
  "\x7b\n" ++ indent body ++ "\n\x7d"

/-- Entries of a map in braces. An empty map has no blanks. -/
def map (entries : List Layout) : Layout :=
  if entries.isEmpty then "\x7b\x7d" else "\x7b " ++ joined ", " entries ++ " \x7d"

/-! ## Rendering -/

/-- Rendering may name variables, register parameters and fail. What was named
and registered before a failure stays so. -/
abbrev Rendering := EStateM RenderError Environment

def render : Layout → Rendering String
  | .leaf content => do
      let environment ← get
      return content.render environment.config
  | .mention binder =>
      modifyGet fun environment => environment.resolveVariable binder
  | .placeholder parameter =>
      if parameter.isNull then
        return "NULL"
      else do
        let name ← modifyGet fun environment => environment.resolveParameter parameter
        return "$" ++ name
  | .fault error =>
      throw error
  | .append first second => do
      let firstText ← first.render
      let secondText ← second.render
      return firstText ++ secondText
  | .stack upper lower => do
      let upperText ← upper.render
      let lowerText ← lower.render
      return Block.stack upperText lowerText
  | .indent body => do
      let bodyText ← body.render
      return Block.indent bodyText
  | .aliased value newName => do
      let valueText ← value.render
      let nameText ← modifyGet fun environment => environment.resolveVariable newName
      return if nameText = valueText then valueText else valueText ++ " AS " ++ nameText
  | .trimStart body => do
      let bodyText ← body.render
      return Blank.trimStart bodyText
  | .verbatim upper lower => do
      let upperText ← upper.render
      let lowerText ← lower.render
      return if upperText.isEmpty then Block.dropBreaks lowerText
        else upperText ++ "\n" ++ lowerText
  | .unwritten body => do
      let _ ← body.render
      return ""

/-- The text of a layout in an environment, or what went wrong. -/
def result (layout : Layout) (environment : Environment) : Except RenderError String :=
  match layout.render environment with
  | .ok text _ => .ok text
  | .error error _ => .error error

/-- The environment after a layout was rendered, even if that failed. -/
def environmentAfter (layout : Layout) (environment : Environment) : Environment :=
  match layout.render environment with
  | .ok _ after => after
  | .error _ after => after

end Layout

end Cypher
