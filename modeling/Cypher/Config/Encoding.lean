import Cypher.Config

/-! Configurations as values. A configuration is written as an object with all
its members. It is read from an object by the names of its members, or from an
array by their order. Members are read one by one: a missing member has its
default, an unknown name is ignored, and a member of another shape makes the
whole configuration unreadable. -/

namespace Cypher

namespace Value

def truth? : Value → Option Bool
  | boolean truth => some truth
  | _ => none

def text? : Value → Option String
  | string text => some text
  | _ => none

/-- `null` stands for text that is absent. -/
def optionalText? : Value → Option (Option String)
  | null => some none
  | string text => some (some text)
  | _ => none

def members? : Value → Option (Fields Value)
  | object members => some members
  | _ => none

def texts? : Value → Option (List String)
  | array elements => elements.mapM text?
  | _ => none

/-- The members of a record whose members are called `names`. An array gives the
first of them in order; it may end early, but may not go on after the last. -/
def record? (names : List String) : Value → Option (Fields Value)
  | object members => some members
  | array elements =>
      if elements.length ≤ names.length then
        some (Fields.ofList (names.zip elements))
      else
        none
  | _ => none

example : record? ["a", "b"] (array [null]) = some [("a", null)] := rfl

/-- Read the member called `key`, or take the default if there is none. -/
def readMember (read : Value → Option α) (default : α)
    (members : Fields Value) (key : String) : Option α :=
  match members.find? key with
  | none => some default
  | some value => read value

end Value

open Value (readMember)

namespace LabelOperator

def toValue (operator : LabelOperator) : Value :=
  .string operator.token

/-- The token may also be the only key of an object, with nothing behind it. -/
def ofValue? : Value → Option LabelOperator
  | .string token => ofToken? token
  | .object [(token, .null)] => ofToken? token
  | _ => none

end LabelOperator

namespace NamePrefixes

def memberNames : List String :=
  ["variables", "params"]

def toValue (namePrefixes : NamePrefixes) : Value :=
  .object [("params", .string namePrefixes.forParameters),
    ("variables", .string namePrefixes.forVariables)]

def ofMembers? (members : Fields Value) : Option NamePrefixes := do
  let forVariables ← readMember Value.text? "" members "variables"
  let forParameters ← readMember Value.text? "" members "params"
  some { forVariables, forParameters }

def ofValue? (value : Value) : Option NamePrefixes :=
  (value.record? memberNames).bind ofMembers?

end NamePrefixes

namespace Verbatim

def memberNames : List String :=
  ["disable_node_label_escaping", "disable_relationship_type_escaping"]

def toValue (verbatim : Verbatim) : Value :=
  .object [("disable_node_label_escaping", .boolean verbatim.nodeLabels),
    ("disable_relationship_type_escaping", .boolean verbatim.relationshipTypes)]

def ofMembers? (members : Fields Value) : Option Verbatim := do
  let nodeLabels ←
    readMember Value.truth? false members "disable_node_label_escaping"
  let relationshipTypes ←
    readMember Value.truth? false members "disable_relationship_type_escaping"
  some { nodeLabels, relationshipTypes }

def ofValue? (value : Value) : Option Verbatim :=
  (value.record? memberNames).bind ofMembers?

end Verbatim

namespace Config

def memberNames : List String :=
  ["cypher_version", "prefix", "extra_params", "label_operator", "unsafe_escape",
   "extra_reserved_words"]

def versionValue : Option String → Value
  | none => .null
  | some version => .string version

def toValue (config : Config) : Value :=
  .object [("cypher_version", versionValue config.version),
    ("extra_params", .object config.extraParameters),
    ("extra_reserved_words", .array (config.extraReservedWords.map .string)),
    ("label_operator", config.labelOperator.toValue),
    ("prefix", config.namePrefixes.toValue),
    ("unsafe_escape", config.verbatim.toValue)]

def ofMembers? (members : Fields Value) : Option Config := do
  let version ← readMember Value.optionalText? none members "cypher_version"
  let namePrefixes ← readMember NamePrefixes.ofValue? {} members "prefix"
  let extraParameters ← readMember Value.members? [] members "extra_params"
  let labelOperator ← readMember LabelOperator.ofValue? .colon members "label_operator"
  let verbatim ← readMember Verbatim.ofValue? {} members "unsafe_escape"
  let extraReservedWords ← readMember Value.texts? [] members "extra_reserved_words"
  some { version, namePrefixes, extraParameters, labelOperator, verbatim,
         extraReservedWords }

def ofValue? (value : Value) : Option Config :=
  (value.record? memberNames).bind ofMembers?

example : (ofValue? (.object [("label_operator", .string "&")])).map labelOperator =
    some .ampersand := by decide +kernel
example : (ofValue? (.array [.null, .array [.string "v"]])).map namePrefixes =
    some { forVariables := "v" } := by decide +kernel

end Config

end Cypher
