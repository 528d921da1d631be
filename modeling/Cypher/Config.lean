import Cypher.Value

/-! What can be chosen for the text of one query. -/

namespace Cypher

/-- What stands between two labels. -/
inductive LabelOperator where
  | colon
  | ampersand
deriving DecidableEq, Repr

namespace LabelOperator

def token : LabelOperator → String
  | colon => ":"
  | ampersand => "&"

def ofToken? (token : String) : Option LabelOperator :=
  if token = ":" then some colon
  else if token = "&" then some ampersand
  else none

@[simp] theorem ofToken?_token (operator : LabelOperator) :
    ofToken? operator.token = some operator := by
  cases operator <;> decide

end LabelOperator

/-- Text in front of every generated name. -/
structure NamePrefixes where
  forVariables : String := ""
  forParameters : String := ""
deriving DecidableEq, Repr

def NamePrefixes.uniform (text : String) : NamePrefixes :=
  ⟨text, text⟩

/-- Names that are written as they stand, without quotes. -/
structure Verbatim where
  nodeLabels : Bool := false
  relationshipTypes : Bool := false
deriving DecidableEq, Repr

structure Config where
  /-- Written in front of the query as `CYPHER version`. -/
  version : Option String := none
  namePrefixes : NamePrefixes := {}
  /-- Parameters that are part of every result. -/
  extraParameters : Fields Value := []
  labelOperator : LabelOperator := .colon
  verbatim : Verbatim := {}
  /-- Words that are quoted in addition to the reserved ones. -/
  extraReservedWords : List String := []

namespace Config

instance : Inhabited Config := ⟨{}⟩

def withVersion (version : String) (config : Config) : Config :=
  { config with version := some version }

def withNamePrefixes (namePrefixes : NamePrefixes) (config : Config) : Config :=
  { config with namePrefixes }

def withExtraParameter (name : String) (value : Value) (config : Config) : Config :=
  { config with extraParameters := config.extraParameters.insert name value }

def withExtraParameters (parameters : List (String × Value)) (config : Config) : Config :=
  { config with extraParameters := config.extraParameters.override parameters }

def withLabelOperator (labelOperator : LabelOperator) (config : Config) : Config :=
  { config with labelOperator }

def withVerbatim (verbatim : Verbatim) (config : Config) : Config :=
  { config with verbatim }

def withReservedWord (word : String) (config : Config) : Config :=
  { config with extraReservedWords := config.extraReservedWords ++ [word] }

/-! ## Names as text -/

def identifier (config : Config) (name : String) : String :=
  Identifier.escape config.extraReservedWords name

def label (config : Config) (name : String) : String :=
  if config.verbatim.nodeLabels then name else config.identifier name

def relationshipType (config : Config) (name : String) : String :=
  if config.verbatim.relationshipTypes then name else config.identifier name

/-- Labels behind a colon. No labels have no text. -/
def labels (config : Config) (names : List String) : String :=
  if names.isEmpty then ""
  else ":" ++ config.labelOperator.token.intercalate (names.map config.label)

/-- Alternative relationship types behind a colon. -/
def relationshipTypes (config : Config) (names : List String) : String :=
  if names.isEmpty then ""
  else ":" ++ "|".intercalate (names.map config.relationshipType)

example : labels {} ["Movie", "Old Film"] = ":Movie:\x60Old Film\x60" := by decide
example : relationshipTypes {} ["ACTED_IN", "DIRECTED"] = ":ACTED_IN|DIRECTED" := by decide

end Config

end Cypher
