import Cypher.Double
import Cypher.Double.Text
import Cypher.Fields
import Cypher.Text.Identifier
import Cypher.Text.Quoted

/-! Values of parameters and literals, and their literal text. -/

namespace Cypher

/-- The members of an object are listed by key. -/
inductive Value where
  | null
  | boolean (truth : Bool)
  | integer (number : Int)
  | double (number : Double)
  | string (text : String)
  | array (elements : List Value)
  | object (members : List (String × Value))

namespace Value

instance : Inhabited Value := ⟨null⟩

def isNull : Value → Bool
  | null => true
  | _ => false

/-- An object with the given members in any order. -/
def ofMembers (members : List (String × Value)) : Value :=
  object (Fields.ofList members)

/-- Infinities and what is no number become `null`. -/
def ofFloat (float : Float) : Value :=
  match Double.ofFloat? float with
  | some number => double number
  | none => null

def ofFloat32 (float : Float32) : Value :=
  ofFloat float.toFloat

/-! ## Literal text -/

def listText (elements : List String) : String :=
  "[" ++ ", ".intercalate elements ++ "]"

/-- The entries of a map between braces. An empty map has no blanks. -/
def mapText (entries : List String) : String :=
  if entries.isEmpty then "\x7b\x7d" else "\x7b " ++ ", ".intercalate entries ++ " \x7d"

mutual

/-- `extraWords` are quoted as object keys in addition to the reserved words. -/
def literal (extraWords : List String) : Value → String
  | null => "NULL"
  | boolean true => "true"
  | boolean false => "false"
  | integer number => Decimal.integer number
  | double number => number.text
  | string text => Quoted.quote text
  | array elements => listText (elementLiterals extraWords elements)
  | object members => mapText (memberLiterals extraWords members)

def elementLiterals (extraWords : List String) : List Value → List String
  | [] => []
  | head :: tail => head.literal extraWords :: elementLiterals extraWords tail

def memberLiterals (extraWords : List String) : List (String × Value) → List String
  | [] => []
  | (key, value) :: rest =>
      (Identifier.escape extraWords key ++ ": " ++ value.literal extraWords) ::
        memberLiterals extraWords rest

end

example : literal [] (array [integer 1, string "a", null]) = "[1, \"a\", NULL]" := by decide
example : literal [] (ofMembers [("title", string "x"), ("my key", integer 1)]) =
    "\x7b \x60my key\x60: 1, title: \"x\" \x7d" := by decide

end Value

end Cypher
