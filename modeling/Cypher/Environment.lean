import Cypher.Config
import Cypher.Parameter

/-! What one rendering knows about names and parameters.

A variable or parameter without a name is given the next name of its sequence
when it is met for the first time, and keeps it. All generated names stand in
one table, and variables and parameters are numbered separately. A parameter is
registered once, when it is met for the first time. -/

namespace Cypher

/-- A parameter that was met, under the key it has in the result. -/
structure Registration where
  identity : Identity
  key : String
  value : Option Value

/-- Whom a generated name was given to. No variable has the identity of a
parameter. -/
inductive Owner where
  | ofVariable (identity : Identity)
  | ofParameter (identity : Identity)
deriving DecidableEq, Repr

structure Environment where
  config : Config
  /-- Generated names in the order in which they were given. -/
  names : List (Owner × String) := []
  /-- How many of the generated names were given to parameters. -/
  parameterNames : Nat := 0
  registrations : List Registration := []

namespace Environment

def empty (config : Config) : Environment :=
  { config }

/-! ## Names -/

def generatedVariableName (config : Config) (kind : VariableKind) (number : Nat) : String :=
  config.namePrefixes.forVariables ++ kind.stem ++ Decimal.natural number

def generatedParameterName (config : Config) (number : Nat) : String :=
  config.namePrefixes.forParameters ++ Parameter.stem ++ Decimal.natural number

/-- How many of the generated names were given to variables. -/
def variableNames (environment : Environment) : Nat :=
  environment.names.length - environment.parameterNames

/-- The text of a variable, and the environment that remembers it. -/
def resolveVariable (environment : Environment) (binder : Variable) :
    String × Environment :=
  match binder.name with
  | some name => (environment.config.identifier name, environment)
  | none =>
      match environment.names.lookup (.ofVariable binder.identity) with
      | some name => (name, environment)
      | none =>
          let name := generatedVariableName environment.config binder.kind
            environment.variableNames
          (name, { environment with
            names := environment.names ++ [(.ofVariable binder.identity, name)] })

/-! ## Parameters -/

def isRegistered (environment : Environment) (identity : Identity) : Bool :=
  environment.registrations.any (·.identity = identity)

/-- Register a parameter under `key`, unless it is registered already. -/
def declareParameter (environment : Environment) (key : String) (parameter : Parameter) :
    Environment :=
  if environment.isRegistered parameter.identity then
    environment
  else
    { environment with
      registrations := environment.registrations ++
        [{ identity := parameter.identity, key, value := parameter.value }] }

/-- The name of a parameter without the dollar sign, and the environment in
which the parameter is registered. -/
def resolveParameter (environment : Environment) (parameter : Parameter) :
    String × Environment :=
  match parameter.name with
  | some name =>
      (environment.config.identifier name, environment.declareParameter name parameter)
  | none =>
      match environment.names.lookup (.ofParameter parameter.identity) with
      | some name => (name, environment)
      | none =>
          let name := generatedParameterName environment.config environment.parameterNames
          let named : Environment := { environment with
            names := environment.names ++ [(.ofParameter parameter.identity, name)]
            parameterNames := environment.parameterNames + 1 }
          (name, named.declareParameter name parameter)

def parameterCount (environment : Environment) : Nat :=
  environment.registrations.length

/-- The values of the registered parameters. Of several parameters with one key
the last one counts; placeholders are left to the caller. -/
def collectParameters (environment : Environment) : Fields Value :=
  Fields.ofList (environment.registrations.filterMap fun registration =>
    registration.value.map fun value => (registration.key, value))

/-! ## Values without a placeholder -/

/-- A number above those of all parameters. -/
def numberAbove : List Registration → Nat
  | [] => 0
  | registration :: rest => max (registration.identity.number + 1) (numberAbove rest)

/-- An identity that no registered parameter has. -/
def newIdentity (environment : Environment) : Identity :=
  ⟨numberAbove environment.registrations⟩

/-- Register a value under `key`, for a parameter of its own. -/
def declareValue (environment : Environment) (key : String) (value : Value) : Environment :=
  environment.declareParameter key
    { identity := environment.newIdentity, name := some key, value := some value }

/-- Register values under their keys, one after the other. -/
def declareValues (environment : Environment) (values : Fields Value) : Environment :=
  values.foldl (fun environment (key, value) => environment.declareValue key value) environment

theorem number_lt_numberAbove {registrations : List Registration} {registration : Registration}
    (member : registration ∈ registrations) :
    registration.identity.number < numberAbove registrations := by
  induction registrations with
  | nil => cases member
  | cons head tail induction =>
      rw [numberAbove]
      rcases List.mem_cons.mp member with rfl | later
      · exact Nat.le_max_left _ _
      · exact Nat.lt_of_lt_of_le (induction later) (Nat.le_max_right _ _)

theorem isRegistered_newIdentity (environment : Environment) :
    environment.isRegistered environment.newIdentity = false := by
  rw [isRegistered, List.any_eq_false]
  intro registration member same
  have less := number_lt_numberAbove member
  rw [of_decide_eq_true same] at less
  exact Nat.lt_irrefl _ less

/-- A declared value takes precedence over one that was registered under its key before. -/
theorem collectParameters_declareValue (environment : Environment) (key : String)
    (value : Value) :
    (environment.declareValue key value).collectParameters =
      environment.collectParameters.insert key value := by
  rw [declareValue, declareParameter, isRegistered_newIdentity, collectParameters,
    collectParameters, Fields.ofList, Fields.ofList]
  simp only [Bool.false_eq_true, if_false, List.filterMap_append, List.filterMap_cons,
    Option.map_some, List.filterMap_nil, List.foldl_append, List.foldl_cons, List.foldl_nil]

theorem collectParameters_declareValues (environment : Environment) (values : Fields Value) :
    (environment.declareValues values).collectParameters =
      environment.collectParameters.override values := by
  induction values generalizing environment with
  | nil => rfl
  | cons entry rest induction =>
      rcases entry with ⟨key, value⟩
      calc (environment.declareValues ((key, value) :: rest)).collectParameters
        _ = ((environment.declareValue key value).declareValues rest).collectParameters := rfl
        _ = (environment.declareValue key value).collectParameters.override rest := induction _
        _ = (environment.collectParameters.insert key value).override rest := by
          rw [collectParameters_declareValue]
        _ = environment.collectParameters.override ((key, value) :: rest) := rfl

example :
    let first : Variable := { identity := ⟨0⟩, kind := .node }
    let second : Variable := { identity := ⟨1⟩ }
    let (firstName, environment) := (empty {}).resolveVariable first
    let (secondName, environment) := environment.resolveVariable second
    (firstName, secondName, (environment.resolveVariable first).1) =
      ("this0", "var1", "this0") := by decide

end Environment

end Cypher
