import Mathlib.Data.List.Infix
import Cypher.Environment

/-! An environment only grows. Names that were given are kept, registered
parameters stay registered, and the configuration never changes, so whatever was
resolved once is resolved to the same text from then on. -/

namespace Cypher.Environment

/-- `later` knows everything that `earlier` knows. -/
structure Grows (earlier later : Environment) : Prop where
  config : later.config = earlier.config
  names : earlier.names <+: later.names
  registrations : earlier.registrations <+: later.registrations

namespace Grows

theorem refl (environment : Environment) : environment.Grows environment :=
  ⟨rfl, List.prefix_rfl, List.prefix_rfl⟩

theorem trans {first second third : Environment} (left : first.Grows second)
    (right : second.Grows third) : first.Grows third where
  config := right.config.trans left.config
  names := left.names.trans right.names
  registrations := left.registrations.trans right.registrations

/-- A name that was given is kept. -/
theorem lookup {earlier later : Environment} (grows : earlier.Grows later)
    {owner : Owner} {name : String} (given : earlier.names.lookup owner = some name) :
    later.names.lookup owner = some name := by
  rcases grows.names with ⟨rest, equal⟩
  rw [← equal, List.lookup_append, given, Option.some_or]

end Grows

variable {environment later : Environment}

theorem lookup_append_self {owner : Owner} {name : String}
    (fresh : environment.names.lookup owner = none) :
    (environment.names ++ [(owner, name)]).lookup owner = some name := by
  rw [List.lookup_append, fresh, Option.none_or]
  simp

/-! ## Variables -/

/-- The environment in which the variable has the next name. -/
def nameVariable (environment : Environment) (binder : Variable) : Environment :=
  { environment with
    names := environment.names ++ [(.ofVariable binder.identity,
      generatedVariableName environment.config binder.kind environment.variableNames)] }

/-- A variable has a name of its own, or was given one before, or is given the next one. -/
theorem resolveVariable_cases (environment : Environment) (binder : Variable) :
    (∃ name, binder.name = some name ∧
      environment.resolveVariable binder =
        (environment.config.identifier name, environment)) ∨
    (binder.name = none ∧
      ∃ name, environment.names.lookup (.ofVariable binder.identity) = some name ∧
        environment.resolveVariable binder = (name, environment)) ∨
    (binder.name = none ∧ environment.names.lookup (.ofVariable binder.identity) = none ∧
      environment.resolveVariable binder =
        (generatedVariableName environment.config binder.kind environment.variableNames,
          environment.nameVariable binder)) := by
  unfold resolveVariable
  cases explicit : binder.name with
  | some name => exact .inl ⟨name, rfl, rfl⟩
  | none =>
      cases given : environment.names.lookup (.ofVariable binder.identity) with
      | some name => exact .inr (.inl ⟨rfl, name, rfl, rfl⟩)
      | none => exact .inr (.inr ⟨rfl, rfl, rfl⟩)

theorem resolveVariable_of_named {binder : Variable} {name : String}
    (explicit : binder.name = some name) :
    environment.resolveVariable binder =
      (environment.config.identifier name, environment) := by
  rw [resolveVariable, explicit]

theorem resolveVariable_of_given {binder : Variable} {name : String}
    (anonymous : binder.name = none)
    (given : environment.names.lookup (.ofVariable binder.identity) = some name) :
    environment.resolveVariable binder = (name, environment) := by
  simp only [resolveVariable, anonymous, given]

theorem grows_resolveVariable (environment : Environment) (binder : Variable) :
    environment.Grows (environment.resolveVariable binder).2 := by
  rcases environment.resolveVariable_cases binder with
    ⟨name, -, resolved⟩ | ⟨-, name, -, resolved⟩ | ⟨-, -, resolved⟩
  · rw [resolved]
    exact .refl environment
  · rw [resolved]
    exact .refl environment
  · rw [resolved]
    exact ⟨rfl, List.prefix_append _ _, List.prefix_rfl⟩

@[simp] theorem registrations_resolveVariable (environment : Environment)
    (binder : Variable) :
    (environment.resolveVariable binder).2.registrations = environment.registrations := by
  rcases environment.resolveVariable_cases binder with
    ⟨name, -, resolved⟩ | ⟨-, name, -, resolved⟩ | ⟨-, -, resolved⟩ <;>
    rw [resolved]
  rfl

/-- A variable that was resolved once keeps its text. -/
theorem resolveVariable_of_grows {binder : Variable}
    (grows : (environment.resolveVariable binder).2.Grows later) :
    later.resolveVariable binder = ((environment.resolveVariable binder).1, later) := by
  rcases environment.resolveVariable_cases binder with
    ⟨name, explicit, resolved⟩ | ⟨anonymous, name, given, resolved⟩ |
      ⟨anonymous, fresh, resolved⟩ <;>
    rw [resolved] at grows ⊢
  · rw [resolveVariable_of_named explicit, grows.config]
  · exact resolveVariable_of_given anonymous (grows.lookup given)
  · exact resolveVariable_of_given anonymous (grows.lookup (lookup_append_self fresh))

/-! ## Parameters -/

theorem grows_declareParameter (environment : Environment) (key : String)
    (parameter : Parameter) :
    environment.Grows (environment.declareParameter key parameter) := by
  rw [declareParameter]
  split
  · exact .refl environment
  · exact ⟨rfl, List.prefix_rfl, List.prefix_append _ _⟩

@[simp] theorem config_declareParameter (key : String) (parameter : Parameter) :
    (environment.declareParameter key parameter).config = environment.config :=
  (environment.grows_declareParameter key parameter).config

@[simp] theorem names_declareParameter (key : String) (parameter : Parameter) :
    (environment.declareParameter key parameter).names = environment.names := by
  rw [declareParameter]
  split <;> rfl

@[simp] theorem parameterNames_declareParameter (key : String) (parameter : Parameter) :
    (environment.declareParameter key parameter).parameterNames =
      environment.parameterNames := by
  rw [declareParameter]
  split <;> rfl

theorem isRegistered_declareParameter (key : String) (parameter : Parameter) :
    (environment.declareParameter key parameter).isRegistered parameter.identity := by
  rw [declareParameter]
  split
  · assumption
  · simp [isRegistered]

/-- The environment in which the parameter has the next name. -/
def nameParameter (environment : Environment) (parameter : Parameter) : Environment :=
  { environment with
    names := environment.names ++ [(.ofParameter parameter.identity,
      generatedParameterName environment.config environment.parameterNames)]
    parameterNames := environment.parameterNames + 1 }

theorem grows_nameParameter (environment : Environment) (parameter : Parameter) :
    environment.Grows (environment.nameParameter parameter) :=
  ⟨rfl, List.prefix_append _ _, List.prefix_rfl⟩

/-- A parameter is declared under the name of its own, or was given a name before, or is
declared under the next one. -/
theorem resolveParameter_cases (environment : Environment) (parameter : Parameter) :
    (∃ name, parameter.name = some name ∧
      environment.resolveParameter parameter =
        (environment.config.identifier name, environment.declareParameter name parameter)) ∨
    (parameter.name = none ∧
      ∃ name, environment.names.lookup (.ofParameter parameter.identity) = some name ∧
        environment.resolveParameter parameter = (name, environment)) ∨
    (parameter.name = none ∧
      environment.names.lookup (.ofParameter parameter.identity) = none ∧
      environment.resolveParameter parameter =
        (generatedParameterName environment.config environment.parameterNames,
          (environment.nameParameter parameter).declareParameter
            (generatedParameterName environment.config environment.parameterNames)
            parameter)) := by
  unfold resolveParameter
  cases explicit : parameter.name with
  | some name => exact .inl ⟨name, rfl, rfl⟩
  | none =>
      cases given : environment.names.lookup (.ofParameter parameter.identity) with
      | some name => exact .inr (.inl ⟨rfl, name, rfl, rfl⟩)
      | none => exact .inr (.inr ⟨rfl, rfl, rfl⟩)

theorem resolveParameter_of_named {parameter : Parameter} {name : String}
    (explicit : parameter.name = some name) :
    environment.resolveParameter parameter =
      (environment.config.identifier name, environment.declareParameter name parameter) := by
  rw [resolveParameter, explicit]

theorem resolveParameter_of_given {parameter : Parameter} {name : String}
    (anonymous : parameter.name = none)
    (given : environment.names.lookup (.ofParameter parameter.identity) = some name) :
    environment.resolveParameter parameter = (name, environment) := by
  simp only [resolveParameter, anonymous, given]

theorem grows_resolveParameter (environment : Environment) (parameter : Parameter) :
    environment.Grows (environment.resolveParameter parameter).2 := by
  rcases environment.resolveParameter_cases parameter with
    ⟨name, -, resolved⟩ | ⟨-, name, -, resolved⟩ | ⟨-, -, resolved⟩
  · rw [resolved]
    exact environment.grows_declareParameter name parameter
  · rw [resolved]
    exact .refl environment
  · rw [resolved]
    exact (environment.grows_nameParameter parameter).trans (grows_declareParameter _ _ _)

/-- A parameter that was resolved once keeps its text. -/
theorem resolveParameter_fst_of_grows {parameter : Parameter}
    (grows : (environment.resolveParameter parameter).2.Grows later) :
    (later.resolveParameter parameter).1 = (environment.resolveParameter parameter).1 := by
  rcases environment.resolveParameter_cases parameter with
    ⟨name, explicit, resolved⟩ | ⟨anonymous, name, given, resolved⟩ |
      ⟨anonymous, fresh, resolved⟩ <;>
    rw [resolved] at grows ⊢
  · rw [resolveParameter_of_named explicit, grows.config, config_declareParameter]
  · rw [resolveParameter_of_given anonymous (grows.lookup given)]
  · have kept := ((environment.nameParameter parameter).grows_declareParameter _
      parameter).trans grows
    have given := kept.lookup (lookup_append_self fresh)
    rw [resolveParameter_of_given anonymous given]

end Cypher.Environment
