import Cypher.Proofs.Naming
import Cypher.Query

/-! Which parameters a query comes with. Every parameter that is not `null` is
registered when it is met first, under its own name or under the generated one,
and the values of the registered parameters are handed out with the text. -/

namespace Cypher

/-! ## Keys -/

/-- The key of a parameter among all `parameters` of a reading. -/
def parameterKey (config : Config) (parameters : List Parameter) (parameter : Parameter) :
    String :=
  match parameter.name with
  | some name => name
  | none => Environment.generatedParameterName config
      (((anonymousParameters parameters).map (·.identity)).idxOf parameter.identity)

/-- A parameter keeps its key when others are met after it. -/
theorem parameterKey_concat (config : Config) {parameters : List Parameter}
    {parameter : Parameter} (known : parameter ∈ parameters) (next : Parameter) :
    parameterKey config (parameters ++ [next]) parameter =
      parameterKey config parameters parameter := by
  unfold parameterKey
  cases explicit : parameter.name with
  | some name => rfl
  | none =>
      cases nextExplicit : next.name with
      | some name => rw [anonymousParameters_concat_of_named parameters nextExplicit]
      | none =>
          have listed : parameter.identity ∈
              (anonymousParameters parameters).map (·.identity) := by
            refine (mem_map_distinctBy _ _ _).mpr (List.mem_map_of_mem ?_)
            exact List.mem_filter.mpr ⟨known, by simp [explicit]⟩
          rw [anonymousParameters_concat parameters nextExplicit, keepNew]
          by_cases present : next.identity ∈
              (anonymousParameters parameters).map (·.identity)
          · rw [if_pos present]
          · rw [if_neg present, List.map_append]
            simp only [List.idxOf_append_of_mem listed]

namespace Reading

/-- The parameters that are registered, in the order of their first mentions. -/
def registered (reading : Reading) : List Parameter :=
  distinctBy (·.identity) reading.parameters

/-- The values that are handed out under their keys. Placeholders have none. -/
def emitted (config : Config) (reading : Reading) : List (String × Value) :=
  reading.registered.filterMap fun parameter =>
    parameter.value.map fun value =>
      (parameterKey config reading.parameters parameter, value)

end Reading

namespace Environment

/-! ## Registering -/

/-- `environment` has met `binders` and `parameters`, has named no others, and has
registered exactly those parameters. -/
structure Registered (environment : Environment) (config : Config)
    (binders : List Variable) (parameters : List Parameter) : Prop where
  numbered : environment.Numbered config binders parameters
  registrations : environment.registrations =
    (distinctBy (·.identity) parameters).map fun parameter =>
      { identity := parameter.identity
        key := parameterKey config parameters parameter
        value := parameter.value }

namespace Registered

variable {environment : Environment} {config : Config} {binders : List Variable}
  {parameters : List Parameter}

theorem empty (config : Config) : (Environment.empty config).Registered config [] [] :=
  ⟨.empty config, rfl⟩

theorem isRegistered (registered : environment.Registered config binders parameters)
    (identity : Identity) :
    environment.isRegistered identity ↔ identity ∈ parameters.map (·.identity) := by
  rw [← mem_map_distinctBy, Environment.isRegistered, registered.registrations]
  simp

/-- Registered parameters keep their keys. -/
theorem map_concat (registered : environment.Registered config binders parameters)
    (next : Parameter) :
    environment.registrations = (distinctBy (·.identity) parameters).map fun parameter =>
      { identity := parameter.identity
        key := parameterKey config (parameters ++ [next]) parameter
        value := parameter.value } := by
  rw [registered.registrations]
  apply List.map_congr_left
  intro parameter member
  rw [parameterKey_concat config (mem_of_mem_distinctBy _ member)]

/-- A parameter is registered under its key, unless it is registered already. -/
theorem declareParameter (registered : environment.Registered config binders parameters)
    (named : Environment) (unchanged : named.registrations = environment.registrations)
    (parameter : Parameter) :
    (named.declareParameter (parameterKey config (parameters ++ [parameter]) parameter)
        parameter).registrations =
      (distinctBy (·.identity) (parameters ++ [parameter])).map fun known =>
        { identity := known.identity
          key := parameterKey config (parameters ++ [parameter]) known
          value := known.value } := by
  have same : named.isRegistered parameter.identity =
      environment.isRegistered parameter.identity := by
    rw [Environment.isRegistered, unchanged, Environment.isRegistered]
  rw [distinctBy_concat, keepNew, Environment.declareParameter, same]
  by_cases known : parameter.identity ∈ parameters.map (·.identity)
  · rw [if_pos ((registered.isRegistered _).mpr known),
      if_pos ((mem_map_distinctBy _ _ _).mpr known), unchanged]
    exact registered.map_concat parameter
  · rw [if_neg (mt (registered.isRegistered _).mp known),
      if_neg (mt (mem_map_distinctBy _ _ _).mp known), List.map_append,
      ← registered.map_concat parameter, unchanged]
    rfl

/-- The key of a parameter that gets a new name is that name. -/
theorem parameterKey_fresh (registered : environment.Registered config binders parameters)
    {parameter : Parameter} (anonymous : parameter.name = none)
    (absent : parameter.identity ∉ (anonymousParameters parameters).map (·.identity)) :
    parameterKey config (parameters ++ [parameter]) parameter =
      generatedParameterName environment.config environment.parameterNames := by
  rw [parameterKey, anonymous, anonymousParameters_concat parameters anonymous, keepNew,
    if_neg absent, List.map_append]
  simp only [List.idxOf_append_of_notMem absent, registered.numbered.sameConfig,
    registered.numbered.parameterNames]
  simp

theorem resolveParameter (registered : environment.Registered config binders parameters)
    (parameter : Parameter) :
    (environment.resolveParameter parameter).2.Registered config binders
      (parameters ++ [parameter]) := by
  refine ⟨registered.numbered.resolveParameter parameter, ?_⟩
  rcases environment.resolveParameter_cases parameter with
    ⟨name, explicit, resolved⟩ | ⟨anonymous, name, given, resolved⟩ |
      ⟨anonymous, fresh, resolved⟩ <;>
    rw [resolved]
  · have key : parameterKey config (parameters ++ [parameter]) parameter = name := by
      rw [parameterKey, explicit]
    have declared := registered.declareParameter environment rfl parameter
    rwa [key] at declared
  · have known : parameter.identity ∈
        (distinctBy (·.identity) parameters).map (·.identity) := by
      rw [mem_map_distinctBy]
      have unnamed := (mem_map_distinctBy _ _ _).mp (registered.numbered.mem_of_given given)
      exact List.map_subset _ (List.filter_subset_self _) unnamed
    rw [distinctBy_concat, keepNew, if_pos known]
    exact registered.map_concat parameter
  · have absent := (registered.numbered.lookup_parameter_eq_none _).mp fresh
    have key := registered.parameterKey_fresh anonymous absent
    have declared := registered.declareParameter (environment.nameParameter parameter) rfl
      parameter
    rwa [key] at declared

/-- Meeting a variable registers nothing. -/
theorem resolveVariable (registered : environment.Registered config binders parameters)
    (binder : Variable) :
    (environment.resolveVariable binder).2.Registered config (binders ++ [binder])
      parameters := by
  refine ⟨registered.numbered.resolveVariable binder, ?_⟩
  rw [registrations_resolveVariable, registered.registrations]

theorem meetAll (registered : environment.Registered config binders parameters)
    (reading : Reading) :
    (environment.meetAll reading).Registered config (binders ++ reading.binders)
      (parameters ++ reading.parameters) :=
  meetAll_induction (Registered · config) (fun registered => registered.resolveVariable)
    (fun registered => registered.resolveParameter) registered reading

end Registered

end Environment

/-! ## The parameters of a query -/

namespace Query

/-- What a query finds under a key: the extra value if there is one, and otherwise the
value of the last registered parameter that has the key. -/
theorem find?_parameters {config : Config} {chain : Chain} {query : Query}
    (built : build config chain = .ok query) (key : String) :
    query.parameters.find? key =
      (Fields.last? config.extraParameters key).or
        (Fields.last? ((chain.reading 0).emitted config) key) := by
  unfold build at built
  split at built
  · next text after rendered =>
      cases built
      have whole : chain.whole.render (.empty config) = .ok text after := rendered
      rcases Layout.of_render_ok whole 0 with ⟨-, met, -⟩
      rw [Phrase.reading_whole] at met
      have registered := (Environment.Registered.empty config).meetAll (chain.reading 0)
      rw [← met] at registered
      have handedOut : after.registrations.filterMap (fun registration =>
          registration.value.map fun value => (registration.key, value)) =
            (chain.reading 0).emitted config := by
        rw [registered.registrations, List.filterMap_map]
        rfl
      rw [Environment.collectParameters_declareValues, Fields.find?_override,
        Environment.collectParameters, Fields.find?_ofList, handedOut]
  · cases built

/-- An extra value, the value of a parameter that is mentioned twice, and a placeholder. -/
theorem find?_parameters_returning :
    let config : Config := { extraParameters := [("limit", .null)] }
    let limit : Parameter := { identity := ⟨0⟩, name := some "limit", value := some (.integer 5) }
    let given : Parameter := { identity := ⟨1⟩, value := some (.integer 7) }
    let place : Parameter := { identity := ⟨2⟩, name := some "rows" }
    let operands : Phrase (.many .expression) :=
      .cons (.placeholder limit) (.cons (.placeholder place) .nil)
    let chain : Chain :=
      .last (.returning false
        (.projection false (.cons (.column (.arithmetic .plus (.placeholder given)
          (.placeholder given) operands)) .nil))
        (.rowOrder .nil .absent .absent))
    let query : Query :=
      { text := "RETURN ($param0 + $param0 + $limit + $rows)"
        parameters := [("limit", .null), ("param0", .integer 7)] }
    build config chain = .ok query ∧
      (chain.reading 0).emitted config = [("param0", .integer 7), ("limit", .integer 5)] ∧
      ∀ key, query.parameters.find? key =
        (Fields.last? config.extraParameters key).or
          (Fields.last? ((chain.reading 0).emitted config) key) :=
  ⟨rfl, rfl, find?_parameters rfl⟩

end Query

end Cypher
