import Cypher.Proofs.Distinct
import Cypher.Proofs.Rendering

/-! Which names a rendering gives. The variables without a name are numbered in
the order in which they are met first, and so are the parameters without a name.
Neither sequence depends on the other. -/

namespace Cypher

/-! ## The sequences of a reading -/

def Item.binder? : Item → Option Variable
  | mention binder => some binder
  | newName binder _ => some binder
  | unwritten item => item.binder?
  | placeholder _ | data _ | fault _ => none

/-- A parameter that is `null` is written as a literal and needs no name. -/
def Item.parameter? : Item → Option Parameter
  | placeholder parameter => if parameter.isNull then none else some parameter
  | unwritten item => item.parameter?
  | mention _ | newName _ _ | data _ | fault _ => none

/-- The variables without a name, in the order of their first mentions. -/
def anonymousVariables (binders : List Variable) : List Variable :=
  distinctBy (·.identity) (binders.filter (·.name.isNone))

/-- The parameters without a name, in the order of their first mentions. -/
def anonymousParameters (parameters : List Parameter) : List Parameter :=
  distinctBy (·.identity) (parameters.filter (·.name.isNone))

theorem anonymousVariables_concat_of_named (binders : List Variable) {binder : Variable}
    {name : String} (named : binder.name = some name) :
    anonymousVariables (binders ++ [binder]) = anonymousVariables binders := by
  simp [anonymousVariables, named]

theorem anonymousVariables_concat (binders : List Variable) {binder : Variable}
    (anonymous : binder.name = none) :
    anonymousVariables (binders ++ [binder]) =
      keepNew (·.identity) (anonymousVariables binders) binder := by
  rw [anonymousVariables, List.filter_append, List.filter_singleton, anonymous]
  exact distinctBy_concat _ _ _

theorem anonymousParameters_concat_of_named (parameters : List Parameter)
    {parameter : Parameter} {name : String} (named : parameter.name = some name) :
    anonymousParameters (parameters ++ [parameter]) = anonymousParameters parameters := by
  simp [anonymousParameters, named]

theorem anonymousParameters_concat (parameters : List Parameter) {parameter : Parameter}
    (anonymous : parameter.name = none) :
    anonymousParameters (parameters ++ [parameter]) =
      keepNew (·.identity) (anonymousParameters parameters) parameter := by
  rw [anonymousParameters, List.filter_append, List.filter_singleton, anonymous]
  exact distinctBy_concat _ _ _

namespace Reading

/-- All mentions of variables. -/
def binders (reading : Reading) : List Variable :=
  reading.filterMap (·.2.binder?)

/-- All mentions of parameters that are not `null`. -/
def parameters (reading : Reading) : List Parameter :=
  reading.filterMap (·.2.parameter?)

theorem binders_cons (entry : Nat × Item) (rest : Reading) :
    binders (entry :: rest) = entry.2.binder?.toList ++ binders rest := by
  cases found : entry.2.binder? <;> simp [binders, found]

theorem parameters_cons (entry : Nat × Item) (rest : Reading) :
    parameters (entry :: rest) = entry.2.parameter?.toList ++ parameters rest := by
  cases found : entry.2.parameter? <;> simp [parameters, found]

end Reading

/-! ## The table of names -/

def Owner.ofVariable? : Owner → Option Identity
  | ofVariable identity => some identity
  | ofParameter _ => none

def Owner.ofParameter? : Owner → Option Identity
  | ofVariable _ => none
  | ofParameter identity => some identity

/-- The names of the owners that `select` knows. -/
def namesOf (select : Owner → Option Identity) (names : List (Owner × String)) :
    List (Identity × String) :=
  names.filterMap fun (owner, name) => (select owner).map (·, name)

theorem namesOf_concat (select : Owner → Option Identity) (names : List (Owner × String))
    (owner : Owner) (name : String) :
    namesOf select (names ++ [(owner, name)]) =
      namesOf select names ++ ((select owner).map (·, name)).toList := by
  cases selected : select owner <;> simp [namesOf, selected]

theorem lookup_namesOf {select : Owner → Option Identity} {owner : Owner}
    {identity : Identity} (selects : ∀ other, select other = some identity ↔ other = owner)
    (names : List (Owner × String)) :
    (namesOf select names).lookup identity = names.lookup owner := by
  induction names with
  | nil => rfl
  | cons entry rest induction =>
      rcases entry with ⟨other, name⟩
      rw [List.lookup_cons]
      by_cases equal : other = owner
      · subst equal
        simp [namesOf, (selects other).mpr rfl]
      · rw [beq_false_of_ne (Ne.symm equal), ← induction]
        cases selected : select other with
        | none => simp [namesOf, selected]
        | some known =>
            have different : identity ≠ known := fun same =>
              equal ((selects other).mp (same ▸ selected))
            simp [namesOf, selected, List.lookup_cons, beq_false_of_ne different]

theorem lookup_variable (identity : Identity) (names : List (Owner × String)) :
    names.lookup (.ofVariable identity) = (namesOf Owner.ofVariable? names).lookup identity :=
  (lookup_namesOf (fun other => by cases other <;> simp [Owner.ofVariable?]) names).symm

theorem lookup_parameter (identity : Identity) (names : List (Owner × String)) :
    names.lookup (.ofParameter identity) =
      (namesOf Owner.ofParameter? names).lookup identity :=
  (lookup_namesOf (fun other => by cases other <;> simp [Owner.ofParameter?]) names).symm

/-- A name was given either to a variable or to a parameter. -/
theorem length_namesOf (names : List (Owner × String)) :
    names.length =
      (namesOf Owner.ofVariable? names).length + (namesOf Owner.ofParameter? names).length := by
  induction names with
  | nil => rfl
  | cons entry rest induction =>
      rcases entry with ⟨owner, name⟩
      cases owner <;>
        simp only [namesOf, Owner.ofVariable?, Owner.ofParameter?, List.filterMap_cons,
          Option.map_some, Option.map_none, List.length_cons] at induction ⊢ <;>
        omega

namespace Environment

section Induction

variable (holds : Environment → List Variable → List Parameter → Prop)
  (ofVariable : ∀ {environment binders parameters}, holds environment binders parameters →
    ∀ binder, holds (environment.resolveVariable binder).2 (binders ++ [binder]) parameters)
  (ofParameter : ∀ {environment binders parameters}, holds environment binders parameters →
    ∀ parameter,
      holds (environment.resolveParameter parameter).2 binders (parameters ++ [parameter]))
  {environment : Environment} {binders : List Variable} {parameters : List Parameter}
  (initially : holds environment binders parameters)

include ofVariable ofParameter initially

/-- What every resolved variable and every resolved parameter preserves holds after an item. -/
theorem meet_induction (item : Item) :
    holds (environment.meet item) (binders ++ item.binder?.toList)
      (parameters ++ item.parameter?.toList) := by
  induction item with
  | mention binder => simpa [Item.parameter?] using! ofVariable initially binder
  | newName binder _ => simpa [Item.parameter?] using! ofVariable initially binder
  | placeholder parameter =>
      cases null : parameter.isNull
      · simpa [Item.binder?, Item.parameter?, meet, null] using ofParameter initially parameter
      · simpa [Item.binder?, Item.parameter?, meet, null] using initially
  | data _ => simpa [Item.binder?, Item.parameter?] using! initially
  | fault _ => simpa [Item.binder?, Item.parameter?] using! initially
  | unwritten _ induction => exact induction

/-- It holds after a whole reading. -/
theorem meetAll_induction (reading : Reading) :
    holds (environment.meetAll reading) (binders ++ reading.binders)
      (parameters ++ reading.parameters) := by
  induction reading generalizing environment binders parameters with
  | nil => simpa [Reading.binders, Reading.parameters] using initially
  | cons entry rest induction =>
      have met := meet_induction holds ofVariable ofParameter initially entry.2
      simpa [Reading.binders_cons, Reading.parameters_cons] using induction met

end Induction

/-! ## Numbering -/

/-- `environment` has met `binders` and `parameters`, and has named no others. -/
structure Numbered (environment : Environment) (config : Config) (binders : List Variable)
    (parameters : List Parameter) : Prop where
  sameConfig : environment.config = config
  ofVariables : namesOf Owner.ofVariable? environment.names =
    (anonymousVariables binders).mapIdx fun number binder =>
      (binder.identity, generatedVariableName config binder.kind number)
  ofParameters : namesOf Owner.ofParameter? environment.names =
    (anonymousParameters parameters).mapIdx fun number parameter =>
      (parameter.identity, generatedParameterName config number)
  parameterNames : environment.parameterNames = (anonymousParameters parameters).length

namespace Numbered

variable {environment : Environment} {config : Config} {binders : List Variable}
  {parameters : List Parameter}

theorem empty (config : Config) : (Environment.empty config).Numbered config [] [] :=
  ⟨rfl, rfl, rfl, rfl⟩

/-- The next variable gets the number of the variables named so far. -/
theorem variableNames (numbered : environment.Numbered config binders parameters) :
    environment.variableNames = (anonymousVariables binders).length := by
  have total := length_namesOf environment.names
  rw [numbered.ofVariables, numbered.ofParameters, List.length_mapIdx,
    List.length_mapIdx] at total
  rw [Environment.variableNames, total, numbered.parameterNames, Nat.add_sub_cancel]

theorem lookup_variable_eq_none (numbered : environment.Numbered config binders parameters)
    (identity : Identity) :
    environment.names.lookup (.ofVariable identity) = none ↔
      identity ∉ (anonymousVariables binders).map (·.identity) := by
  rw [lookup_variable, numbered.ofVariables]
  exact lookup_mapIdx_eq_none _ _ _

theorem lookup_parameter_eq_none (numbered : environment.Numbered config binders parameters)
    (identity : Identity) :
    environment.names.lookup (.ofParameter identity) = none ↔
      identity ∉ (anonymousParameters parameters).map (·.identity) := by
  rw [lookup_parameter, numbered.ofParameters]
  exact lookup_mapIdx_eq_none _ _ _

/-- A parameter that was given a name was met before. -/
theorem mem_of_given (numbered : environment.Numbered config binders parameters)
    {identity : Identity} {name : String}
    (given : environment.names.lookup (.ofParameter identity) = some name) :
    identity ∈ (anonymousParameters parameters).map (·.identity) := by
  by_contra absent
  rw [(numbered.lookup_parameter_eq_none _).mpr absent] at given
  cases given

theorem resolveVariable (numbered : environment.Numbered config binders parameters)
    (binder : Variable) :
    (environment.resolveVariable binder).2.Numbered config (binders ++ [binder])
      parameters := by
  rcases environment.resolveVariable_cases binder with
    ⟨name, explicit, resolved⟩ | ⟨anonymous, name, given, resolved⟩ |
      ⟨anonymous, fresh, resolved⟩ <;>
    rw [resolved]
  · have unchanged := anonymousVariables_concat_of_named binders explicit
    exact ⟨numbered.sameConfig, unchanged ▸ numbered.ofVariables, numbered.ofParameters,
      numbered.parameterNames⟩
  · have present : binder.identity ∈ (anonymousVariables binders).map (·.identity) := by
      by_contra absent
      rw [(numbered.lookup_variable_eq_none _).mpr absent] at given
      cases given
    have unchanged := anonymousVariables_concat binders anonymous
    rw [keepNew, if_pos present] at unchanged
    exact ⟨numbered.sameConfig, unchanged ▸ numbered.ofVariables, numbered.ofParameters,
      numbered.parameterNames⟩
  · have absent := (numbered.lookup_variable_eq_none _).mp fresh
    have longer := anonymousVariables_concat binders anonymous
    rw [keepNew, if_neg absent] at longer
    refine ⟨numbered.sameConfig, ?_, ?_, numbered.parameterNames⟩
    · rw [nameVariable, namesOf_concat, numbered.ofVariables, longer, List.mapIdx_concat,
        numbered.sameConfig, numbered.variableNames]
      simp [Owner.ofVariable?]
    · rw [nameVariable, namesOf_concat, numbered.ofParameters]
      exact List.append_nil _

theorem declareParameter (numbered : environment.Numbered config binders parameters)
    (key : String) (parameter : Parameter) :
    (environment.declareParameter key parameter).Numbered config binders parameters where
  sameConfig := by rw [config_declareParameter, numbered.sameConfig]
  ofVariables := by rw [names_declareParameter, numbered.ofVariables]
  ofParameters := by rw [names_declareParameter, numbered.ofParameters]
  parameterNames := by rw [parameterNames_declareParameter, numbered.parameterNames]

theorem resolveParameter (numbered : environment.Numbered config binders parameters)
    (parameter : Parameter) :
    (environment.resolveParameter parameter).2.Numbered config binders
      (parameters ++ [parameter]) := by
  rcases environment.resolveParameter_cases parameter with
    ⟨name, explicit, resolved⟩ | ⟨anonymous, name, given, resolved⟩ |
      ⟨anonymous, fresh, resolved⟩ <;>
    rw [resolved]
  · have unchanged := anonymousParameters_concat_of_named parameters explicit
    exact declareParameter ⟨numbered.sameConfig, numbered.ofVariables,
      unchanged ▸ numbered.ofParameters, unchanged ▸ numbered.parameterNames⟩ name parameter
  · have present := numbered.mem_of_given given
    have unchanged := anonymousParameters_concat parameters anonymous
    rw [keepNew, if_pos present] at unchanged
    exact ⟨numbered.sameConfig, numbered.ofVariables, unchanged ▸ numbered.ofParameters,
      unchanged ▸ numbered.parameterNames⟩
  · have absent := (numbered.lookup_parameter_eq_none _).mp fresh
    have longer := anonymousParameters_concat parameters anonymous
    rw [keepNew, if_neg absent] at longer
    apply declareParameter
    refine ⟨numbered.sameConfig, ?_, ?_, ?_⟩
    · rw [nameParameter, namesOf_concat, numbered.ofVariables]
      exact List.append_nil _
    · rw [nameParameter, namesOf_concat, numbered.ofParameters, longer, List.mapIdx_concat,
        numbered.sameConfig, numbered.parameterNames]
      rfl
    · rw [nameParameter, longer, List.length_append, numbered.parameterNames]
      rfl

theorem meetAll (numbered : environment.Numbered config binders parameters)
    (reading : Reading) :
    (environment.meetAll reading).Numbered config (binders ++ reading.binders)
      (parameters ++ reading.parameters) :=
  meetAll_induction (Numbered · config) (fun numbered => numbered.resolveVariable)
    (fun numbered => numbered.resolveParameter) numbered reading

/-! ## Finished names -/

theorem variableText (numbered : environment.Numbered config binders parameters)
    {number : Nat} {first binder : Variable}
    (listed : (anonymousVariables binders)[number]? = some first)
    (anonymous : binder.name = none) (same : binder.identity = first.identity) :
    (environment.resolveVariable binder).1 =
      generatedVariableName config first.kind number := by
  have given : environment.names.lookup (.ofVariable binder.identity) =
      some (generatedVariableName config first.kind number) := by
    rw [lookup_variable, numbered.ofVariables, same]
    exact lookup_mapIdx_of_nodup _ (nodup_distinctBy _ _) _ listed
  rw [resolveVariable_of_given anonymous given]

theorem parameterText (numbered : environment.Numbered config binders parameters)
    {number : Nat} {first parameter : Parameter}
    (listed : (anonymousParameters parameters)[number]? = some first)
    (anonymous : parameter.name = none) (same : parameter.identity = first.identity) :
    (environment.resolveParameter parameter).1 = generatedParameterName config number := by
  have given : environment.names.lookup (.ofParameter parameter.identity) =
      some (generatedParameterName config number) := by
    rw [lookup_parameter, numbered.ofParameters, same]
    exact lookup_mapIdx_of_nodup _ (nodup_distinctBy _ _) (fun number _ => _) listed
  rw [resolveParameter_of_given anonymous given]

end Numbered

end Environment

/-! ## The names of a reading -/

/-- `names` numbers the variables and parameters of `reading` that have no name of
their own. Named ones take no number, and neither do parameters that are `null`. -/
structure Dictionary.Numbers (names : Dictionary) (config : Config) (reading : Reading) :
    Prop where
  sameConfig : names.config = config
  namedVariable : ∀ {binder : Variable} {name : String}, binder.name = some name →
    names.variableText binder = config.identifier name
  numberedVariable : ∀ {number : Nat} {first binder : Variable},
    (anonymousVariables reading.binders)[number]? = some first →
    binder.name = none → binder.identity = first.identity →
    names.variableText binder =
      config.namePrefixes.forVariables ++ first.kind.stem ++ Decimal.natural number
  namedParameter : ∀ {parameter : Parameter} {name : String}, parameter.name = some name →
    names.parameterText parameter = config.identifier name
  numberedParameter : ∀ {number : Nat} {first parameter : Parameter},
    (anonymousParameters reading.parameters)[number]? = some first →
    parameter.name = none → parameter.identity = first.identity →
    names.parameterText parameter =
      config.namePrefixes.forParameters ++ "param" ++ Decimal.natural number

theorem Environment.Numbered.dictionary {environment : Environment} {config : Config}
    {reading : Reading}
    (numbered : environment.Numbered config reading.binders reading.parameters) :
    environment.dictionary.Numbers config reading where
  sameConfig := numbered.sameConfig
  namedVariable named := by
    simp only [Environment.dictionary, resolveVariable_of_named named, numbered.sameConfig]
  numberedVariable := numbered.variableText
  namedParameter named := by
    simp only [Environment.dictionary, resolveParameter_of_named named, numbered.sameConfig]
  numberedParameter := numbered.parameterText

/-- A phrase on its own is written with the numbers of its reading. -/
theorem Phrase.rendered_with_numbers {phrase : Phrase category} {config : Config}
    {text : String} {after : Environment}
    (rendered : phrase.whole.render (.empty config) = .ok text after) :
    after.dictionary.Numbers config (phrase.reading 0) ∧
      text = phrase.whole.written after.dictionary := by
  rcases Layout.of_render_ok rendered 0 with ⟨-, met, written⟩
  rw [reading_whole] at met
  refine ⟨?_, written⟩
  rw [met]
  exact ((Environment.Numbered.empty config).meetAll _).dictionary

/-- A variable and a parameter with the number zero each, and a parameter without a
number. -/
theorem rendered_with_numbers_unwinding :
    let member : Variable := { identity := ⟨0⟩ }
    let numbers : Parameter := { identity := ⟨1⟩, value := some (.array []) }
    let nothing : Parameter := { identity := ⟨2⟩, value := some .null }
    let chain : Chain :=
      .link (.unwinding (.placeholder numbers) member .nil (.deletion false .nil))
        (.last (.returning false
          (.projection false (.cons (.column (.mention member))
            (.cons (.column (.placeholder nothing)) .nil)))
          (.rowOrder .nil .absent .absent)))
    let text := "UNWIND $param0 AS var0\nRETURN var0, NULL"
    ∃ after, chain.whole.render (.empty {}) = .ok text after ∧
      after.dictionary.Numbers {} (chain.reading 0) ∧
      text = chain.whole.written after.dictionary :=
  ⟨_, rfl, Phrase.rendered_with_numbers rfl⟩

end Cypher
