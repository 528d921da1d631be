import Cypher.Proofs.Identification
import Cypher.Proofs.Registration
import Cypher.Proofs.Stability
import Cypher.Proofs.Tokens

/-! Where chosen names meet generated ones. Names are generated by counting, whatever names
the caller has chosen. A chosen name that is spelled like a generated one unifies two
variables, or hands out two values under one key, and nothing else does. -/

namespace Cypher

namespace Identifier

/-- A chosen name is written like a generated one only if it needs no quotes: a generated
name ends with a digit, and a quoted one does not. -/
theorem escape_eq_generated_iff (extraWords : List String) (name front : String)
    (number : Nat) :
    escape extraWords name = front ++ Decimal.natural number ↔
      name = front ++ Decimal.natural number ∧ isPlain name ∧
        ¬ isReserved extraWords name := by
  rw [escape]
  split
  · next bare => simpa using fun _ => bare
  · next quoted =>
      have endsWithDigit := ClosesInside.of_endsPlain
        (endsPlain_append (plain_natural number).2 front)
      constructor
      · intro equal
        exact absurd equal.symm (endsWithDigit.ne_quote name)
      · rintro ⟨-, plain, free⟩
        exact absurd (by simp [plain, free]) quoted

theorem escape_inj {extraWords : List String} {first second : String}
    (equal : escape extraWords first = escape extraWords second) : first = second := by
  have ends : Ends isInName [] := fun _ nothing => absurd nothing (Option.not_mem_none _)
  exact (escape_append_inj ends ends (congrArg (String.toList · ++ []) equal)).1

end Identifier

/-- The first item with a key stands where the key stands among the kept ones. -/
theorem exists_earliest {α κ : Type} [DecidableEq κ] (key : α → κ) (keep : α → Bool)
    {items : List α} {item : α} (member : item ∈ items) (kept : keep item) :
    ∃ earliest,
      (distinctBy key (items.filter keep))[
        ((distinctBy key (items.filter keep)).map key).idxOf (key item)]? = some earliest ∧
      key earliest = key item := by
  have present : key item ∈ (distinctBy key (items.filter keep)).map key :=
    (mem_map_distinctBy _ _ _).mpr (List.mem_map_of_mem (List.mem_filter.mpr ⟨member, kept⟩))
  have bound := List.idxOf_lt_length_of_mem present
  have found := List.getElem_idxOf bound
  rw [List.getElem_map] at found
  rw [List.length_map] at bound
  exact ⟨_, List.getElem?_eq_getElem bound, found⟩

/-! ## Variables -/

namespace Phrase

/-- The variables that are met when the phrase is rendered: all in front of the first
fault. -/
def metVariables (phrase : Phrase category) : List Variable :=
  (phrase.reading 0).sound.binders

/-- The parameters that are met when the phrase is rendered. -/
def metParameters (phrase : Phrase category) : List Parameter :=
  (phrase.reading 0).sound.parameters

/-- The environment after the phrase was rendered on its own. -/
def environmentAlone (phrase : Phrase category) (config : Config) : Environment :=
  phrase.whole.environmentAfter (.empty config)

theorem registered_environmentAlone (phrase : Phrase category) (config : Config) :
    (phrase.environmentAlone config).Registered config phrase.metVariables
      phrase.metParameters := by
  rw [environmentAlone, Layout.environmentAfter_eq_meetAll, reading_whole]
  exact (Environment.Registered.empty config).meetAll _

theorem result_alone {phrase : Phrase category} {config : Config} {text : String}
    (rendered : phrase.whole.result (.empty config) = .ok text) :
    (phrase.reading 0).fault? = none ∧
      text = phrase.whole.written (phrase.environmentAlone config).dictionary := by
  rw [Layout.result] at rendered
  rw [environmentAlone, Layout.environmentAfter]
  cases outcome : phrase.whole.render (.empty config) with
  | ok written after =>
      rw [outcome] at rendered
      cases rendered
      rcases Layout.of_render_ok outcome 0 with ⟨faultless, -, isWritten⟩
      rw [reading_whole] at faultless
      exact ⟨faultless, isWritten⟩
  | error failure after =>
      rw [outcome] at rendered
      cases rendered

/-- A variable without a name is written with a generated name. A named one is written in
the same way exactly if its name is that one and needs no quotes. -/
theorem unified_iff (config : Config) {phrase : Phrase category} {anonymous : Variable}
    (met : anonymous ∈ phrase.metVariables) (unnamed : anonymous.name = none) :
    let names := (phrase.environmentAlone config).dictionary
    (∀ text, phrase.whole.result (.empty config) = .ok text →
      text = phrase.whole.written names) ∧
    (∃ number first, (anonymousVariables phrase.metVariables)[number]? = some first ∧
      first.identity = anonymous.identity ∧
      names.variableText anonymous =
        Environment.generatedVariableName config first.kind number) ∧
    ∀ named name, named.name = some name →
      (names.variableText named = names.variableText anonymous ↔
        name = names.variableText anonymous ∧ Identifier.isPlain name ∧
          ¬ Identifier.isReserved config.extraReservedWords name) := by
  intro names
  have numbers : names.Numbers config (phrase.reading 0).sound :=
    (phrase.registered_environmentAlone config).numbered.dictionary
  rcases exists_earliest (·.identity) (·.name.isNone) met
    (Option.isNone_iff_eq_none.mpr unnamed) with ⟨first, listed, same⟩
  have generated := numbers.numberedVariable listed unnamed same.symm
  refine ⟨fun text rendered => (result_alone rendered).2,
    ⟨_, first, listed, same, generated⟩, ?_⟩
  intro named name explicit
  rw [numbers.namedVariable explicit, generated]
  exact Identifier.escape_eq_generated_iff _ _ _ _

/-- With a prefix, the name that is generated first is not the one that was chosen. -/
theorem unified_iff_matching :
    let config : Config := { namePrefixes := .uniform "my" }
    let start : Variable := { identity := ⟨0⟩, kind := .node }
    let target : Variable := { identity := ⟨1⟩, kind := .node, name := some "this0" }
    let chain : Chain :=
      .last (Clause.matchPath (Path.ofPattern
        ((Pattern.ofNode (Node.ofVariable start)).reaching (Node.ofVariable target))))
    let names := (chain.environmentAlone config).dictionary
    chain.whole.result (.empty config) = .ok "MATCH (mythis0)-[]->(this0)" ∧
      start ∈ chain.metVariables ∧ start.name = none ∧ target ∈ chain.metVariables ∧
      names.variableText target ≠ names.variableText start := by
  intro config start target chain names
  have rendered : chain.whole.result (.empty config) = .ok "MATCH (mythis0)-[]->(this0)" := by
    dsimp only [chain, start, target, config]
    rfl
  have met : chain.metVariables = [start, target] := rfl
  have startMet : start ∈ chain.metVariables := by simp [met]
  refine ⟨rendered, startMet, rfl, by simp [met], fun alike => ?_⟩
  have generated : names.variableText start = "mythis0" := by
    dsimp only [names, chain, start, target, config]
    rfl
  have chosen := (((unified_iff config startMet rfl).2.2 target "this0" rfl).mp alike).1
  rw [generated] at chosen
  exact absurd chosen (by decide)

/-- Without a prefix it is, and the two nodes become one. -/
theorem unified_matching :
    let start : Variable := { identity := ⟨0⟩, kind := .node }
    let target : Variable := { identity := ⟨1⟩, kind := .node, name := some "this0" }
    let chain : Chain :=
      .last (Clause.matchPath (Path.ofPattern
        ((Pattern.ofNode (Node.ofVariable start)).reaching (Node.ofVariable target))))
    let names := (chain.environmentAlone {}).dictionary
    chain.whole.result (.empty {}) = .ok "MATCH (this0)-[]->(this0)" ∧
      chain.metVariables = [start, target] ∧
      names.variableText start = names.variableText target :=
  ⟨rfl, rfl, rfl⟩

end Phrase

/-! ## Parameters -/

/-- Mentions with one identity are copies of one parameter, and a chosen name belongs to one
identity. -/
structure SingleUse (parameters : List Parameter) : Prop where
  ofIdentity : ∀ first ∈ parameters, ∀ second ∈ parameters,
    first.identity = second.identity → first = second
  ofName : ∀ first ∈ parameters, ∀ second ∈ parameters,
    first.name.isSome → first.name = second.name → first.identity = second.identity

/-- The name that was chosen for a parameter is generated for one with another value. -/
def Clash (config : Config) (parameters : List Parameter) : Prop :=
  ∃ named ∈ parameters, ∃ anonymous ∈ parameters, ∃ value other,
    named.value = some value ∧ anonymous.value = some other ∧ value ≠ other ∧
      anonymous.name = none ∧ named.name = some (parameterKey config parameters anonymous)

/-- The text of a parameter behind the dollar sign. Only a chosen name is quoted. -/
def placeholderText (config : Config) (parameters : List Parameter) (parameter : Parameter) :
    String :=
  match parameter.name with
  | some name => config.identifier name
  | none => parameterKey config parameters parameter

section Keys

variable {config : Config} {parameters : List Parameter} {first second : Parameter}

theorem parameterKey_of_named (config : Config) (parameters : List Parameter) {name : String}
    (explicit : first.name = some name) : parameterKey config parameters first = name := by
  rw [parameterKey, explicit]

theorem exists_generated (config : Config) (member : first ∈ parameters)
    (anonymous : first.name = none) :
    ∃ number earliest, (anonymousParameters parameters)[number]? = some earliest ∧
      earliest.identity = first.identity ∧
      parameterKey config parameters first =
        Environment.generatedParameterName config number := by
  rcases exists_earliest (·.identity) (·.name.isNone) member
    (Option.isNone_iff_eq_none.mpr anonymous) with ⟨earliest, listed, same⟩
  exact ⟨_, earliest, listed, same, by rw [parameterKey, anonymous]; rfl⟩

/-- A generated key is generated once. -/
theorem identity_eq_of_generated (member : first ∈ parameters) (anonymous : first.name = none)
    (otherMember : second ∈ parameters) (otherAnonymous : second.name = none)
    (sameKey : parameterKey config parameters first = parameterKey config parameters second) :
    first.identity = second.identity := by
  rcases exists_generated config member anonymous with ⟨number, earliest, listed, same, key⟩
  rcases exists_generated config otherMember otherAnonymous with
    ⟨otherNumber, otherEarliest, otherListed, otherSame, otherKey⟩
  rw [key, otherKey] at sameKey
  simp only [Environment.generatedParameterName, String.append_assoc] at sameKey
  have sameNumber := Parameter.isStem.number_eq Parameter.isStem
    ((String.append_right_inj _).mp sameKey)
  rw [sameNumber, otherListed] at listed
  rw [← same, ← otherSame, Option.some.inj listed]

/-- Two parameters with one key are the same, or only one of them has a name. -/
theorem SingleUse.eq_or_chosen (single : SingleUse parameters) (member : first ∈ parameters)
    (otherMember : second ∈ parameters)
    (sameKey : parameterKey config parameters first = parameterKey config parameters second) :
    first = second ∨
      (first.name = some (parameterKey config parameters second) ∧ second.name = none) ∨
      (second.name = some (parameterKey config parameters first) ∧ first.name = none) := by
  cases explicit : first.name with
  | some name =>
      cases otherExplicit : second.name with
      | some other =>
          have sameName : first.name = second.name := by
            rw [explicit, otherExplicit, ← parameterKey_of_named _ _ explicit, sameKey,
              parameterKey_of_named _ _ otherExplicit]
          exact .inl (single.ofIdentity _ member _ otherMember
            (single.ofName _ member _ otherMember (by simp [explicit]) sameName))
      | none => exact .inr (.inl ⟨by rw [← sameKey, parameterKey_of_named _ _ explicit], rfl⟩)
  | none =>
      cases otherExplicit : second.name with
      | some other =>
          exact .inr (.inr ⟨by rw [sameKey, parameterKey_of_named _ _ otherExplicit], rfl⟩)
      | none =>
          exact .inl (single.ofIdentity _ member _ otherMember
            (identity_eq_of_generated member explicit otherMember otherExplicit sameKey))

/-- Without a clash, a key has one value. -/
theorem SingleUse.value_eq (single : SingleUse parameters)
    (clashless : ¬ Clash config parameters) (member : first ∈ parameters)
    (otherMember : second ∈ parameters)
    (sameKey : parameterKey config parameters first = parameterKey config parameters second)
    {value other : Value} (bound : first.value = some value)
    (otherBound : second.value = some other) : value = other := by
  by_contra different
  rcases single.eq_or_chosen member otherMember sameKey with
    rfl | ⟨chosen, anonymous⟩ | ⟨chosen, anonymous⟩
  · rw [bound] at otherBound
    exact different (Option.some.inj otherBound)
  · exact clashless ⟨first, member, second, otherMember, value, other, bound, otherBound,
      different, anonymous, chosen⟩
  · exact clashless ⟨second, otherMember, first, member, other, value, otherBound, bound,
      Ne.symm different, anonymous, chosen⟩

/-- A chosen name that is written like a generated one is that name. -/
theorem parameterKey_eq_of_identifier {name : String} (explicit : first.name = some name)
    (otherMember : second ∈ parameters) (anonymous : second.name = none)
    (same : config.identifier name = parameterKey config parameters second) :
    parameterKey config parameters first = parameterKey config parameters second := by
  rcases exists_generated config otherMember anonymous with ⟨number, -, -, -, key⟩
  rw [key] at same ⊢
  rw [parameterKey_of_named _ _ explicit]
  exact ((Identifier.escape_eq_generated_iff _ _ _ _).mp same).1

/-- Placeholders that are written alike have one key. -/
theorem parameterKey_eq_of_placeholderText (member : first ∈ parameters)
    (otherMember : second ∈ parameters)
    (same : placeholderText config parameters first =
      placeholderText config parameters second) :
    parameterKey config parameters first = parameterKey config parameters second := by
  cases explicit : first.name <;> cases otherExplicit : second.name <;>
    simp only [placeholderText, explicit, otherExplicit] at same
  · exact same
  · exact (parameterKey_eq_of_identifier otherExplicit member explicit same.symm).symm
  · exact parameterKey_eq_of_identifier explicit otherMember otherExplicit same
  · rw [parameterKey_of_named _ _ explicit, parameterKey_of_named _ _ otherExplicit]
    exact Identifier.escape_inj same

end Keys

/-- Of several mentions the first one is registered, and it does not matter which one it is. -/
theorem Reading.mem_emitted_iff {config : Config} {reading : Reading}
    (single : SingleUse reading.parameters) {key : String} {value : Value} :
    (key, value) ∈ reading.emitted config ↔
      ∃ parameter ∈ reading.parameters, parameter.value = some value ∧
        parameterKey config reading.parameters parameter = key := by
  have kept : ∀ parameter, parameter ∈ reading.registered ↔ parameter ∈ reading.parameters := by
    intro parameter
    refine ⟨mem_of_mem_distinctBy _, fun member => ?_⟩
    have present : parameter.identity ∈ reading.registered.map (·.identity) :=
      (mem_map_distinctBy _ _ _).mpr (List.mem_map_of_mem member)
    rcases List.mem_map.mp present with ⟨first, registered, same⟩
    have firstMember := mem_of_mem_distinctBy _ registered
    rwa [← single.ofIdentity first firstMember parameter member same]
  simp only [Reading.emitted, List.mem_filterMap, kept, Option.map_eq_some_iff, Prod.mk.injEq]
  constructor
  · rintro ⟨parameter, member, _, bound, sameKey, rfl⟩
    exact ⟨parameter, member, bound, sameKey⟩
  · rintro ⟨parameter, member, bound, sameKey⟩
    exact ⟨parameter, member, value, bound, sameKey, rfl⟩

/-- A placeholder needs a name unless its parameter is `null`. -/
theorem Item.parameter?_eq_filter (item : Item) :
    item.parameter? = item.placeholder?.filter (!·.isNull) := by
  induction item with
  | placeholder parameter =>
      cases null : parameter.isNull <;> simp [parameter?, placeholder?, Option.filter, null]
  | unwritten _ induction => exact induction
  | _ => rfl

namespace Phrase

/-- The parameters of a phrase, but for those that are written as `NULL`. -/
def parameters (phrase : Phrase category) : List Parameter :=
  phrase.placeholders.filter (!·.isNull)

theorem parameters_reading {phrase : Phrase category} {depth : Nat}
    (faultless : (phrase.reading depth).fault? = none) :
    (phrase.reading depth).parameters = phrase.parameters := by
  rw [parameters, ← phrase.placeholders_reading faultless, Reading.placeholders,
    Reading.parameters, List.filter_filterMap]
  congr 1
  funext entry
  exact entry.2.parameter?_eq_filter

/-- A phrase without faults is written with the keys of its parameters. -/
theorem parameterText_alone {phrase : Phrase category} (config : Config)
    (faultless : (phrase.reading 0).fault? = none) {parameter : Parameter}
    (member : parameter ∈ phrase.parameters) :
    (phrase.environmentAlone config).dictionary.parameterText parameter =
      placeholderText config phrase.parameters parameter := by
  have numbers := (phrase.registered_environmentAlone config).numbered.dictionary
  rw [Reading.sound_of_faultless faultless] at numbers
  unfold placeholderText
  cases name : parameter.name with
  | some chosen => exact numbers.namedParameter name
  | none =>
      rcases exists_generated config member name with ⟨number, earliest, listed, same, key⟩
      rw [← parameters_reading faultless] at listed
      exact (numbers.numberedParameter listed name same.symm).trans key.symm

/-- The value that is handed out under a key is the one that was registered last. -/
theorem find?_collectParameters_alone {phrase : Phrase category} (config : Config)
    (faultless : (phrase.reading 0).fault? = none) (key : String) :
    (phrase.environmentAlone config).collectParameters.find? key =
      Fields.last? ((phrase.reading 0).emitted config) key := by
  have registered := phrase.registered_environmentAlone config
  rw [metParameters, Reading.sound_of_faultless faultless] at registered
  rw [Environment.collectParameters, registered.registrations, List.filterMap_map,
    Fields.find?_ofList]
  rfl

end Phrase

/-! ## Queries -/

namespace Query

/-- What a query without extra values is made of. -/
theorem of_build {config : Config} {chain : Chain} {query : Query}
    (built : build config chain = .ok query) (plain : config.extraParameters = []) :
    (chain.reading 0).fault? = none ∧
      query.text = header config ++
        chain.whole.written (chain.environmentAlone config).dictionary ∧
      query.parameters = (chain.environmentAlone config).collectParameters := by
  unfold build at built
  split at built
  · next text after rendered =>
      cases built
      have whole : chain.whole.render (.empty config) = .ok text after := rendered
      have result : chain.whole.result (.empty config) = .ok text := by
        rw [Layout.result, whole]
      have isAfter : chain.environmentAlone config = after := by
        rw [Phrase.environmentAlone, Layout.environmentAfter, whole]
      rcases Phrase.result_alone result with ⟨faultless, written⟩
      refine ⟨faultless, by rw [← written], ?_⟩
      rw [isAfter, plain]
      rfl
  · cases built

/-- A query without extra values is written with the keys of its parameters, and all its
values are found under their keys exactly if no chosen name clashes with a generated one.
Without a clash, parameters with different values are not written alike, either. -/
theorem keeps_values_iff {config : Config} {chain : Chain} {query : Query}
    (built : build config chain = .ok query) (plain : config.extraParameters = [])
    (single : SingleUse chain.parameters) :
    let names := (chain.environmentAlone config).dictionary
    query.text = header config ++ chain.whole.written names ∧
      (∀ parameter ∈ chain.parameters,
        names.parameterText parameter = placeholderText config chain.parameters parameter) ∧
      ((∀ parameter ∈ chain.parameters, ∀ value, parameter.value = some value →
          query.parameters.find? (parameterKey config chain.parameters parameter) =
            some value) ↔
        ¬ Clash config chain.parameters) ∧
      (¬ Clash config chain.parameters →
        ∀ first ∈ chain.parameters, ∀ second ∈ chain.parameters, ∀ value other,
          first.value = some value → second.value = some other → value ≠ other →
            names.parameterText first ≠ names.parameterText second) := by
  intro names
  rcases of_build built plain with ⟨faultless, text, parameters⟩
  have same := Phrase.parameters_reading faultless
  have written := fun parameter (member : parameter ∈ chain.parameters) =>
    Phrase.parameterText_alone config faultless member
  have emitted : ∀ {key value}, (key, value) ∈ (chain.reading 0).emitted config ↔
      ∃ parameter ∈ chain.parameters, parameter.value = some value ∧
        parameterKey config chain.parameters parameter = key := by
    intro key value
    rw [← same] at single ⊢
    exact Reading.mem_emitted_iff single
  refine ⟨text, written, ⟨?_, ?_⟩, ?_⟩
  -- In a clash there are two values for one key, and only one of them can be found.
  · rintro kept ⟨named, member, anonymous, otherMember, value, other, bound, otherBound,
      different, -, chosen⟩
    have sameKey := parameterKey_of_named config chain.parameters chosen
    have value := kept named member value bound
    rw [sameKey, kept anonymous otherMember other otherBound] at value
    exact different (Option.some.inj value).symm
  · intro clashless parameter member value bound
    rw [parameters, Phrase.find?_collectParameters_alone config faultless]
    refine Fields.last?_eq_some (emitted.mpr ⟨parameter, member, bound, rfl⟩) ?_
    intro other listed
    rcases emitted.mp listed with ⟨second, secondMember, secondBound, sameKey⟩
    exact single.value_eq clashless secondMember member sameKey secondBound bound
  · intro clashless first member second secondMember value other bound otherBound different alike
    rw [written first member, written second secondMember] at alike
    have sameKey := parameterKey_eq_of_placeholderText member secondMember alike
    exact different (single.value_eq clashless member secondMember sameKey bound otherBound)

/-- A chosen name is generated, too, but for the same value. -/
theorem keeps_values_iff_returning :
    let rows : Parameter := { identity := ⟨0⟩, name := some "param1", value := some (.integer 2) }
    let first : Parameter := { identity := ⟨1⟩, value := some (.integer 1) }
    let second : Parameter := { identity := ⟨2⟩, value := some (.integer 2) }
    let chain : Chain :=
      .last (Clause.giveBack (.projection false (.cons (.column (.placeholder rows))
        (.cons (.column (.placeholder first)) (.cons (.column (.placeholder second)) .nil)))))
    let query : Query :=
      { text := "RETURN $param1, $param0, $param1"
        parameters := [("param0", .integer 1), ("param1", .integer 2)] }
    build {} chain = .ok query ∧ SingleUse chain.parameters ∧
      ¬ Clash {} chain.parameters := by
  intro rows first second chain query
  have all : chain.parameters = [rows, first, second] := rfl
  have single : SingleUse chain.parameters := by
    rw [all]
    constructor <;> simp [rows, first, second]
  have built : build {} chain = .ok query := by
    dsimp only [chain, rows, first, second]
    rfl
  refine ⟨built, single, (keeps_values_iff built rfl single).2.2.1.mp ?_⟩
  have found : query.parameters.find? "param0" = some (.integer 1) ∧
      query.parameters.find? "param1" = some (.integer 2) := ⟨rfl, rfl⟩
  have keys : [rows, first, second].map (parameterKey {} chain.parameters) =
      ["param1", "param0", "param1"] := by
    dsimp only [chain, rows, first, second]
    rfl
  simp only [List.map_cons, List.map_nil, List.cons.injEq, and_true] at keys
  intro parameter member value bound
  rw [all] at member
  simp only [List.mem_cons, List.not_mem_nil, or_false] at member
  rcases member with rfl | rfl | rfl
  · rwa [keys.1, found.2]
  · rwa [keys.2.1, found.1]
  · rwa [keys.2.2, found.2]

/-- The chosen name of the first value is generated for the second one, which is the only
value that is handed out. -/
theorem value_lost_returning :
    let chosen : Parameter := { identity := ⟨0⟩, name := some "param0", value := some (.integer 2) }
    let anonymous : Parameter := { identity := ⟨1⟩, value := some (.integer 1) }
    let chain : Chain :=
      .last (Clause.giveBack (.projection false (.cons (.column (.placeholder chosen))
        (.cons (.column (.placeholder anonymous)) .nil))))
    let query : Query :=
      { text := "RETURN $param0, $param0", parameters := [("param0", .integer 1)] }
    build {} chain = .ok query ∧ chain.parameters = [chosen, anonymous] ∧
      SingleUse chain.parameters ∧
      parameterKey {} chain.parameters chosen = "param0" ∧
      parameterKey {} chain.parameters anonymous = "param0" ∧
      query.parameters.find? "param0" ≠ some (.integer 2) := by
  refine ⟨rfl, rfl, ?_, rfl, rfl, by simp [Fields.find?]⟩
  change SingleUse [_, _]
  constructor <;> simp

end Query

end Cypher
