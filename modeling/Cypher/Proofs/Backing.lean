import Cypher.Proofs.Requests
import Cypher.Proofs.Stability

/-! Which value is handed out for a placeholder. A parameter is registered once, by the first
request about it, and its key is never changed. A declaration may choose a key that the
placeholder does not have, and then the placeholder has no value. -/

namespace Cypher

namespace Request

/-- The parameter that is registered after the request. -/
def about? : Request → Option Parameter
  | mention _ => none
  | placeholder parameter => some parameter
  | declaration _ parameter => some parameter

def isAbout (identity : Identity) (request : Request) : Bool :=
  request.about?.any (·.identity = identity)

end Request

namespace Environment

variable {environment : Environment} {request : Request} {requests : List Request}
  {identity : Identity} {parameter : Parameter}

/-! ## Registering once -/

/-- The environment was never asked about the parameter. -/
structure Unaware (environment : Environment) (identity : Identity) : Prop where
  unregistered : environment.isRegistered identity = false
  unnamed : environment.names.lookup (.ofParameter identity) = none

/-- The key under which a request may register the parameter: the key that is chosen in a
declaration, or else the name of the placeholder, before it is quoted. -/
def keyOf (environment : Environment) (parameter : Parameter) : Request → String
  | .declaration key _ => key
  | .mention _ | .placeholder _ =>
      parameter.name.getD (environment.resolveParameter parameter).1

/-- Nothing is registered after a request, or the parameter that the request is about. A
parameter that the environment was never asked about is registered. -/
def Registers (environment : Environment) (request : Request) (after : Environment) : Prop :=
  (after.registrations = environment.registrations ∧
    ∀ parameter, request.about? = some parameter → ¬ environment.Unaware parameter.identity) ∨
  ∃ parameter, request.about? = some parameter ∧
    environment.isRegistered parameter.identity = false ∧
    after.registrations = environment.registrations ++
      [{ identity := parameter.identity
         key := environment.keyOf parameter request
         value := parameter.value }]

theorem registers_declareParameter {named : Environment}
    (isAbout : request.about? = some parameter)
    (same : named.registrations = environment.registrations) :
    environment.Registers request
      (named.declareParameter (environment.keyOf parameter request) parameter) := by
  have sameTest : named.isRegistered parameter.identity =
      environment.isRegistered parameter.identity := by
    rw [isRegistered, same, isRegistered]
  rw [declareParameter, sameTest]
  cases registered : environment.isRegistered parameter.identity with
  | true =>
      refine .inl ⟨same, fun other isAboutOther unaware => ?_⟩
      rw [isAbout] at isAboutOther
      cases isAboutOther
      rw [unaware.unregistered] at registered
      cases registered
  | false => exact .inr ⟨parameter, isAbout, registered, by rw [← same]; rfl⟩

theorem registers_serve (environment : Environment) (request : Request) :
    environment.Registers request (environment.serve request) := by
  cases request with
  | mention binder =>
      refine .inl ⟨environment.registrations_resolveVariable binder, ?_⟩
      intro parameter isAbout
      cases isAbout
  | placeholder parameter =>
      rcases environment.resolveParameter_cases parameter with
        ⟨name, explicit, resolved⟩ | ⟨-, name, given, resolved⟩ | ⟨anonymous, -, resolved⟩
      · have key : environment.keyOf parameter (.placeholder parameter) = name := by
          rw [keyOf, explicit, Option.getD_some]
        rw [serve, resolved, ← key]
        exact registers_declareParameter rfl rfl
      · rw [serve, resolved]
        refine .inl ⟨rfl, fun _ isAbout unaware => ?_⟩
        cases isAbout
        rw [unaware.unnamed] at given
        cases given
      · have key : environment.keyOf parameter (.placeholder parameter) =
            generatedParameterName environment.config environment.parameterNames := by
          rw [keyOf, anonymous, Option.getD_none, resolved]
        rw [serve, resolved, ← key]
        exact registers_declareParameter rfl rfl
  | declaration key parameter =>
      have isAbout : (Request.declaration key parameter).about? = some parameter := rfl
      exact registers_declareParameter isAbout rfl

/-- Nothing is registered for a parameter that is registered already. -/
theorem mem_registrations_of_isRegistered {registration : Registration}
    (registered : environment.isRegistered registration.identity)
    (member : registration ∈ (environment.serveAll requests).registrations) :
    registration ∈ environment.registrations := by
  induction requests generalizing environment with
  | nil => exact member
  | cons request rest induction =>
      have still := (environment.grows_serve request).isRegistered registered
      have served := induction still member
      rcases environment.registers_serve request with
        ⟨same, -⟩ | ⟨parameter, -, unregistered, added⟩
      · rwa [same] at served
      · rw [added, List.mem_append, List.mem_singleton] at served
        rcases served with known | new
        · exact known
        · rw [new, unregistered] at registered
          cases registered

theorem lookup_concat_of_ne {names : List (Owner × String)} {owner other : Owner}
    (different : owner ≠ other) (name : String) :
    (names ++ [(other, name)]).lookup owner = names.lookup owner := by
  rw [List.lookup_append, List.lookup_cons, beq_false_of_ne different]
  exact Option.or_none

/-- A request about another parameter or about a variable changes nothing for this one. -/
theorem Unaware.serve (unaware : environment.Unaware identity)
    (elsewhere : request.isAbout identity = false) :
    (environment.serve request).Unaware identity where
  unregistered := by
    rcases environment.registers_serve request with
      ⟨same, -⟩ | ⟨parameter, isAbout, -, added⟩
    · rw [isRegistered, same]
      exact unaware.unregistered
    · rw [Request.isAbout, isAbout, Option.any_some] at elsewhere
      have before := unaware.unregistered
      rw [isRegistered] at before ⊢
      rw [added, List.any_append, before, List.any_cons, elsewhere]
      rfl
  unnamed := by
    cases request with
    | mention binder =>
        rcases environment.resolveVariable_cases binder with
          ⟨name, -, resolved⟩ | ⟨-, name, -, resolved⟩ | ⟨-, -, resolved⟩ <;>
          rw [Environment.serve, resolved]
        · exact unaware.unnamed
        · exact unaware.unnamed
        · exact (lookup_concat_of_ne Owner.noConfusion _).trans unaware.unnamed
    | placeholder parameter =>
        have different : Owner.ofParameter identity ≠ .ofParameter parameter.identity := by
          intro same
          simp [Request.isAbout, Request.about?, Owner.ofParameter.inj same] at elsewhere
        rcases environment.resolveParameter_cases parameter with
          ⟨name, -, resolved⟩ | ⟨-, name, -, resolved⟩ | ⟨-, -, resolved⟩ <;>
          rw [Environment.serve, resolved]
        · rw [names_declareParameter]
          exact unaware.unnamed
        · exact unaware.unnamed
        · rw [names_declareParameter]
          exact (lookup_concat_of_ne different _).trans unaware.unnamed
    | declaration key parameter =>
        rw [Environment.serve, names_declareParameter]
        exact unaware.unnamed

theorem Unaware.serveAll (unaware : environment.Unaware identity)
    (elsewhere : ∀ request ∈ requests, request.isAbout identity = false) :
    (environment.serveAll requests).Unaware identity := by
  induction requests generalizing environment with
  | nil => exact unaware
  | cons request rest induction =>
      rw [List.forall_mem_cons] at elsewhere
      exact induction (unaware.serve elsewhere.1) elsewhere.2

/-! ## The first request about a parameter -/

/-- The first request about a parameter registers it. -/
theorem Unaware.registrations_eq (unaware : environment.Unaware parameter.identity)
    (isAbout : request.about? = some parameter) :
    (environment.serve request).registrations = environment.registrations ++
      [{ identity := parameter.identity
         key := environment.keyOf parameter request
         value := parameter.value }] := by
  rcases environment.registers_serve request with
    ⟨-, aware⟩ | ⟨other, isAboutOther, -, added⟩
  · exact absurd unaware (aware parameter isAbout)
  · rw [isAbout] at isAboutOther
    cases isAboutOther
    exact added

/-- From then on, that is the only registration of the parameter. -/
theorem Unaware.mem_registrations_iff (unaware : environment.Unaware parameter.identity)
    (isAbout : request.about? = some parameter) (rest : List Request)
    (registration : Registration) :
    registration ∈ (environment.serveAll (request :: rest)).registrations ∧
        registration.identity = parameter.identity ↔
      registration =
        { identity := parameter.identity
          key := environment.keyOf parameter request
          value := parameter.value } := by
  have registered := unaware.registrations_eq isAbout
  constructor
  · rintro ⟨member, same⟩
    have known : (environment.serve request).isRegistered registration.identity := by
      rw [isRegistered, registered, same]
      simp
    have earlier := mem_registrations_of_isRegistered known member
    rw [registered, List.mem_append, List.mem_singleton] at earlier
    rcases earlier with before | now
    · have absent := unaware.unregistered
      rw [isRegistered, List.any_eq_false] at absent
      exact absurd same (by simpa using absent registration before)
    · exact now
  · rintro rfl
    refine ⟨((environment.serve request).grows_serveAll rest).registrations.subset ?_, rfl⟩
    rw [registered]
    exact List.mem_append_right _ (List.mem_singleton_self _)

/-! ## Values under keys -/

theorem mem_entries_iff {key : String} {value : Value} :
    (key, value) ∈ environment.registrations.filterMap (fun registration =>
        registration.value.map fun value => (registration.key, value)) ↔
      ∃ registration ∈ environment.registrations,
        registration.key = key ∧ registration.value = some value := by
  simp only [List.mem_filterMap, Option.map_eq_some_iff, Prod.mk.injEq]
  constructor
  · rintro ⟨registration, member, _, bound, sameKey, rfl⟩
    exact ⟨registration, member, sameKey, bound⟩
  · rintro ⟨registration, member, sameKey, bound⟩
    exact ⟨registration, member, value, bound, sameKey, rfl⟩

/-- If all registrations under a key have one value, that value is handed out. -/
theorem find?_collectParameters_of_mem {registration : Registration} {value : Value}
    (member : registration ∈ environment.registrations)
    (bound : registration.value = some value)
    (agree : ∀ other ∈ environment.registrations, other.key = registration.key →
      other = registration) :
    environment.collectParameters.find? registration.key = some value := by
  rw [collectParameters, Fields.find?_ofList]
  refine Fields.last?_eq_some (mem_entries_iff.mpr ⟨registration, member, rfl, bound⟩) ?_
  intro other listed
  rcases mem_entries_iff.mp listed with ⟨second, secondMember, sameKey, secondBound⟩
  rw [agree second secondMember sameKey, bound] at secondBound
  exact (Option.some.inj secondBound).symm

/-- A value that is handed out under a key was registered under it. -/
theorem exists_of_find?_collectParameters {key : String} {value : Value}
    (found : environment.collectParameters.find? key = some value) :
    ∃ registration ∈ environment.registrations, registration.key = key := by
  rw [collectParameters, Fields.find?_ofList, Fields.last?] at found
  rcases mem_entries_iff.mp (List.mem_reverse.mp (Fields.mem_of_find? found)) with
    ⟨registration, member, sameKey, -⟩
  exact ⟨registration, member, sameKey⟩

theorem transcript_append (environment : Environment) (first second : List Request) :
    environment.transcript (first ++ second) =
      environment.transcript first ++ (environment.serveAll first).transcript second := by
  induction first generalizing environment with
  | nil => rfl
  | cons request rest induction =>
      simp only [List.cons_append, transcript, serveAll_cons, induction]

theorem map_fst_transcript (environment : Environment) (requests : List Request) :
    (environment.transcript requests).map (·.1) = requests := by
  induction requests generalizing environment with
  | nil => rfl
  | cons request rest induction => rw [transcript, List.map_cons, induction]

/-- The first request about a parameter finds an environment that was never asked about it. -/
theorem exists_first (config : Config)
    (found : requests.find? (·.isAbout identity) = some request) :
    ∃ before rest, requests = before ++ request :: rest ∧
      ((empty config).serveAll before).Unaware identity ∧
      ∃ parameter, request.about? = some parameter ∧ parameter.identity = identity := by
  rcases List.find?_eq_some_iff_append.mp found with ⟨isAbout, before, rest, split, elsewhere⟩
  have initially : (empty config).Unaware identity := ⟨rfl, rfl⟩
  rcases Option.any_eq_true _ _ |>.mp isAbout with ⟨parameter, isParameter, same⟩
  refine ⟨before, rest, split, initially.serveAll fun earlier member => ?_, parameter,
    isParameter, of_decide_eq_true same⟩
  simpa using elsewhere earlier member

/-- The value of a parameter is handed out under the key of its only registration. -/
theorem Unaware.find?_eq_some_iff (unaware : environment.Unaware parameter.identity)
    (isAbout : request.about? = some parameter) {rest : List Request} {value : Value}
    {key : String} (bound : parameter.value = some value)
    (alone : ∀ registration ∈ (environment.serveAll (request :: rest)).registrations,
      registration.key = key → registration.identity = parameter.identity) :
    (environment.serveAll (request :: rest)).collectParameters.find? key = some value ↔
      environment.keyOf parameter request = key := by
  have only := unaware.mem_registrations_iff isAbout rest
  constructor
  · intro handedOut
    rcases exists_of_find?_collectParameters handedOut with ⟨registration, member, sameKey⟩
    rw [(only registration).mp ⟨member, alone registration member sameKey⟩] at sameKey
    exact sameKey
  · rintro rfl
    have member := ((only _).mpr rfl).1
    refine find?_collectParameters_of_mem member bound fun other otherMember sameKey => ?_
    exact (only other).mp ⟨otherMember, alone other otherMember sameKey⟩

/-- A placeholder that was handed out has its value exactly if the first request about the
parameter was no declaration under another key. Nothing else is registered under the key of
the placeholder, and requests with one identity are about copies of one parameter. -/
theorem backed_iff {config : Config} {requests : List Request} {parameter : Parameter}
    {value : Value} {text : String} (bound : parameter.value = some value)
    (asked : (.placeholder parameter, some text) ∈ (empty config).transcript requests)
    (single : ∀ request ∈ requests, ∀ other, request.about? = some other →
      other.identity = parameter.identity → other = parameter)
    (alone : ∀ registration ∈ ((empty config).serveAll requests).registrations,
      registration.key = parameter.name.getD text → registration.identity = parameter.identity) :
    ((empty config).serveAll requests).collectParameters.find? (parameter.name.getD text) =
        some value ↔
      ∀ key other,
        requests.find? (·.isAbout parameter.identity) = some (.declaration key other) →
          key = parameter.name.getD text := by
  have member : .placeholder parameter ∈ requests := by
    rw [← map_fst_transcript (empty config) requests]
    exact List.mem_map_of_mem asked
  cases found : requests.find? (·.isAbout parameter.identity) with
  | none =>
      have elsewhere := List.find?_eq_none.mp found _ member
      simp [Request.isAbout, Request.about?] at elsewhere
  | some request =>
      rcases exists_first config found with ⟨before, rest, split, unaware, other, isAbout, same⟩
      have known : request ∈ requests := split ▸ List.mem_append_right _ List.mem_cons_self
      obtain rfl := single request known other isAbout same
      have registered : (empty config).serveAll requests =
          ((empty config).serveAll before).serveAll (request :: rest) := by
        rw [split, serveAll_append]
      rw [registered] at alone ⊢
      rw [unaware.find?_eq_some_iff isAbout bound alone]
      cases request with
      | mention binder => cases isAbout
      | placeholder parameter =>
          cases isAbout
          -- The name was given now, and the one that was asked for is the same.
          have exchanged : (.placeholder other,
              some (((empty config).serveAll before).resolveParameter other).1) ∈
                (empty config).transcript requests := by
            rw [split, transcript_append]
            exact List.mem_append_right _ List.mem_cons_self
          have sameText := answer_eq_of_placeholder exchanged asked rfl rfl
          refine iff_of_true ?_ fun key declared isDeclaration => by cases isDeclaration
          rw [keyOf, Option.some.inj sameText]
      | declaration key declared =>
          rw [keyOf]
          constructor
          · rintro sameKey _ _ ⟨⟩
            exact sameKey
          · intro each
            exact each key declared rfl

/-- A parameter is declared under the name that it has anyway, and its placeholder comes with
its value. -/
theorem backed_iff_declared :
    let user : Parameter := { identity := ⟨0⟩, name := some "my user", value := some (.integer 1) }
    let limit : Parameter := { identity := ⟨1⟩, value := some (.integer 5) }
    let requests : List Request := [.placeholder limit, .declaration "my user" user,
      .placeholder user]
    let after := (empty {}).serveAll requests
    (.placeholder user, some "\x60my user\x60") ∈ (empty {}).transcript requests ∧
      (∀ request ∈ requests, ∀ other, request.about? = some other →
        other.identity = user.identity → other = user) ∧
      (∀ registration ∈ after.registrations,
        registration.key = "my user" → registration.identity = user.identity) ∧
      after.collectParameters.find? "my user" = some (.integer 1) := by
  intro user limit requests after
  have exchanged : (.placeholder user, some "\x60my user\x60") ∈
      (empty {}).transcript requests := by
    have last : (empty {}).transcript requests = [(.placeholder limit, some "param0"),
        (.declaration "my user" user, none), (.placeholder user, some "\x60my user\x60")] := by
      dsimp only [requests, user, limit]
      rfl
    rw [last]
    exact List.mem_cons_of_mem _ (List.mem_cons_of_mem _ List.mem_cons_self)
  have single : ∀ request ∈ requests, ∀ other, request.about? = some other →
      other.identity = user.identity → other = user := by
    simp [requests, Request.about?, user, limit]
  have alone : ∀ registration ∈ after.registrations,
      registration.key = "my user" → registration.identity = user.identity := by
    have registered : after.registrations =
        [{ identity := ⟨1⟩, key := "param0", value := some (.integer 5) },
          { identity := ⟨0⟩, key := "my user", value := some (.integer 1) }] := by
      dsimp only [after, requests, user, limit]
      rfl
    simp [registered, user]
  refine ⟨exchanged, single, alone, (backed_iff rfl exchanged single alone).mpr ?_⟩
  intro key other first
  have declared : requests.find? (·.isAbout user.identity) = some (.declaration "my user" user) := by
    dsimp only [requests, user, limit]
    rfl
  rw [declared] at first
  cases first
  rfl

/-- Declared under another name first, the parameter is registered under that name only, and
its placeholder comes without a value. -/
theorem value_lost_declared :
    let user : Parameter := { identity := ⟨0⟩, name := some "user", value := some (.integer 1) }
    let requests : List Request := [.declaration "other" user, .placeholder user]
    let after := (empty {}).serveAll requests
    (.placeholder user, some "user") ∈ (empty {}).transcript requests ∧
      (∀ registration ∈ after.registrations,
        registration.key = "user" → registration.identity = user.identity) ∧
      after.collectParameters = [("other", .integer 1)] ∧
      after.collectParameters.find? "user" ≠ some (.integer 1) := by
  intro user requests after
  have registered : after.registrations =
      [{ identity := ⟨0⟩, key := "other", value := some (.integer 1) }] := rfl
  refine ⟨List.mem_cons_of_mem _ List.mem_cons_self, ?_, rfl, ?_⟩
  · simp [registered, user]
  · rw [show after.collectParameters = [("other", .integer 1)] from rfl]
    simp [Fields.find?]

end Environment

end Cypher
