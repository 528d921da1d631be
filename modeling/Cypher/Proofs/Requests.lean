import Cypher.Proofs.Identification

/-! Requests to an environment, in any order and any number of times. Variables and parameters
share one table of names, but their sequences of names know nothing of each other: the
requests of one kind are answered as if there were no others. -/

namespace Cypher

/-- A variable or a parameter is to be named, or a parameter is to be registered under a key
of the caller's choice. -/
inductive Request where
  | mention (binder : Variable)
  | placeholder (parameter : Parameter)
  | declaration (key : String) (parameter : Parameter)

namespace Request

def isMention : Request → Bool
  | mention _ => true
  | _ => false

def isPlaceholder : Request → Bool
  | placeholder _ => true
  | _ => false

end Request

/-- A request and the name it was answered with. A declaration is not answered. -/
abbrev Exchange := Request × Option String

namespace Environment

def answer (environment : Environment) : Request → Option String
  | .mention binder => some (environment.resolveVariable binder).1
  | .placeholder parameter => some (environment.resolveParameter parameter).1
  | .declaration _ _ => none

/-- The environment after one request. -/
def serve (environment : Environment) : Request → Environment
  | .mention binder => (environment.resolveVariable binder).2
  | .placeholder parameter => (environment.resolveParameter parameter).2
  | .declaration key parameter => environment.declareParameter key parameter

/-- The environment after several requests. -/
def serveAll (environment : Environment) (requests : List Request) : Environment :=
  requests.foldl serve environment

/-- Each request with its answer. -/
def transcript : Environment → List Request → List Exchange
  | _, [] => []
  | environment, request :: rest =>
      (request, environment.answer request) :: (environment.serve request).transcript rest

variable {environment : Environment}

@[simp] theorem serveAll_nil (environment : Environment) : environment.serveAll [] = environment :=
  rfl

@[simp] theorem serveAll_cons (environment : Environment) (request : Request)
    (rest : List Request) :
    environment.serveAll (request :: rest) = (environment.serve request).serveAll rest := rfl

@[simp] theorem serveAll_append (environment : Environment) (first second : List Request) :
    environment.serveAll (first ++ second) = (environment.serveAll first).serveAll second :=
  List.foldl_append

/-! ## What requests preserve -/

theorem grows_serve (environment : Environment) (request : Request) :
    environment.Grows (environment.serve request) := by
  cases request with
  | mention binder => exact environment.grows_resolveVariable binder
  | placeholder parameter => exact environment.grows_resolveParameter parameter
  | declaration key parameter => exact environment.grows_declareParameter key parameter

theorem grows_serveAll (environment : Environment) (requests : List Request) :
    environment.Grows (environment.serveAll requests) := by
  induction requests generalizing environment with
  | nil => exact .refl environment
  | cons request rest induction =>
      exact (environment.grows_serve request).trans (induction _)

theorem Reachable.serve (reachable : environment.Reachable) (request : Request) :
    (environment.serve request).Reachable := by
  cases request with
  | mention binder => exact reachable.resolveVariable binder
  | placeholder parameter => exact reachable.resolveParameter parameter
  | declaration key parameter => exact reachable.declareParameter key parameter

theorem Reachable.serveAll (reachable : environment.Reachable) (requests : List Request) :
    (environment.serveAll requests).Reachable := by
  induction requests generalizing environment with
  | nil => exact reachable
  | cons request rest induction => exact induction (reachable.serve request)

/-- The table holds the names of the variables and those of the parameters, and nothing
else, so the difference of the two numbers is never cut off. -/
theorem Reachable.variableNames_add (reachable : environment.Reachable) :
    environment.variableNames + environment.parameterNames = environment.names.length := by
  rcases reachable.numbered with ⟨config, binders, parameters, numbered⟩
  have total := length_namesOf environment.names
  rw [numbered.ofVariables, numbered.ofParameters, List.length_mapIdx,
    List.length_mapIdx] at total
  rw [numbered.variableNames, numbered.parameterNames, total]

/-! ## Answers that stay

Whatever was answered once is known from then on. -/

/-- A name that a variable was given stays in the table. -/
theorem lookup_of_resolveVariable {later : Environment} {binder : Variable}
    (anonymous : binder.name = none)
    (grows : (environment.resolveVariable binder).2.Grows later) :
    later.names.lookup (.ofVariable binder.identity) =
      some (environment.resolveVariable binder).1 := by
  rcases environment.resolveVariable_cases binder with
    ⟨name, explicit, -⟩ | ⟨-, name, given, resolved⟩ | ⟨-, fresh, resolved⟩
  · rw [anonymous] at explicit
    cases explicit
  · rw [resolved] at grows ⊢
    exact grows.lookup given
  · rw [resolved] at grows ⊢
    exact grows.lookup (lookup_append_self fresh)

/-- A name that a parameter was given stays in the table. -/
theorem lookup_of_resolveParameter {later : Environment} {parameter : Parameter}
    (anonymous : parameter.name = none)
    (grows : (environment.resolveParameter parameter).2.Grows later) :
    later.names.lookup (.ofParameter parameter.identity) =
      some (environment.resolveParameter parameter).1 := by
  rcases environment.resolveParameter_cases parameter with
    ⟨name, explicit, -⟩ | ⟨-, name, given, resolved⟩ | ⟨-, fresh, resolved⟩
  · rw [anonymous] at explicit
    cases explicit
  · rw [resolved] at grows ⊢
    exact grows.lookup given
  · rw [resolved] at grows ⊢
    exact ((environment.nameParameter parameter).grows_declareParameter _ parameter).trans grows
      |>.lookup (lookup_append_self fresh)

/-- Every answer was given in an environment from which the last one has grown. -/
theorem exists_served {requests : List Request} {request : Request} {answer : Option String}
    (exchanged : (request, answer) ∈ environment.transcript requests) :
    ∃ earlier : Environment, environment.Grows earlier ∧ earlier.answer request = answer ∧
      (earlier.serve request).Grows (environment.serveAll requests) := by
  induction requests generalizing environment with
  | nil => cases exchanged
  | cons next rest induction =>
      rcases List.mem_cons.mp exchanged with now | later
      · cases now
        exact ⟨environment, .refl environment, rfl, grows_serveAll _ rest⟩
      · rcases induction later with ⟨earlier, grows, answered, grown⟩
        exact ⟨earlier, (environment.grows_serve next).trans grows, answered, grown⟩

variable {requests : List Request}

theorem lookup_of_mention {binder : Variable} {answer : Option String}
    (anonymous : binder.name = none)
    (exchanged : (.mention binder, answer) ∈ environment.transcript requests) :
    (environment.serveAll requests).names.lookup (.ofVariable binder.identity) = answer := by
  rcases exists_served exchanged with ⟨earlier, -, answered, grown⟩
  rw [← answered]
  exact lookup_of_resolveVariable anonymous grown

theorem lookup_of_placeholder {parameter : Parameter} {answer : Option String}
    (anonymous : parameter.name = none)
    (exchanged : (.placeholder parameter, answer) ∈ environment.transcript requests) :
    (environment.serveAll requests).names.lookup (.ofParameter parameter.identity) = answer := by
  rcases exists_served exchanged with ⟨earlier, -, answered, grown⟩
  rw [← answered]
  exact lookup_of_resolveParameter anonymous grown

/-- A name of its own is the answer wherever the variable is mentioned. -/
theorem answer_of_named_mention {binder : Variable} {name : String} {answer : Option String}
    (explicit : binder.name = some name)
    (exchanged : (.mention binder, answer) ∈ environment.transcript requests) :
    answer = some (environment.config.identifier name) := by
  rcases exists_served exchanged with ⟨earlier, grows, answered, -⟩
  rw [← answered, Environment.answer, resolveVariable_of_named explicit, grows.config]

/-- A name of its own is the answer wherever the parameter is mentioned. -/
theorem answer_of_named_placeholder {parameter : Parameter} {name : String}
    {answer : Option String} (explicit : parameter.name = some name)
    (exchanged : (.placeholder parameter, answer) ∈ environment.transcript requests) :
    answer = some (environment.config.identifier name) := by
  rcases exists_served exchanged with ⟨earlier, grows, answered, -⟩
  rw [← answered, Environment.answer, resolveParameter_of_named explicit, grows.config]

/-- One variable has one answer. -/
theorem answer_eq_of_mention {first second : Variable} {answer other : Option String}
    (exchanged : (.mention first, answer) ∈ environment.transcript requests)
    (otherExchanged : (.mention second, other) ∈ environment.transcript requests)
    (sameIdentity : first.identity = second.identity) (sameName : first.name = second.name) :
    answer = other := by
  cases explicit : first.name with
  | some name =>
      rw [answer_of_named_mention explicit exchanged,
        answer_of_named_mention (sameName ▸ explicit) otherExchanged]
  | none =>
      rw [← lookup_of_mention explicit exchanged, sameIdentity,
        lookup_of_mention (sameName ▸ explicit) otherExchanged]

/-- One parameter has one answer. -/
theorem answer_eq_of_placeholder {first second : Parameter} {answer other : Option String}
    (exchanged : (.placeholder first, answer) ∈ environment.transcript requests)
    (otherExchanged : (.placeholder second, other) ∈ environment.transcript requests)
    (sameIdentity : first.identity = second.identity) (sameName : first.name = second.name) :
    answer = other := by
  cases explicit : first.name with
  | some name =>
      rw [answer_of_named_placeholder explicit exchanged,
        answer_of_named_placeholder (sameName ▸ explicit) otherExchanged]
  | none =>
      rw [← lookup_of_placeholder explicit exchanged, sameIdentity,
        lookup_of_placeholder (sameName ▸ explicit) otherExchanged]

/-! ## Requests of one kind

The answer to a mention of a variable depends on the variables that were mentioned before, and
not on the parameters. For parameters it is the other way round. -/

section Separation

variable {other : Environment} {config : Config} {binders otherBinders : List Variable}
  {parameters otherParameters : List Parameter}

theorem Numbered.resolveVariable_eq (numbered : environment.Numbered config binders parameters)
    (otherNumbered : other.Numbered config binders otherParameters) (binder : Variable) :
    (environment.resolveVariable binder).1 = (other.resolveVariable binder).1 := by
  have sameNames : environment.names.lookup (.ofVariable binder.identity) =
      other.names.lookup (.ofVariable binder.identity) := by
    rw [lookup_variable, lookup_variable, numbered.ofVariables, otherNumbered.ofVariables]
  unfold Environment.resolveVariable
  rw [sameNames, numbered.sameConfig, otherNumbered.sameConfig, numbered.variableNames,
    otherNumbered.variableNames]
  split
  · rfl
  · split <;> rfl

theorem Numbered.resolveParameter_eq
    (numbered : environment.Numbered config binders parameters)
    (otherNumbered : other.Numbered config otherBinders parameters) (parameter : Parameter) :
    (environment.resolveParameter parameter).1 = (other.resolveParameter parameter).1 := by
  have sameNames : environment.names.lookup (.ofParameter parameter.identity) =
      other.names.lookup (.ofParameter parameter.identity) := by
    rw [lookup_parameter, lookup_parameter, numbered.ofParameters, otherNumbered.ofParameters]
  unfold Environment.resolveParameter
  rw [sameNames, numbered.sameConfig, otherNumbered.sameConfig, numbered.parameterNames,
    otherNumbered.parameterNames]
  split
  · rfl
  · split <;> rfl

/-- Without the requests about parameters, the variables are answered in the same way. -/
theorem Numbered.transcript_mentions
    (numbered : environment.Numbered config binders parameters)
    (otherNumbered : other.Numbered config binders otherParameters) (requests : List Request) :
    (environment.transcript requests).filter (·.1.isMention) =
      other.transcript (requests.filter (·.isMention)) := by
  induction requests generalizing environment other binders parameters otherParameters with
  | nil => rfl
  | cons request rest induction =>
      cases request with
      | mention binder =>
          have same := numbered.resolveVariable_eq otherNumbered binder
          have behind := induction (numbered.resolveVariable binder)
            (otherNumbered.resolveVariable binder)
          simpa [transcript, Request.isMention, answer, same, serve] using behind
      | placeholder parameter =>
          simpa [transcript, Request.isMention, serve] using
            induction (numbered.resolveParameter parameter) otherNumbered
      | declaration key parameter =>
          simpa [transcript, Request.isMention, serve] using
            induction (numbered.declareParameter key parameter) otherNumbered

/-- Without the requests about variables and without declarations, the parameters are
answered in the same way. -/
theorem Numbered.transcript_placeholders
    (numbered : environment.Numbered config binders parameters)
    (otherNumbered : other.Numbered config otherBinders parameters) (requests : List Request) :
    (environment.transcript requests).filter (·.1.isPlaceholder) =
      other.transcript (requests.filter (·.isPlaceholder)) := by
  induction requests generalizing environment other binders otherBinders parameters with
  | nil => rfl
  | cons request rest induction =>
      cases request with
      | mention binder =>
          simpa [transcript, Request.isPlaceholder, serve] using
            induction (numbered.resolveVariable binder) otherNumbered
      | placeholder parameter =>
          have same := numbered.resolveParameter_eq otherNumbered parameter
          have behind := induction (numbered.resolveParameter parameter)
            (otherNumbered.resolveParameter parameter)
          simpa [transcript, Request.isPlaceholder, answer, same, serve] using behind
      | declaration key parameter =>
          simpa [transcript, Request.isPlaceholder, serve] using
            induction (numbered.declareParameter key parameter) otherNumbered

end Separation

/-- The two sequences of names after any requests: the numbers never run out, no name is given
twice within a sequence, a name that was given is kept, and neither sequence depends on the
requests of the other. -/
theorem sequences_apart (config : Config) (requests : List Request) :
    let environment := Environment.empty config
    let after := environment.serveAll requests
    let exchanges := environment.transcript requests
    after.parameterNames ≤ after.names.length ∧
      after.variableNames + after.parameterNames = after.names.length ∧
      (∀ first second name, (.mention first, some name) ∈ exchanges →
        (.mention second, some name) ∈ exchanges → first.name = none → second.name = none →
          first.identity = second.identity) ∧
      (∀ first second name, (.placeholder first, some name) ∈ exchanges →
        (.placeholder second, some name) ∈ exchanges → first.name = none →
          second.name = none → first.identity = second.identity) ∧
      (∀ first second answer other, (.mention first, answer) ∈ exchanges →
        (.mention second, other) ∈ exchanges → first.identity = second.identity →
          first.name = second.name → answer = other) ∧
      (∀ first second answer other, (.placeholder first, answer) ∈ exchanges →
        (.placeholder second, other) ∈ exchanges → first.identity = second.identity →
          first.name = second.name → answer = other) ∧
      exchanges.filter (·.1.isMention) =
        environment.transcript (requests.filter (·.isMention)) ∧
      exchanges.filter (·.1.isPlaceholder) =
        environment.transcript (requests.filter (·.isPlaceholder)) := by
  intro environment after exchanges
  have reachable : after.Reachable := (Reachable.empty config).serveAll requests
  have total := reachable.variableNames_add
  refine ⟨by omega, total, ?_, ?_, ?_, ?_, ?_, ?_⟩
  · intro first second name exchanged otherExchanged anonymous otherAnonymous
    exact reachable.variable_eq (lookup_of_mention anonymous exchanged)
      (lookup_of_mention otherAnonymous otherExchanged)
  · intro first second name exchanged otherExchanged anonymous otherAnonymous
    exact reachable.parameter_eq (lookup_of_placeholder anonymous exchanged)
      (lookup_of_placeholder otherAnonymous otherExchanged)
  · intro first second answer other
    exact answer_eq_of_mention
  · intro first second answer other
    exact answer_eq_of_placeholder
  · exact (Numbered.empty config).transcript_mentions (.empty config) requests
  · exact (Numbered.empty config).transcript_placeholders (.empty config) requests

/-- A parameter is declared and named between two variables, which are numbered in a row. -/
theorem sequences_apart_interleaved :
    let start : Variable := { identity := ⟨0⟩, kind := .node }
    let edge : Variable := { identity := ⟨1⟩, kind := .relationship }
    let limit : Parameter := { identity := ⟨2⟩, value := some (.integer 5) }
    let requests : List Request := [.mention start, .declaration "limit" limit,
      .placeholder limit, .mention edge, .mention start]
    let exchanges := (Environment.empty {}).transcript requests
    exchanges = [(.mention start, some "this0"), (.declaration "limit" limit, none),
        (.placeholder limit, some "param0"), (.mention edge, some "this1"),
        (.mention start, some "this0")] ∧
      (Environment.empty {}).transcript [.mention start, .mention edge, .mention start] =
        exchanges.filter (·.1.isMention) ∧
      ¬ ∃ name, (.mention start, some name) ∈ exchanges ∧
        (.mention edge, some name) ∈ exchanges := by
  intro start edge limit requests exchanges
  have apart := sequences_apart {} requests
  have exchanged : exchanges = [(.mention start, some "this0"), (.declaration "limit" limit, none),
      (.placeholder limit, some "param0"), (.mention edge, some "this1"),
      (.mention start, some "this0")] := by
    dsimp only [exchanges, requests, start, edge, limit]
    rfl
  refine ⟨exchanged, apart.2.2.2.2.2.2.1.symm, ?_⟩
  rintro ⟨name, startNamed, edgeNamed⟩
  have same := apart.2.2.1 start edge name startNamed edgeNamed rfl rfl
  exact absurd same (by decide)

end Environment

end Cypher
