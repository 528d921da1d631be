import Mathlib.Data.Set.Function
import Cypher.Proofs.Replacement
import Cypher.Query

/-! Other identities. Only whether two variables or two parameters are the same counts:
with other identities that are as different from each other as the old ones, the same
names are given, the same text is written, and the same parameters are handed out. -/

namespace Cypher

/-! ## Renumbered trees and environments -/

def Variable.renumbered (number : Identity → Identity) (binder : Variable) : Variable :=
  { binder with identity := number binder.identity }

def Parameter.renumbered (number : Identity → Identity) (parameter : Parameter) : Parameter :=
  { parameter with identity := number parameter.identity }

/-- Every identity is replaced by the one that `number` gives it. -/
def renumbering (number : Identity → Identity) : Replacement where
  ofVariable := Variable.renumbered number
  ofParameter parameter := .inl (parameter.renumbered number)

theorem Parameter.isNull_renumbered (number : Identity → Identity) (parameter : Parameter) :
    (parameter.renumbered number).isNull = parameter.isNull := rfl

def Phrase.renumbered (number : Identity → Identity) (phrase : Phrase category) :
    Phrase category :=
  phrase.replace (renumbering number)

def Owner.identity : Owner → Identity
  | ofVariable identity => identity
  | ofParameter identity => identity

def Owner.renumbered (number : Identity → Identity) : Owner → Owner
  | ofVariable identity => ofVariable (number identity)
  | ofParameter identity => ofParameter (number identity)

def Environment.renumbered (number : Identity → Identity) (environment : Environment) :
    Environment :=
  { environment with
    names := environment.names.map fun (owner, name) => (owner.renumbered number, name)
    registrations := environment.registrations.map fun registration =>
      { registration with identity := number registration.identity } }

/-- The identity of the variable or parameter that is met. -/
def Item.identity? : Item → Option Identity
  | mention binder => some binder.identity
  | newName binder _ => some binder.identity
  | placeholder parameter => some parameter.identity
  | unwritten item => item.identity?
  | data _ | fault _ => none

/-- The identities of all variables and parameters that are met. -/
def Reading.identities (reading : Reading) : List Identity :=
  reading.filterMap (·.2.identity?)

theorem Reading.identities_append (first second : Reading) :
    identities (first ++ second) = identities first ++ identities second :=
  List.filterMap_append

namespace Environment

variable {number : Identity → Identity} {known : Set Identity} {environment : Environment}

/-- All owners and all registered parameters are `known`. -/
structure Within (environment : Environment) (known : Set Identity) : Prop where
  names : ∀ entry ∈ environment.names, entry.1.identity ∈ known
  registrations : ∀ registration ∈ environment.registrations, registration.identity ∈ known

theorem within_empty (config : Config) (known : Set Identity) :
    (empty config).Within known :=
  ⟨by simp [empty], by simp [empty]⟩

/-! ## Looking up -/

theorem renumbered_eq_iff (injective : Set.InjOn number known) {owner other : Owner}
    (ownerKnown : owner.identity ∈ known) (otherKnown : other.identity ∈ known) :
    owner.renumbered number = other.renumbered number ↔ owner = other := by
  cases owner <;> cases other <;>
    simp only [Owner.renumbered, Owner.ofVariable.injEq, Owner.ofParameter.injEq, reduceCtorEq]
  · exact injective.eq_iff ownerKnown otherKnown
  · exact injective.eq_iff ownerKnown otherKnown

theorem lookup_renumbered (injective : Set.InjOn number known)
    {names : List (Owner × String)} (within : ∀ entry ∈ names, entry.1.identity ∈ known)
    (owner : Owner) (ownerKnown : owner.identity ∈ known) :
    (names.map fun (owner, name) => (owner.renumbered number, name)).lookup
        (owner.renumbered number) = names.lookup owner := by
  induction names with
  | nil => rfl
  | cons entry rest induction =>
      rcases entry with ⟨other, name⟩
      rw [List.forall_mem_cons] at within
      have same : (owner.renumbered number == other.renumbered number) = (owner == other) := by
        rw [Bool.eq_iff_iff, beq_iff_eq, beq_iff_eq]
        exact renumbered_eq_iff injective ownerKnown within.1
      rw [List.map_cons, List.lookup_cons, List.lookup_cons, same, induction within.2]

theorem isRegistered_renumbered (injective : Set.InjOn number known)
    (within : environment.Within known) {identity : Identity} (identityKnown : identity ∈ known) :
    (environment.renumbered number).isRegistered (number identity) =
      environment.isRegistered identity := by
  rw [Bool.eq_iff_iff]
  simp only [isRegistered, renumbered, List.any_map, List.any_eq_true, Function.comp_apply,
    decide_eq_true_eq]
  refine exists_congr fun registration => and_congr_right fun member => ?_
  exact injective.eq_iff (within.registrations registration member) identityKnown

theorem variableNames_renumbered :
    (environment.renumbered number).variableNames = environment.variableNames := by
  simp [variableNames, renumbered]

/-! ## Resolving -/

theorem Within.resolveVariable (within : environment.Within known) {binder : Variable}
    (binderKnown : binder.identity ∈ known) :
    (environment.resolveVariable binder).2.Within known := by
  rcases environment.resolveVariable_cases binder with
    ⟨name, -, resolved⟩ | ⟨-, name, -, resolved⟩ | ⟨-, -, resolved⟩ <;>
    rw [resolved]
  · exact within
  · exact within
  · refine ⟨?_, within.registrations⟩
    simp only [nameVariable, List.forall_mem_append, List.forall_mem_singleton]
    exact ⟨within.names, binderKnown⟩

/-- Resolving a renumbered variable gives the same text and the renumbered environment. -/
theorem resolveVariable_renumbered (injective : Set.InjOn number known)
    (within : environment.Within known) {binder : Variable}
    (binderKnown : binder.identity ∈ known) :
    (environment.renumbered number).resolveVariable (binder.renumbered number) =
      ((environment.resolveVariable binder).1,
        (environment.resolveVariable binder).2.renumbered number) := by
  have given := lookup_renumbered injective within.names
    (.ofVariable binder.identity) binderKnown
  change (environment.renumbered number).names.lookup (.ofVariable (number binder.identity)) =
    environment.names.lookup (.ofVariable binder.identity) at given
  rcases environment.resolveVariable_cases binder with
    ⟨name, explicit, resolved⟩ | ⟨anonymous, name, found, resolved⟩ |
      ⟨anonymous, fresh, resolved⟩ <;>
    rw [resolved]
  · exact resolveVariable_of_named explicit
  · exact resolveVariable_of_given anonymous (given.trans found)
  · rw [fresh] at given
    simp only [Environment.resolveVariable, Variable.renumbered, anonymous, given,
      variableNames_renumbered]
    simp [nameVariable, renumbered, Owner.renumbered]

theorem Within.declareParameter (within : environment.Within known) (key : String)
    {parameter : Parameter} (parameterKnown : parameter.identity ∈ known) :
    (environment.declareParameter key parameter).Within known := by
  rw [Environment.declareParameter]
  split
  · exact within
  · refine ⟨within.names, ?_⟩
    simp only [List.forall_mem_append, List.forall_mem_singleton]
    exact ⟨within.registrations, parameterKnown⟩

theorem declareParameter_renumbered (injective : Set.InjOn number known)
    (within : environment.Within known) (key : String) {parameter : Parameter}
    (parameterKnown : parameter.identity ∈ known) :
    (environment.renumbered number).declareParameter key (parameter.renumbered number) =
      (environment.declareParameter key parameter).renumbered number := by
  have same := isRegistered_renumbered injective within parameterKnown
  rw [declareParameter, declareParameter, Parameter.renumbered, same]
  split
  · rfl
  · simp [renumbered]

theorem Within.nameParameter (within : environment.Within known) {parameter : Parameter}
    (parameterKnown : parameter.identity ∈ known) :
    (environment.nameParameter parameter).Within known := by
  refine ⟨?_, within.registrations⟩
  simp only [Environment.nameParameter, List.forall_mem_append, List.forall_mem_singleton]
  exact ⟨within.names, parameterKnown⟩

theorem nameParameter_renumbered (parameter : Parameter) :
    (environment.renumbered number).nameParameter (parameter.renumbered number) =
      (environment.nameParameter parameter).renumbered number := by
  simp [nameParameter, renumbered, Owner.renumbered, Parameter.renumbered]

theorem Within.resolveParameter (within : environment.Within known) {parameter : Parameter}
    (parameterKnown : parameter.identity ∈ known) :
    (environment.resolveParameter parameter).2.Within known := by
  rcases environment.resolveParameter_cases parameter with
    ⟨name, -, resolved⟩ | ⟨-, name, -, resolved⟩ | ⟨-, -, resolved⟩ <;>
    rw [resolved]
  · exact within.declareParameter name parameterKnown
  · exact within
  · exact (within.nameParameter parameterKnown).declareParameter _ parameterKnown

/-- Resolving a renumbered parameter gives the same text and the renumbered environment. -/
theorem resolveParameter_renumbered (injective : Set.InjOn number known)
    (within : environment.Within known) {parameter : Parameter}
    (parameterKnown : parameter.identity ∈ known) :
    (environment.renumbered number).resolveParameter (parameter.renumbered number) =
      ((environment.resolveParameter parameter).1,
        (environment.resolveParameter parameter).2.renumbered number) := by
  have given := lookup_renumbered injective within.names
    (.ofParameter parameter.identity) parameterKnown
  change (environment.renumbered number).names.lookup
      (.ofParameter (number parameter.identity)) =
    environment.names.lookup (.ofParameter parameter.identity) at given
  rcases environment.resolveParameter_cases parameter with
    ⟨name, explicit, resolved⟩ | ⟨anonymous, name, found, resolved⟩ |
      ⟨anonymous, fresh, resolved⟩ <;>
    rw [resolved]
  · have named : (parameter.renumbered number).name = some name := explicit
    rw [resolveParameter_of_named named,
      declareParameter_renumbered injective within name parameterKnown]
    rfl
  · exact resolveParameter_of_given anonymous (given.trans found)
  · rw [fresh] at given
    have declared := declareParameter_renumbered injective (within.nameParameter parameterKnown)
      (generatedParameterName environment.config environment.parameterNames) parameterKnown
    rw [← declared, ← nameParameter_renumbered]
    simp only [Environment.resolveParameter, Parameter.renumbered, anonymous, given]
    rfl

/-! ## Whole readings -/

theorem Within.meet (within : environment.Within known) {item : Item}
    (itemKnown : ∀ identity ∈ item.identity?, identity ∈ known) :
    (environment.meet item).Within known := by
  induction item with
  | mention binder => exact within.resolveVariable (itemKnown _ rfl)
  | newName binder _ => exact within.resolveVariable (itemKnown _ rfl)
  | placeholder parameter =>
      simp only [Environment.meet]
      split
      · exact within
      · exact within.resolveParameter (itemKnown _ rfl)
  | data _ => exact within
  | fault _ => exact within
  | unwritten _ induction => exact induction itemKnown

theorem meet_renumbered (injective : Set.InjOn number known)
    (within : environment.Within known) {item : Item}
    (itemKnown : ∀ identity ∈ item.identity?, identity ∈ known) :
    (environment.renumbered number).meet (item.replace (renumbering number)) =
      (environment.meet item).renumbered number := by
  induction item with
  | mention binder =>
      exact congrArg Prod.snd (resolveVariable_renumbered injective within (itemKnown _ rfl))
  | newName binder _ =>
      exact congrArg Prod.snd (resolveVariable_renumbered injective within (itemKnown _ rfl))
  | placeholder parameter =>
      have resolved := resolveParameter_renumbered injective within (itemKnown _ rfl)
      have same := parameter.isNull_renumbered number
      simp only [Item.replace, renumbering, meet]
      by_cases null : parameter.isNull
      · rw [if_pos (same.trans null), if_pos null]
      · rw [if_neg (same ▸ null), if_neg null, resolved]
  | data _ => rfl
  | fault _ => rfl
  | unwritten _ induction => exact induction itemKnown

/-- Meeting a renumbered reading leaves the renumbered environment. -/
theorem meetAll_renumbered (injective : Set.InjOn number known)
    (within : environment.Within known) (reading : Reading)
    (readingKnown : ∀ identity ∈ reading.identities, identity ∈ known) :
    (environment.renumbered number).meetAll (reading.replace (renumbering number)) =
      (environment.meetAll reading).renumbered number ∧
    (environment.meetAll reading).Within known := by
  induction reading generalizing environment with
  | nil => exact ⟨rfl, within⟩
  | cons entry rest induction =>
      have itemKnown : ∀ identity ∈ entry.2.identity?, identity ∈ known := by
        intro identity member
        exact readingKnown identity
          (List.mem_filterMap.mpr ⟨entry, List.mem_cons_self, member⟩)
      have restKnown : ∀ identity ∈ Reading.identities rest, identity ∈ known := by
        intro identity member
        rcases List.mem_filterMap.mp member with ⟨other, inside, found⟩
        exact readingKnown identity
          (List.mem_filterMap.mpr ⟨other, List.mem_cons_of_mem _ inside, found⟩)
      simp only [Reading.replace, List.map_cons, meetAll_cons]
      rw [meet_renumbered injective within itemKnown]
      exact induction (within.meet itemKnown) restKnown

theorem collectParameters_renumbered :
    (environment.renumbered number).collectParameters = environment.collectParameters := by
  simp [collectParameters, renumbered, List.filterMap_map]

end Environment

/-! ## The same text -/

/-- A renumbered layout is written with the renumbered names as it was before. -/
theorem Layout.written_renumbered {number : Identity → Identity} {known : Set Identity}
    {environment : Environment} (injective : Set.InjOn number known)
    (within : environment.Within known) (layout : Layout) {depth : Nat}
    (layoutKnown : ∀ identity ∈ (layout.reading depth).identities, identity ∈ known) :
    (layout.replace (renumbering number)).written (environment.renumbered number).dictionary =
      layout.written environment.dictionary := by
  have ofVariable : ∀ binder : Variable, binder.identity ∈ known →
      (environment.renumbered number).dictionary.variableText
          ((renumbering number).ofVariable binder) =
        environment.dictionary.variableText binder := by
    intro binder binderKnown
    simp only [Environment.dictionary, renumbering,
      Environment.resolveVariable_renumbered injective within binderKnown]
  induction layout generalizing depth with
  | leaf content => rfl
  | mention binder => exact ofVariable binder (layoutKnown _ List.mem_cons_self)
  | placeholder parameter =>
      have resolved := Environment.resolveParameter_renumbered injective within
        (layoutKnown parameter.identity List.mem_cons_self)
      simp only [replace, Replacement.placeholderLayout, renumbering, written,
        Parameter.isNull_renumbered, Environment.dictionary, resolved]
  | fault error => rfl
  | append first second firstInduction secondInduction =>
      simp only [reading, Reading.identities_append, List.forall_mem_append] at layoutKnown
      simp only [replace, written, firstInduction layoutKnown.1,
        secondInduction layoutKnown.2]
  | stack upper lower upperInduction lowerInduction =>
      simp only [reading, Reading.identities_append, List.forall_mem_append] at layoutKnown
      simp only [replace, written, upperInduction layoutKnown.1, lowerInduction layoutKnown.2]
  | indent body induction => simp only [replace, written, induction layoutKnown]
  | aliased value newName induction =>
      simp only [reading, Reading.identities_append, List.forall_mem_append] at layoutKnown
      have same := ofVariable newName (layoutKnown.2 _ List.mem_cons_self)
      simp only [replace, written, induction layoutKnown.1, same]
  | trimStart body induction => simp only [replace, written, induction layoutKnown]
  | verbatim upper lower upperInduction lowerInduction =>
      simp only [reading, Reading.identities_append, List.forall_mem_append] at layoutKnown
      simp only [replace, written, upperInduction layoutKnown.1, lowerInduction layoutKnown.2]
  | unwritten body => rfl

/-! ## The same query -/

namespace Query

/-- A query is built from the text and the registered parameters of its chain. -/
theorem build_eq (config : Config) (chain : Chain) :
    build config chain =
      match (chain.reading 0).fault? with
      | some error => .error error
      | none =>
          let after := (Environment.empty config).meetAll (chain.reading 0)
          .ok { text := header config ++ chain.whole.written after.dictionary
                parameters := after.collectParameters.override config.extraParameters } := by
  simp only [build, Environment.collectParameters_declareValues]
  rw [show chain.layout = chain.whole from rfl, ← Phrase.reading_whole]
  cases faulty : (chain.whole.reading 0).fault? with
  | some error => rw [Layout.failsFirst _ faulty]
  | none => rw [Layout.rendersSoundly _ faulty (.refl _)]

/-- Other identities for the variables and parameters of a tree lead to the same query or
to the same error, as long as different identities stay different. -/
theorem build_renumbered (config : Config) {chain : Chain} {number : Identity → Identity}
    (injective : Set.InjOn number {identity | identity ∈ (chain.reading 0).identities}) :
    build config (chain.renumbered number) = build config chain := by
  have renumberedReading : (chain.renumbered number).reading 0 =
      (chain.reading 0).replace (renumbering number) := by
    rw [← Phrase.reading_whole, Phrase.renumbered, Phrase.whole_replace,
      Layout.reading_replace, Phrase.reading_whole]
  have wholeKnown : ∀ identity ∈ (chain.whole.reading 0).identities,
      identity ∈ {identity | identity ∈ (chain.reading 0).identities} := by
    rw [Phrase.reading_whole]
    exact fun _ member => member
  rcases Environment.meetAll_renumbered injective (Environment.within_empty config _)
    (chain.reading 0) (fun _ member => member) with ⟨met, within⟩
  change (Environment.empty config).meetAll _ = _ at met
  have written := chain.whole.written_renumbered injective within wholeKnown
  rw [build_eq, build_eq, renumberedReading, Reading.fault?_replace]
  cases (chain.reading 0).fault? with
  | some error => rfl
  | none =>
      simp only [met, Environment.collectParameters_renumbered, Phrase.renumbered,
        Phrase.whole_replace, written]

/-- The identities are taken in the opposite order. -/
theorem build_renumbered_returning :
    let number : Identity → Identity := fun identity => ⟨2 - identity.number⟩
    let chain : Chain :=
      .last (.returning false
        (.projection false (.cons (.column (.mention { identity := ⟨0⟩, kind := .node }))
          (.cons (.renamed (.placeholder { identity := ⟨2⟩, value := some (.integer 5) })
            { identity := ⟨1⟩ }) .nil)))
        (.rowOrder .nil .absent .absent))
    let query : Query :=
      { text := "RETURN this0, $param0 AS var1", parameters := [("param0", .integer 5)] }
    Set.InjOn number {identity | identity ∈ (chain.reading 0).identities} ∧
      build {} chain = .ok query ∧ build {} (chain.renumbered number) = build {} chain := by
  intro number chain query
  have different : ∀ first ∈ (chain.reading 0).identities,
      ∀ second ∈ (chain.reading 0).identities, number first = number second → first = second := by
    decide
  have injective : Set.InjOn number {identity | identity ∈ (chain.reading 0).identities} :=
    fun first isFirst second isSecond => different first isFirst second isSecond
  have built : build {} chain = .ok query := rfl
  exact ⟨injective, built, build_renumbered {} injective⟩

end Query

end Cypher
