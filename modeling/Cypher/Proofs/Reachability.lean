import Cypher.Proofs.Rendering

/-! Reachable environments. Whatever is resolved and declared, a name in the table is a
generated name, so its characters are those of the prefix, a stem and a number. -/

namespace Cypher

namespace Environment

/-- What can be made of an empty environment. -/
inductive Reachable : Environment → Prop where
  | empty (config : Config) : Reachable (.empty config)
  | resolveVariable {environment : Environment} (reachable : Reachable environment)
      (binder : Variable) : Reachable (environment.resolveVariable binder).2
  | resolveParameter {environment : Environment} (reachable : Reachable environment)
      (parameter : Parameter) : Reachable (environment.resolveParameter parameter).2
  | declareParameter {environment : Environment} (reachable : Reachable environment)
      (key : String) (parameter : Parameter) :
      Reachable (environment.declareParameter key parameter)

theorem Reachable.meet {environment : Environment} (reachable : environment.Reachable)
    (item : Item) : (environment.meet item).Reachable := by
  induction item with
  | mention binder => exact reachable.resolveVariable binder
  | newName binder _ => exact reachable.resolveVariable binder
  | placeholder parameter =>
      simp only [Environment.meet]
      split
      · exact reachable
      · exact reachable.resolveParameter parameter
  | data _ => exact reachable
  | fault _ => exact reachable
  | unwritten _ induction => exact induction

theorem Reachable.meetAll {environment : Environment} (reachable : environment.Reachable)
    (reading : Reading) : (environment.meetAll reading).Reachable := by
  induction reading generalizing environment with
  | nil => exact reachable
  | cons entry rest induction => exact induction (reachable.meet entry.2)

/-! ## Generated names -/

/-- The name was generated for its owner. -/
def IsGenerated (config : Config) : Owner × String → Prop
  | (.ofVariable _, name) => ∃ kind number, name = generatedVariableName config kind number
  | (.ofParameter _, name) => ∃ number, name = generatedParameterName config number

/-- All names in the table are generated. -/
theorem Reachable.isGenerated {environment : Environment} (reachable : environment.Reachable) :
    ∀ entry ∈ environment.names, IsGenerated environment.config entry := by
  induction reachable with
  | empty config => exact fun _ member => by cases member
  | @resolveVariable environment _ binder induction =>
      rcases environment.resolveVariable_cases binder with
        ⟨name, -, resolved⟩ | ⟨-, name, -, resolved⟩ | ⟨-, -, resolved⟩ <;>
        rw [resolved]
      · exact induction
      · exact induction
      · simp only [nameVariable, List.forall_mem_append, List.forall_mem_singleton]
        exact ⟨induction, binder.kind, _, rfl⟩
  | @resolveParameter environment _ parameter induction =>
      rcases environment.resolveParameter_cases parameter with
        ⟨name, -, resolved⟩ | ⟨-, name, -, resolved⟩ | ⟨-, -, resolved⟩ <;>
        rw [resolved]
      · rw [names_declareParameter, config_declareParameter]
        exact induction
      · exact induction
      · rw [names_declareParameter, config_declareParameter]
        simp only [nameParameter, List.forall_mem_append, List.forall_mem_singleton]
        exact ⟨induction, _, rfl⟩
  | declareParameter _ key parameter induction =>
      rw [names_declareParameter, config_declareParameter]
      exact induction

theorem mem_of_lookup {names : List (Owner × String)} {owner : Owner} {name : String}
    (given : names.lookup owner = some name) : (owner, name) ∈ names := by
  rcases List.lookup_eq_some_iff.mp given with ⟨before, after, equal, -⟩
  rw [equal]
  exact List.mem_append_right _ List.mem_cons_self

variable {environment : Environment}

theorem Reachable.variableText (reachable : environment.Reachable) {binder : Variable}
    (anonymous : binder.name = none) :
    ∃ kind number, (environment.resolveVariable binder).1 =
      generatedVariableName environment.config kind number := by
  rcases environment.resolveVariable_cases binder with
    ⟨name, explicit, -⟩ | ⟨-, name, given, resolved⟩ | ⟨-, -, resolved⟩
  · rw [anonymous] at explicit
    cases explicit
  · rw [resolved]
    exact reachable.isGenerated _ (mem_of_lookup given)
  · rw [resolved]
    exact ⟨_, _, rfl⟩

theorem Reachable.parameterText (reachable : environment.Reachable) {parameter : Parameter}
    (anonymous : parameter.name = none) :
    ∃ number, (environment.resolveParameter parameter).1 =
      generatedParameterName environment.config number := by
  rcases environment.resolveParameter_cases parameter with
    ⟨name, explicit, -⟩ | ⟨-, name, given, resolved⟩ | ⟨-, -, resolved⟩
  · rw [anonymous] at explicit
    cases explicit
  · rw [resolved]
    exact reachable.isGenerated _ (mem_of_lookup given)
  · rw [resolved]
    exact ⟨_, rfl⟩

end Environment

theorem Layout.reachable_of_render_ok {layout : Layout} {environment after : Environment}
    {text : String} (reachable : environment.Reachable)
    (rendered : layout.render environment = .ok text after) : after.Reachable := by
  rw [(of_render_ok rendered 0).2.1]
  exact reachable.meetAll _

end Cypher
