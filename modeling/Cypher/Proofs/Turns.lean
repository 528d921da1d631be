import Cypher.Proofs.Rendering

/-! Layouts in turn. Layouts that are put together are rendered one after the other, each in
the environment that the ones before it left, and the first fault is the end. What is done to
the text afterwards does not matter for that. -/

namespace Cypher.Layout

section Turns

variable {α β : Type} {first : Rendering α} {environment after : Environment}

theorem map_ok (change : α → β) {value : α} (rendered : first environment = .ok value after) :
    (change <$> first) environment = .ok (change value) after :=
  bind_ok rendered

theorem map_error (change : α → β) {error : RenderError}
    (failed : first environment = .error error after) :
    (change <$> first) environment = .error error after :=
  bind_error failed

theorem ok_of_bind {next : α → Rendering β} {value : β}
    (rendered : (first >>= next) environment = .ok value after) :
    ∃ head between, first environment = .ok head between ∧ next head between = .ok value after := by
  cases found : first environment with
  | error error left =>
      rw [bind_error found] at rendered
      cases rendered
  | ok head between =>
      rw [bind_ok found] at rendered
      exact ⟨head, between, rfl, rendered⟩

theorem ok_of_mapM_cons {each : α → Rendering β} {head : α} {tail : List α} {values : List β}
    (rendered : (head :: tail).mapM each environment = .ok values after) :
    ∃ value rest between, values = value :: rest ∧ each head environment = .ok value between ∧
      tail.mapM each between = .ok rest after := by
  rw [List.mapM_cons] at rendered
  rcases ok_of_bind rendered with ⟨value, between, firstRendered, others⟩
  rcases ok_of_bind others with ⟨rest, last, restRendered, put⟩
  cases put
  exact ⟨value, rest, between, rfl, firstRendered, restRendered⟩

/-- What holds in all environments on the way, and of the values that are found there. -/
theorem mapM_induction {each : α → Rendering β} {Holds : Environment → Prop} {Good : β → Prop}
    {items : List α} {values : List β}
    (step : ∀ item ∈ items, ∀ {environment after value}, Holds environment →
      each item environment = .ok value after → Holds after ∧ Good value)
    (start : Holds environment) (rendered : items.mapM each environment = .ok values after) :
    Holds after ∧ ∀ value ∈ values, Good value := by
  induction items generalizing environment values with
  | nil =>
      cases rendered
      exact ⟨start, List.forall_mem_nil _⟩
  | cons head tail induction =>
      rcases ok_of_mapM_cons rendered with ⟨value, rest, between, rfl, firstRendered, others⟩
      rw [List.forall_mem_cons] at step ⊢
      rcases step.1 start firstRendered with ⟨holds, good⟩
      rcases induction step.2 holds others with ⟨ends, restGood⟩
      exact ⟨ends, good, restGood⟩

theorem exists_mapM_ok {each : α → Rendering β} {items : List α}
    (sound : ∀ item ∈ items, ∀ environment, ∃ value after, each item environment = .ok value after)
    (environment : Environment) :
    ∃ values after, items.mapM each environment = .ok values after := by
  induction items generalizing environment with
  | nil => exact ⟨[], environment, rfl⟩
  | cons head tail induction =>
      rw [List.forall_mem_cons] at sound
      rcases sound.1 environment with ⟨value, between, rendered⟩
      rcases induction sound.2 between with ⟨rest, after, others⟩
      refine ⟨value :: rest, after, ?_⟩
      rw [List.mapM_cons, bind_ok rendered, bind_ok others]
      rfl

theorem length_of_mapM {each : α → Rendering β} {items : List α} {values : List β}
    (rendered : items.mapM each environment = .ok values after) :
    values.length = items.length := by
  induction items generalizing environment values with
  | nil =>
      cases rendered
      rfl
  | cons head tail induction =>
      rcases ok_of_mapM_cons rendered with ⟨value, rest, between, rfl, -, others⟩
      exact congrArg Nat.succ (induction others)

end Turns

theorem render_text (content : String) : (text content).render = pure content := rfl

theorem render_append (first second : Layout) :
    (first ++ second).render = do
      let firstText ← first.render
      let secondText ← second.render
      return firstText ++ secondText := rfl

theorem render_indent (body : Layout) : (indent body).render = Block.indent <$> body.render := by
  rw [map_eq_pure_bind]
  rfl

theorem render_after (lead : String) (layout : Layout) :
    (after lead layout).render = (lead ++ ·) <$> layout.render := by
  rw [after, render_append, render_text, pure_bind, map_eq_pure_bind]

theorem joined_cons_cons (separator : String) (head next : Layout) (rest : List Layout) :
    joined separator (head :: next :: rest) =
      head ++ separator ++ joined separator (next :: rest) := rfl

/-- Joined layouts have their texts in turn, with the separator between them. -/
theorem render_joined (separator : String) (layouts : List Layout) :
    (joined separator layouts).render = separator.intercalate <$> layouts.mapM render := by
  induction layouts with
  | nil => rfl
  | cons head tail induction =>
      cases tail with
      | nil => simp [joined]
      | cons next rest =>
          rw [joined_cons_cons, render_append, render_append, induction, render_text]
          simp

theorem render_lines (layouts : List Layout) :
    (lines layouts).render = "\n".intercalate <$> layouts.mapM render :=
  render_joined "\n" layouts

end Cypher.Layout
