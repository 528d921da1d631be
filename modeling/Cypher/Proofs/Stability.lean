import Cypher.Proofs.Parts

/-! Rendering again. Whatever is rendered, an environment only grows, even if the
rendering fails. What was rendered once is rendered to the same text from then on and
leaves the environment as it is. -/

namespace Cypher

namespace Environment

variable {environment later : Environment}

/-! ## Nothing new -/

theorem Grows.isRegistered (grows : environment.Grows later) {identity : Identity}
    (registered : environment.isRegistered identity) : later.isRegistered identity := by
  rw [Environment.isRegistered, List.any_eq_true] at registered ⊢
  rcases registered with ⟨registration, member, same⟩
  exact ⟨registration, grows.registrations.subset member, same⟩

theorem declareParameter_of_isRegistered {parameter : Parameter}
    (registered : environment.isRegistered parameter.identity) (key : String) :
    environment.declareParameter key parameter = environment :=
  if_pos registered

/-- A parameter that was resolved once is known: it has its name, and it is registered
if that name is its own. -/
theorem resolveParameter_of_grows {parameter : Parameter}
    (grows : (environment.resolveParameter parameter).2.Grows later) :
    (later.resolveParameter parameter).2 = later := by
  rcases environment.resolveParameter_cases parameter with
    ⟨name, explicit, resolved⟩ | ⟨anonymous, name, given, resolved⟩ |
      ⟨anonymous, fresh, resolved⟩ <;>
    rw [resolved] at grows
  · have registered := grows.isRegistered
      (environment.isRegistered_declareParameter name parameter)
    rw [resolveParameter_of_named explicit]
    exact declareParameter_of_isRegistered registered name
  · rw [resolveParameter_of_given anonymous (grows.lookup given)]
  · have kept := ((environment.nameParameter parameter).grows_declareParameter _
      parameter).trans grows
    rw [resolveParameter_of_given anonymous (kept.lookup (lookup_append_self fresh))]

/-- An item that was met is met again without a change. -/
theorem meet_of_grows {item : Item} (grows : (environment.meet item).Grows later) :
    later.meet item = later := by
  induction item with
  | mention binder => exact congrArg Prod.snd (resolveVariable_of_grows grows)
  | newName binder _ => exact congrArg Prod.snd (resolveVariable_of_grows grows)
  | placeholder parameter =>
      simp only [meet] at grows ⊢
      split
      · rfl
      · next notNull =>
          rw [if_neg notNull] at grows
          exact resolveParameter_of_grows grows
  | data _ => rfl
  | fault _ => rfl
  | unwritten _ induction => exact induction grows

theorem meetAll_of_grows {reading : Reading} (grows : (environment.meetAll reading).Grows later) :
    later.meetAll reading = later := by
  induction reading generalizing environment with
  | nil => rfl
  | cons entry rest induction =>
      rw [meetAll_cons] at grows ⊢
      have first := ((environment.meet entry.2).grows_meetAll rest).trans grows
      rw [meet_of_grows first]
      exact induction grows

end Environment

/-! ## Rendering on and on -/

theorem Reading.sound_of_faultless {reading : Reading} (faultless : reading.fault? = none) :
    reading.sound = reading := by
  simpa [Reading.sound] using Reading.sound_append_of_faultless faultless []

namespace Layout

/-- A rendering meets everything in front of the first fault. -/
theorem environmentAfter_eq_meetAll (layout : Layout) (environment : Environment) :
    layout.environmentAfter environment = environment.meetAll (layout.reading 0).sound := by
  unfold environmentAfter
  cases faulty : (layout.reading 0).fault? with
  | some error => rw [layout.failsFirst faulty]
  | none =>
      rw [layout.rendersSoundly faulty (.refl _), Reading.sound_of_faultless faulty]

theorem grows_environmentAfter (layout : Layout) (environment : Environment) :
    environment.Grows (layout.environmentAfter environment) := by
  rw [environmentAfter_eq_meetAll]
  exact environment.grows_meetAll _

/-- In an environment that knows everything that the first rendering left behind, the
second one does not add anything. -/
theorem render_of_grows {layout : Layout} {environment after later : Environment}
    {text : String} (rendered : layout.render environment = .ok text after)
    (grows : after.Grows later) : layout.render later = .ok text later := by
  rcases of_render_ok rendered 0 with ⟨faultless, rfl, -⟩
  have unchanged : later.meetAll (layout.reading 0) = later :=
    Environment.meetAll_of_grows grows
  have same : text = layout.written later.dictionary := by
    rw [rendersSoundly layout faultless grows] at rendered
    cases rendered
    rfl
  have again : (later.meetAll (layout.reading 0)).Grows later := by
    rw [unchanged]
    exact .refl later
  rw [rendersSoundly layout faultless again, unchanged, same]

end Layout

/-- The layout of the part on its own. -/
def Part.whole : Part → Layout
  | .of phrase => phrase.whole

/-- The environment after several phrases were rendered one after the other. Some of the
renderings may fail. -/
def Environment.renderAll (environment : Environment) (phrases : List Part) : Environment :=
  phrases.foldl (fun environment phrase => phrase.whole.environmentAfter environment) environment

theorem Environment.grows_renderAll (environment : Environment) (phrases : List Part) :
    environment.Grows (environment.renderAll phrases) := by
  induction phrases generalizing environment with
  | nil => exact .refl environment
  | cons phrase rest induction =>
      exact (phrase.whole.grows_environmentAfter environment).trans (induction _)

/-- Every rendering only extends the environment, and a phrase that was rendered is
rendered again to the same text, without any change, whatever was rendered in between. -/
theorem Phrase.rendered_again (environment : Environment) :
    (∀ {category : Category} (phrase : Phrase category),
      environment.Grows (phrase.whole.environmentAfter environment)) ∧
    ∀ {category : Category} {phrase : Phrase category} {text : String} {after : Environment},
      phrase.whole.render environment = .ok text after →
      ∀ others : List Part,
        phrase.whole.render (after.renderAll others) = .ok text (after.renderAll others) :=
  ⟨fun phrase => phrase.whole.grows_environmentAfter environment,
    fun rendered others =>
      Layout.render_of_grows rendered (Environment.grows_renderAll _ others)⟩

/-- A parameter and a new name, with a rendering in between that names another variable
and then fails. -/
theorem rendered_again_renamed :
    let value : Parameter := { identity := ⟨0⟩, value := some (.integer 1) }
    let column : Column := .renamed (.placeholder value) { identity := ⟨1⟩ }
    let failing : Fragment :=
      .computed (.cons (.expressionPiece (.mention { identity := ⟨2⟩ }))
        (.cons (.failure "no") .nil))
    let text := "$param0 AS var0"
    ∃ after, column.whole.render (.empty {}) = .ok text after ∧
      (after.renderAll [.of failing]).names ≠ after.names ∧
      column.whole.render (after.renderAll [.of failing]) =
        .ok text (after.renderAll [.of failing]) :=
  ⟨_, rfl, by decide, (Phrase.rendered_again (.empty {})).2 rfl _⟩

end Cypher
