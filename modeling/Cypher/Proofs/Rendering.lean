import Cypher.Proofs.Growth
import Cypher.Proofs.Reading

/-! A rendering taken apart. What it does to the environment follows from the
reading alone: every item up to the first fault is met in turn. What it writes
follows from the layout and the names that were given in the end. -/

namespace Cypher

/-! ## Meeting the items of a reading -/

namespace Environment

/-- The environment after one item was met. -/
def meet (environment : Environment) : Item → Environment
  | .mention binder => (environment.resolveVariable binder).2
  | .newName binder _ => (environment.resolveVariable binder).2
  | .placeholder parameter =>
      if parameter.isNull then environment else (environment.resolveParameter parameter).2
  | .data _ => environment
  | .fault _ => environment
  | .unwritten item => environment.meet item

/-- The environment after all items of a reading were met. -/
def meetAll (environment : Environment) (reading : Reading) : Environment :=
  reading.foldl (fun environment entry => environment.meet entry.2) environment

@[simp] theorem meetAll_nil (environment : Environment) : environment.meetAll [] = environment :=
  rfl

@[simp] theorem meetAll_cons (environment : Environment) (entry : Nat × Item)
    (rest : Reading) :
    environment.meetAll (entry :: rest) = (environment.meet entry.2).meetAll rest := rfl

@[simp] theorem meetAll_append (environment : Environment) (first second : Reading) :
    environment.meetAll (first ++ second) = (environment.meetAll first).meetAll second :=
  List.foldl_append

@[simp] theorem meetAll_unwritten (environment : Environment) (reading : Reading) :
    environment.meetAll reading.unwritten = environment.meetAll reading :=
  List.foldl_map

theorem grows_meet (environment : Environment) (item : Item) :
    environment.Grows (environment.meet item) := by
  induction item with
  | mention binder => exact environment.grows_resolveVariable binder
  | newName binder _ => exact environment.grows_resolveVariable binder
  | placeholder parameter =>
      simp only [meet]
      split
      · exact .refl environment
      · exact environment.grows_resolveParameter parameter
  | data _ => exact .refl environment
  | fault _ => exact .refl environment
  | unwritten _ induction => exact induction

theorem grows_meetAll (environment : Environment) (reading : Reading) :
    environment.Grows (environment.meetAll reading) := by
  induction reading generalizing environment with
  | nil => exact .refl environment
  | cons entry rest induction =>
      exact (environment.grows_meet entry.2).trans (induction _)

end Environment

/-! ## Faults -/

def Item.fault? : Item → Option RenderError
  | fault error => some error
  | unwritten item => item.fault?
  | mention _ | newName _ _ | placeholder _ | data _ => none

namespace Reading

/-- The first fault. -/
def fault? (reading : Reading) : Option RenderError :=
  reading.findSome? (·.2.fault?)

/-- Everything in front of the first fault. -/
def sound (reading : Reading) : Reading :=
  reading.takeWhile (·.2.fault?.isNone)

theorem fault?_append (first second : Reading) :
    fault? (first ++ second) = (fault? first).or (fault? second) :=
  List.findSome?_append

theorem sound_append_of_faultless {first : Reading} (faultless : fault? first = none)
    (second : Reading) : sound (first ++ second) = first ++ sound second := by
  apply List.takeWhile_append_of_pos
  intro entry member
  rw [List.findSome?_eq_none_iff.mp faultless entry member]
  rfl

theorem sound_append_of_fault? {first : Reading} {error : RenderError}
    (faulty : fault? first = some error) (second : Reading) :
    sound (first ++ second) = sound first := by
  induction first with
  | nil => cases faulty
  | cons entry rest induction =>
      rw [List.cons_append]
      cases found : entry.2.fault? with
      | some _ => simp [sound, found]
      | none =>
          have faultyRest : fault? rest = some error := by
            simpa [fault?, found] using faulty
          simpa [sound, found] using induction faultyRest

@[simp] theorem fault?_unwritten (reading : Reading) :
    fault? reading.unwritten = fault? reading :=
  List.findSome?_map

theorem sound_unwritten (reading : Reading) : sound reading.unwritten = (sound reading).unwritten :=
  List.takeWhile_map

end Reading

/-! ## Writing with finished names -/

/-- The texts of variables and parameters. -/
structure Dictionary where
  config : Config
  variableText : Variable → String
  parameterText : Parameter → String

/-- What an environment calls its variables and parameters. -/
def Environment.dictionary (environment : Environment) : Dictionary where
  config := environment.config
  variableText binder := (environment.resolveVariable binder).1
  parameterText parameter := (environment.resolveParameter parameter).1

/-- The text of a layout when every mention is replaced by its name. -/
def Layout.written (names : Dictionary) : Layout → String
  | leaf content => content.render names.config
  | mention binder => names.variableText binder
  | placeholder parameter =>
      if parameter.isNull then "NULL" else "$" ++ names.parameterText parameter
  | fault _ => ""
  | append first second => first.written names ++ second.written names
  | stack upper lower => Block.stack (upper.written names) (lower.written names)
  | indent body => Block.indent (body.written names)
  | aliased value newName =>
      if names.variableText newName = value.written names then value.written names
      else value.written names ++ " AS " ++ names.variableText newName
  | trimStart body => Blank.trimStart (body.written names)
  | verbatim upper lower =>
      if (upper.written names).isEmpty then Block.dropBreaks (lower.written names)
      else upper.written names ++ "\n" ++ lower.written names
  | unwritten _ => ""

/-! ## Rendering is meeting and writing -/

namespace Layout

section Bind

variable {α β : Type} {first : Rendering α} {next : α → Rendering β}
  {environment after : Environment}

theorem bind_ok {value : α} (rendered : first environment = .ok value after) :
    (first >>= next) environment = next value after := by
  simp [bind, EStateM.bind, rendered]

theorem bind_error {error : RenderError} (failed : first environment = .error error after) :
    (first >>= next) environment = .error error after := by
  simp [bind, EStateM.bind, failed]

end Bind

/-- In an environment, the layout is rendered without a fault. The text does not
depend on names that are given later. -/
def RendersSoundly (layout : Layout) : Prop :=
  ∀ {depth : Nat} {environment later : Environment},
    (layout.reading depth).fault? = none →
    (environment.meetAll (layout.reading depth)).Grows later →
    layout.render environment =
      .ok (layout.written later.dictionary) (environment.meetAll (layout.reading depth))

theorem render_both {first second : Layout} (combine : String → String → String)
    (firstSound : first.RendersSoundly) (secondSound : second.RendersSoundly)
    {depth : Nat} {environment later : Environment}
    (faultless : Reading.fault? (first.reading depth ++ second.reading depth) = none)
    (grows : (environment.meetAll (first.reading depth ++ second.reading depth)).Grows later) :
    (first.render >>= fun firstText => second.render >>= fun secondText =>
        pure (combine firstText secondText)) environment =
      .ok (combine (first.written later.dictionary) (second.written later.dictionary))
        (environment.meetAll (first.reading depth ++ second.reading depth)) := by
  rw [Reading.fault?_append, Option.or_eq_none_iff] at faultless
  rw [Environment.meetAll_append] at grows ⊢
  have between := Environment.grows_meetAll (environment.meetAll (first.reading depth))
    (second.reading depth)
  rw [bind_ok (firstSound faultless.1 (between.trans grows)),
    bind_ok (secondSound faultless.2 grows)]
  rfl

/-- A reading without faults is met to its end. -/
theorem rendersSoundly (layout : Layout) : layout.RendersSoundly := by
  induction layout with
  | leaf content =>
      intro depth environment later faultless grows
      have unchanged : environment.meetAll (leafReading depth content) = environment := by
        cases content <;> rfl
      simp only [reading, unchanged] at grows ⊢
      simp only [written, Environment.dictionary, grows.config]
      rfl
  | mention binder =>
      intro depth environment later faultless grows
      have kept := Environment.resolveVariable_of_grows grows
      simp only [written, Environment.dictionary, kept]
      rfl
  | placeholder parameter =>
      intro depth environment later faultless grows
      simp only [reading, Environment.meetAll_cons, Environment.meetAll_nil,
        Environment.meet] at grows ⊢
      simp only [written, render]
      split
      · rfl
      · rename_i notNull
        rw [if_neg notNull] at grows
        have kept := Environment.resolveParameter_fst_of_grows grows
        simp only [Environment.dictionary, kept]
        rfl
  | fault error =>
      intro depth environment later faultless
      cases faultless
  | append first second firstInduction secondInduction =>
      intro depth environment later faultless grows
      exact render_both (· ++ ·) firstInduction secondInduction faultless grows
  | stack upper lower upperInduction lowerInduction =>
      intro depth environment later faultless grows
      exact render_both Block.stack upperInduction lowerInduction faultless grows
  | indent body induction =>
      intro depth environment later faultless grows
      exact bind_ok (induction faultless grows)
  | aliased value newName induction =>
      intro depth environment later faultless grows
      simp only [reading, Reading.fault?_append, Option.or_eq_none_iff,
        Environment.meetAll_append] at faultless grows ⊢
      have between := Environment.grows_resolveVariable
        (environment.meetAll (value.reading depth)) newName
      have kept := Environment.resolveVariable_of_grows grows
      refine (bind_ok (induction faultless.1 (between.trans grows))).trans ?_
      simp only [written, Environment.dictionary, kept]
      rfl
  | trimStart body induction =>
      intro depth environment later faultless grows
      exact bind_ok (induction faultless grows)
  | verbatim upper lower upperInduction lowerInduction =>
      intro depth environment later faultless grows
      exact render_both (fun upperText lowerText =>
          if upperText.isEmpty then Block.dropBreaks lowerText
          else upperText ++ "\n" ++ lowerText)
        upperInduction lowerInduction faultless grows
  | unwritten body induction =>
      intro depth environment later faultless grows
      rw [reading, Reading.fault?_unwritten] at faultless
      rw [reading, Environment.meetAll_unwritten] at grows ⊢
      exact bind_ok (induction faultless grows)

/-! ## Faults end a rendering -/

/-- The first fault ends the rendering, after everything in front of it was met. -/
def FailsFirst (layout : Layout) : Prop :=
  ∀ {depth : Nat} {environment : Environment} {error : RenderError},
    (layout.reading depth).fault? = some error →
    layout.render environment =
      .error error (environment.meetAll (layout.reading depth).sound)

theorem render_first {first second : Layout} (next : String → Rendering String)
    (firstFails : first.FailsFirst) (secondFails : second.FailsFirst)
    {depth : Nat} {environment : Environment} {error : RenderError}
    (opened : ∀ firstText, ∃ last, next firstText = second.render >>= last)
    (faulty : Reading.fault? (first.reading depth ++ second.reading depth) = some error) :
    (first.render >>= next) environment =
      .error error
        (environment.meetAll (Reading.sound (first.reading depth ++ second.reading depth))) := by
  rw [Reading.fault?_append] at faulty
  cases firstFault : Reading.fault? (first.reading depth) with
  | some firstError =>
      rw [firstFault, Option.some_or] at faulty
      cases faulty
      rw [Reading.sound_append_of_fault? firstFault]
      exact bind_error (firstFails firstFault)
  | none =>
      rw [firstFault, Option.none_or] at faulty
      rw [Reading.sound_append_of_faultless firstFault, Environment.meetAll_append,
        bind_ok (first.rendersSoundly firstFault (.refl _))]
      rcases opened (first.written
        (environment.meetAll (first.reading depth)).dictionary) with ⟨last, equal⟩
      rw [equal]
      exact bind_error (secondFails faulty)

theorem failsFirst (layout : Layout) : layout.FailsFirst := by
  induction layout with
  | leaf content =>
      intro depth environment error faulty
      cases content <;> cases faulty
  | mention binder =>
      intro depth environment error faulty
      cases faulty
  | placeholder parameter =>
      intro depth environment error faulty
      cases faulty
  | fault error =>
      intro depth environment found faulty
      cases faulty
      rfl
  | append first second firstInduction secondInduction =>
      intro depth environment error faulty
      exact render_first _ firstInduction secondInduction (fun _ => ⟨_, rfl⟩) faulty
  | stack upper lower upperInduction lowerInduction =>
      intro depth environment error faulty
      exact render_first _ upperInduction lowerInduction (fun _ => ⟨_, rfl⟩) faulty
  | indent body induction =>
      intro depth environment error faulty
      exact bind_error (induction faulty)
  | aliased value newName induction =>
      intro depth environment error faulty
      have valueFaulty : (value.reading depth).fault? = some error := by
        simpa [reading, Reading.fault?_append, Reading.fault?, Item.fault?] using faulty
      rw [reading, Reading.sound_append_of_fault? valueFaulty]
      exact bind_error (induction valueFaulty)
  | trimStart body induction =>
      intro depth environment error faulty
      exact bind_error (induction faulty)
  | verbatim upper lower upperInduction lowerInduction =>
      intro depth environment error faulty
      exact render_first _ upperInduction lowerInduction (fun _ => ⟨_, rfl⟩) faulty
  | unwritten body induction =>
      intro depth environment error faulty
      rw [reading, Reading.fault?_unwritten] at faulty
      rw [reading, Reading.sound_unwritten, Environment.meetAll_unwritten]
      exact bind_error (induction faulty)

/-! ## Successful renderings -/

theorem faultless_of_render_ok {layout : Layout} {environment after : Environment}
    {text : String} (depth : Nat) (rendered : layout.render environment = .ok text after) :
    (layout.reading depth).fault? = none := by
  cases faulty : (layout.reading depth).fault? with
  | none => rfl
  | some error =>
      rw [failsFirst layout faulty] at rendered
      cases rendered

/-- What a successful rendering leaves behind, and what it wrote. -/
theorem of_render_ok {layout : Layout} {environment after : Environment}
    {text : String} (rendered : layout.render environment = .ok text after) (depth : Nat) :
    (layout.reading depth).fault? = none ∧
      after = environment.meetAll (layout.reading depth) ∧
      text = layout.written after.dictionary := by
  have faultless := faultless_of_render_ok depth rendered
  rw [rendersSoundly layout faultless (.refl _)] at rendered
  cases rendered
  exact ⟨faultless, rfl, rfl⟩

end Layout

end Cypher
