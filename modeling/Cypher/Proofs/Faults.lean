import Cypher.Proofs.Parts

/-! When a rendering fails. The tree alone decides that: the rendering of a phrase fails
if one of its parts is faulty, and it fails with the fault that is met first. -/

namespace Cypher

/-- What is wrong with the part itself: a branch without a result, a selector in front of
several paths, or text that cannot be computed. -/
def Part.fault? : Part → Option RenderError
  | .of (.branch _ .absent) => some .caseWithoutThen
  | .of (.matching _ selector _ rest _ _ _) => selectorFault selector (rest.toList.length + 1)
  | .of (.failure message) => some (.raw message)
  | _ => none

/-- The first fault in the order of the parts. A part comes before everything inside it:
a selector before its paths, and a branch before its condition, but behind the subject
and the branches in front of it. -/
def Phrase.firstFault? (phrase : Phrase category) : Option RenderError :=
  phrase.parts.findSome? Part.fault?

namespace Reading

theorem fault?_cons (entry : Nat × Item) (rest : Reading) :
    fault? (entry :: rest) = entry.2.fault?.or (fault? rest) := by
  cases found : entry.2.fault? <;> simp [fault?, found]

theorem fault?_ofYields (depth : Nat) (yields : List Yield) :
    fault? (yields.flatMap (Item.ofYield depth)) = none := by
  induction yields with
  | nil => rfl
  | cons column rest induction =>
      rw [List.flatMap_cons, fault?_append, induction, Item.ofYield, fault?_cons]
      simp [Item.fault?]

end Reading

namespace Phrase

/-- The first fault that is met is the first fault of the parts. -/
theorem fault?_reading (phrase : Phrase category) : ∀ depth,
    (phrase.reading depth).fault? = phrase.firstFault? := by
  induction phrase with
  | branch condition result conditionInduction resultInduction =>
      intro depth
      cases result with
      | absent => rfl
      | present result =>
          simp_all [firstFault?, parts, reading, Reading.fault?_append, Part.fault?,
            List.findSome?_cons, List.findSome?_append]
  | matching optional selector first rest filter updates deleted firstInduction restInduction
      filterInduction updatesInduction deletionInduction =>
      intro depth
      cases faulty : selectorFault selector (rest.toList.length + 1) <;>
        simp_all [firstFault?, parts, reading, Reading.fault?_append, Reading.fault?_cons,
          Part.fault?, Item.fault?, List.findSome?_append]
  | _ =>
      intro depth
      simp_all [firstFault?, parts, reading, Reading.fault?_append, Reading.fault?_cons,
        Reading.fault?_ofYields, Part.fault?, Item.fault?, Item.ofNames,
        List.findSome?_cons, List.findSome?_append]

theorem result_of_fault {phrase : Phrase category} {error : RenderError}
    (faulty : phrase.firstFault? = some error) (environment : Environment) :
    phrase.whole.result environment = .error error := by
  rw [← fault?_reading phrase 0, ← reading_whole] at faulty
  rw [Layout.result, Layout.failsFirst _ faulty]

theorem result_of_faultless {phrase : Phrase category}
    (faultless : phrase.firstFault? = none) (environment : Environment) :
    ∃ text, phrase.whole.result environment = .ok text := by
  rw [← fault?_reading phrase 0, ← reading_whole] at faultless
  rw [Layout.result, Layout.rendersSoundly _ faultless (.refl _)]
  exact ⟨_, rfl⟩

theorem result_eq_error_iff {phrase : Phrase category} {error : RenderError}
    (environment : Environment) :
    phrase.whole.result environment = .error error ↔ phrase.firstFault? = some error := by
  cases faulty : phrase.firstFault? with
  | some first =>
      rw [result_of_fault faulty]
      exact ⟨fun same => congrArg some (Except.error.inj same),
        fun same => congrArg Except.error (Option.some.inj same)⟩
  | none =>
      rcases result_of_faultless faulty environment with ⟨text, written⟩
      rw [written]
      exact ⟨nofun, nofun⟩

theorem firstFault?_isSome_iff (phrase : Phrase category) :
    (∃ error, phrase.firstFault? = some error) ↔
      ∃ part ∈ phrase.parts, ∃ error, part.fault? = some error := by
  simp only [← Option.isSome_iff_exists, firstFault?, List.findSome?_isSome_iff]

/-- A rendering fails exactly if some part is faulty, and it fails with the first fault,
in every environment. -/
theorem render_error_iff (phrase : Phrase category) (environment : Environment) :
    ((∃ error, phrase.whole.result environment = .error error) ↔
      ∃ part ∈ phrase.parts, ∃ error, part.fault? = some error) ∧
    (∀ error, phrase.whole.result environment = .error error ↔
      phrase.firstFault? = some error) ∧
    ∀ (other : Environment) (error : RenderError),
      phrase.whole.result environment = .error error ↔
        phrase.whole.result other = .error error := by
  refine ⟨?_, fun error => result_eq_error_iff environment, fun other error => ?_⟩
  · simp only [result_eq_error_iff environment]
    exact phrase.firstFault?_isSome_iff
  · rw [result_eq_error_iff environment, result_eq_error_iff other]

/-- A branch without a result is found before its condition, and behind its subject. -/
example :
    let failing (message : String) : Expression :=
      .raw (.computed (.cons (.failure message) .nil))
    let branches : Phrase (.many .branch) := .cons (.branch (failing "condition") .absent) .nil
    (Phrase.choice .absent branches .absent).firstFault? = some .caseWithoutThen ∧
      (Phrase.choice (.present (failing "subject")) branches .absent).firstFault? =
        some (.raw "subject") :=
  ⟨rfl, rfl⟩

end Phrase

end Cypher
