import Cypher.Proofs.Naming
import Cypher.Proofs.Reachability
import Cypher.Proofs.Words

/-! Who has a name. In a reachable environment no two variables have the same generated
name, and no two parameters have. Without prefixes a generated name is a word that ends
with a number, so it is none of the keywords. -/

namespace Cypher

/-! ## Numbers in names -/

/-- A stem is a word without digits. -/
structure IsStem (stem : String) : Prop where
  initial : ∃ head tail, stem.toList = head :: tail ∧ Identifier.isInitial head
  inside : stem.toList.all Identifier.isSubsequent
  noDigit : stem.toList.all (!·.isDigit)

theorem VariableKind.isStem (kind : VariableKind) : IsStem kind.stem := by
  cases kind <;> exact ⟨⟨_, _, rfl, rfl⟩, by decide, by decide⟩

theorem Parameter.isStem : IsStem Parameter.stem :=
  ⟨⟨_, _, rfl, rfl⟩, by decide, by decide⟩

theorem Decimal.exists_digit (number : Nat) :
    ∃ digit rest, (natural number).toList = digit :: rest ∧ digit.isDigit := by
  cases digits : (natural number).toList with
  | nil =>
      rw [natural, String.toList_ofList] at digits
      exact absurd digits Nat.toDigits_ne_nil
  | cons digit rest =>
      have member : digit ∈ (natural number).toList := digits ▸ List.mem_cons_self
      exact ⟨digit, rest, rfl, isDigit_of_mem_natural member⟩

/-- The number begins behind the stem. -/
theorem IsStem.number_eq {stem otherStem : String} (isStem : IsStem stem)
    (otherIsStem : IsStem otherStem) {number other : Nat}
    (equal : stem ++ Decimal.natural number = otherStem ++ Decimal.natural other) :
    number = other := by
  have ends : ∀ number, Ends (fun character => !character.isDigit)
      (Decimal.natural number).toList := by
    intro number
    rcases Decimal.exists_digit number with ⟨digit, rest, digits, isDigit⟩
    rw [digits]
    rintro _ ⟨⟩
    simp [isDigit]
  have characters := congrArg String.toList equal
  rw [String.toList_append, String.toList_append] at characters
  have same := word_append_inj (List.all_eq_true.mp isStem.noDigit)
    (List.all_eq_true.mp otherIsStem.noDigit) (ends number) (ends other) characters
  exact Decimal.natural_inj (String.toList_inj.mp same.2)

/-- A word with a digit. -/
structure IsNumberedWord (name : String) : Prop where
  initial : ∃ head tail, name.toList = head :: tail ∧ Identifier.isInitial head
  inside : ∀ character ∈ name.toList, Identifier.isSubsequent character
  digit : ∃ character ∈ name.toList, character.isDigit

theorem IsStem.isNumberedWord {stem : String} (isStem : IsStem stem) (number : Nat) :
    IsNumberedWord (stem ++ Decimal.natural number) := by
  rcases isStem.initial with ⟨head, tail, spelled, isInitial⟩
  rcases Decimal.exists_digit number with ⟨digit, rest, digits, isDigit⟩
  refine ⟨⟨head, tail ++ (Decimal.natural number).toList, ?_, isInitial⟩, ?_, digit, ?_, isDigit⟩
  · rw [String.toList_append, spelled, List.cons_append]
  · rw [String.toList_append, List.forall_mem_append]
    refine ⟨List.all_eq_true.mp isStem.inside, fun character member => ?_⟩
    simp [Identifier.isSubsequent, Char.isAlphanum, Decimal.isDigit_of_mem_natural member]
  · rw [String.toList_append, digits]
    exact List.mem_append_right _ List.mem_cons_self

namespace Environment

variable {environment : Environment}

/-! ## Owners of names -/

theorem Reachable.numbered (reachable : environment.Reachable) :
    ∃ config binders parameters, environment.Numbered config binders parameters := by
  induction reachable with
  | empty config => exact ⟨config, [], [], .empty config⟩
  | resolveVariable _ binder induction =>
      rcases induction with ⟨config, binders, parameters, numbered⟩
      exact ⟨config, _, _, numbered.resolveVariable binder⟩
  | resolveParameter _ parameter induction =>
      rcases induction with ⟨config, binders, parameters, numbered⟩
      exact ⟨config, _, _, numbered.resolveParameter parameter⟩
  | declareParameter _ key parameter induction =>
      rcases induction with ⟨config, binders, parameters, numbered⟩
      exact ⟨config, _, _, numbered.declareParameter key parameter⟩

theorem exists_of_lookup_mapIdx {α κ : Type} [BEq κ] [LawfulBEq κ] {key : α → κ}
    (name : Nat → α → String) {items : List α} {wanted : κ} {text : String}
    (found : (items.mapIdx fun number item => (key item, name number item)).lookup wanted =
      some text) :
    ∃ number item, items[number]? = some item ∧ key item = wanted ∧ name number item = text := by
  rcases List.lookup_eq_some_iff.mp found with ⟨before, after, split, -⟩
  have member : (wanted, text) ∈ items.mapIdx fun number item => (key item, name number item) := by
    rw [split]
    exact List.mem_append_right _ List.mem_cons_self
  rcases List.mem_mapIdx.mp member with ⟨number, bound, equal⟩
  rcases Prod.mk.inj equal with ⟨sameKey, sameName⟩
  exact ⟨number, items[number], List.getElem?_eq_getElem bound, sameKey, sameName⟩

/-- No two variables were given one name. -/
theorem Reachable.variable_eq (reachable : environment.Reachable) {identity other : Identity}
    {name : String} (given : environment.names.lookup (.ofVariable identity) = some name)
    (otherGiven : environment.names.lookup (.ofVariable other) = some name) :
    identity = other := by
  rcases reachable.numbered with ⟨config, binders, parameters, numbered⟩
  rw [lookup_variable, numbered.ofVariables] at given otherGiven
  rcases exists_of_lookup_mapIdx
    (fun number (binder : Variable) => generatedVariableName config binder.kind number)
    given with ⟨number, binder, listed, rfl, rfl⟩
  rcases exists_of_lookup_mapIdx
    (fun number (binder : Variable) => generatedVariableName config binder.kind number)
    otherGiven with ⟨otherNumber, otherBinder, otherListed, rfl, same⟩
  simp only [generatedVariableName, String.append_assoc] at same
  have sameNumber := otherBinder.kind.isStem.number_eq binder.kind.isStem
    ((String.append_right_inj _).mp same)
  rw [sameNumber, listed] at otherListed
  cases otherListed
  rfl

/-- No two parameters were given one name. -/
theorem Reachable.parameter_eq (reachable : environment.Reachable) {identity other : Identity}
    {name : String} (given : environment.names.lookup (.ofParameter identity) = some name)
    (otherGiven : environment.names.lookup (.ofParameter other) = some name) :
    identity = other := by
  rcases reachable.numbered with ⟨config, binders, parameters, numbered⟩
  rw [lookup_parameter, numbered.ofParameters] at given otherGiven
  rcases exists_of_lookup_mapIdx (fun number _ => generatedParameterName config number)
    given with ⟨number, parameter, listed, rfl, rfl⟩
  rcases exists_of_lookup_mapIdx (fun number _ => generatedParameterName config number)
    otherGiven with ⟨otherNumber, otherParameter, otherListed, rfl, same⟩
  simp only [generatedParameterName, String.append_assoc] at same
  have sameNumber := Parameter.isStem.number_eq Parameter.isStem
    ((String.append_right_inj _).mp same)
  rw [sameNumber, listed] at otherListed
  cases otherListed
  rfl

/-! ## Names without prefixes -/

theorem Reachable.isNumberedWord (reachable : environment.Reachable)
    (unprefixed : environment.config.namePrefixes = {}) {owner : Owner} {name : String}
    (given : environment.names.lookup owner = some name) : IsNumberedWord name := by
  have generated := reachable.isGenerated _ (mem_of_lookup given)
  cases owner with
  | ofVariable identity =>
      rcases generated with ⟨kind, number, rfl⟩
      simp only [generatedVariableName, unprefixed, String.empty_append]
      exact kind.isStem.isNumberedWord number
  | ofParameter identity =>
      rcases generated with ⟨number, rfl⟩
      simp only [generatedParameterName, unprefixed, String.empty_append]
      exact Parameter.isStem.isNumberedWord number

end Environment

end Cypher
