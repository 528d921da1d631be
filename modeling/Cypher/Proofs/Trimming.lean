import Cypher.Proofs.Carrying
import Cypher.Proofs.Composition

/-! Trimmed texts. The text of a relationship is trimmed, since its first part has no blank
in front of it. The parts that may come first begin with marks of their own, and only a name
can begin with a blank. -/

namespace Cypher

open Block (Unbroken unbroken_pathLength)
open Placement

/-! ## Blanks in front -/

/-- The text does not consist of blanks. -/
def IsVisible (text : String) : Prop :=
  ∃ character ∈ text.toList, Blank.isBlank character = false

theorem IsVisible.ne_empty {text : String} (visible : IsVisible text) : text ≠ "" := by
  rintro rfl
  rcases visible with ⟨character, member, -⟩
  cases member

theorem trimStart_append {text : String} (visible : IsVisible text) (rest : String) :
    Blank.trimStart (text ++ rest) = Blank.trimStart text ++ rest := by
  rcases visible with ⟨mark, member, notBlank⟩
  rcases List.append_of_mem member with ⟨front, back, characters⟩
  have kept := dropWhile_append_cons Blank.isBlank notBlank front
  rw [← String.toList_inj, String.toList_append, Blank.trimStart, Blank.trimStart,
    String.toList_ofList, String.toList_ofList, String.toList_append, characters,
    List.append_assoc, List.cons_append, kept, kept, List.append_assoc, List.cons_append]

def Begins (head : Char) (text : String) : Prop :=
  ∃ tail, text.toList = head :: tail

theorem Begins.append {head : Char} {first : String} (begins : Begins head first)
    (second : String) : Begins head (first ++ second) := by
  rcases begins with ⟨tail, characters⟩
  exact ⟨tail ++ second.toList, by rw [String.toList_append, characters]; rfl⟩

theorem Begins.trimStart {head : Char} {text : String} (begins : Begins head text)
    (visible : Blank.isBlank head = false) : Blank.trimStart text = text := by
  rcases begins with ⟨tail, characters⟩
  rw [Blank.trimStart, characters, List.dropWhile_cons_of_neg (by simp [visible]),
    ← characters, String.ofList_toList]

theorem trimStart_blank (text : String) :
    Blank.trimStart (" " ++ text) = Blank.trimStart text := by
  have blank : Blank.isBlank ' ' := by decide
  simp [Blank.trimStart, blank]

theorem begins_mapText (entries : List String) : Begins '\x7b' (Value.mapText entries) := by
  have opening : Begins '\x7b' "\x7b " := ⟨_, rfl⟩
  rw [Value.mapText]
  split
  · exact ⟨_, rfl⟩
  · exact (opening.append _).append _

theorem begins_pathLength (length : PathLength) : Begins '*' length.text := by
  have star : Begins '*' "*" := ⟨_, rfl⟩
  rcases length with _ | length | ⟨_ | least, _ | greatest⟩
  · exact star
  · exact star.append _
  · exact star
  all_goals
    rw [PathLength.text]
    · exact ((star.append _).append _).append _
    · simp

/-- Types and lengths begin with a mark of their own. -/
theorem begins_edge (config : Config) {types : List String} {length : Option PathLength}
    (something : (types.isEmpty && length.isNone) = false) :
    ∃ head, Blank.isBlank head = false ∧
      Begins head (config.relationshipTypes types ++ (length.map (·.text)).getD "") := by
  cases types with
  | cons first rest =>
      have colon : Begins ':' ":" := ⟨_, rfl⟩
      exact ⟨':', by decide, (colon.append _).append _⟩
  | nil =>
      cases length with
      | none => cases something
      | some length =>
          have noTypes : config.relationshipTypes [] = "" := rfl
          rw [noTypes, String.empty_append]
          exact ⟨'*', by decide, begins_pathLength length⟩

section Relationship

variable (predicate : Option String) (properties : Option (List String))

theorem intercalate_conditions (front : String) :
    " ".intercalate (front :: (condition predicate ++ (properties.map Value.mapText).toList)) =
      front ++ (led " WHERE " predicate ++ led " " (properties.map Value.mapText)) := by
  have lead : ∀ text, " " ++ ("WHERE " ++ text) = " WHERE " ++ text := by
    intro text
    rw [← String.append_assoc]
    exact congrArg (· ++ text) (by decide)
  cases predicate <;> cases properties <;> simp [condition, led, lead, String.append_assoc]

theorem begins_conditions :
    ∀ item ∈ condition predicate ++ (properties.map Value.mapText).toList,
      ∃ head, Blank.isBlank head = false ∧ Begins head item := by
  have keyword : Begins 'W' "WHERE " := ⟨_, rfl⟩
  intro item member
  rcases List.mem_append.mp member with inCondition | inProperties
  · rw [condition, Option.mem_toList, Option.map_eq_some_iff] at inCondition
    rcases inCondition with ⟨content, -, rfl⟩
    exact ⟨'W', by decide, keyword.append content⟩
  · rw [Option.mem_toList, Option.map_eq_some_iff] at inProperties
    rcases inProperties with ⟨entries, -, rfl⟩
    exact ⟨'\x7b', by decide, begins_mapText entries⟩

/-- Conditions have no blank in front. -/
theorem trimStart_conditions :
    Blank.trimStart (led " WHERE " predicate ++ led " " (properties.map Value.mapText)) =
      " ".intercalate (condition predicate ++ (properties.map Value.mapText).toList) := by
  have spread := intercalate_conditions predicate properties ""
  have begins := begins_conditions predicate properties
  rw [String.empty_append] at spread
  rw [← spread]
  cases conditions : condition predicate ++ (properties.map Value.mapText).toList with
  | nil => rfl
  | cons first rest =>
      rw [conditions] at begins
      rcases begins first List.mem_cons_self with ⟨head, visible, firstBegins⟩
      rw [String.intercalate_cons_cons, String.empty_append, trimStart_blank]
      cases rest with
      | nil =>
          rw [String.intercalate_singleton]
          exact firstBegins.trimStart visible
      | cons second rest =>
          rw [String.intercalate_cons_cons]
          exact ((firstBegins.append _).append _).trimStart visible

theorem trimStart_relationship (names : Dictionary) {binder? : Option Variable}
    (visible : ∀ binder ∈ binder?, IsVisible (names.variableText binder)) (types : List String)
    (length : Option PathLength) :
    Blank.trimStart (Placement.binder names binder? ++ names.config.relationshipTypes types ++
        (length.map (·.text)).getD "" ++ led " WHERE " predicate ++
        led " " (properties.map Value.mapText)) =
      " ".intercalate (edge names binder? types length ++
        (condition predicate ++ (properties.map Value.mapText).toList)) := by
  rw [String.append_assoc]
  cases binder? with
  | some binder =>
      have present : edge names (some binder) types length = [Blank.trimStart
          (names.variableText binder) ++ names.config.relationshipTypes types ++
            (length.map (·.text)).getD ""] := rfl
      rw [present, List.singleton_append, intercalate_conditions, Placement.binder]
      simp only [String.append_assoc, trimStart_append (visible binder rfl)]
  | none =>
      cases nothing : types.isEmpty && length.isNone with
      | true =>
          have absent : edge names none types length = [] := by simp [edge, nothing]
          rcases Bool.and_eq_true_iff.mp nothing with ⟨noTypes, noLength⟩
          rw [List.isEmpty_iff.mp noTypes, Option.isNone_iff_eq_none.mp noLength] at absent ⊢
          rw [absent, List.nil_append, ← trimStart_conditions]
          rfl
      | false =>
          rcases begins_edge names.config nothing with ⟨head, visible, begins⟩
          have noName : Blank.trimStart (Placement.binder names none) = "" := rfl
          have present : edge names none types length =
              [names.config.relationshipTypes types ++ (length.map (·.text)).getD ""] := by
            rw [edge, noName, String.empty_append]
            simp [nothing]
          rw [present, List.singleton_append, intercalate_conditions, Placement.binder,
            String.empty_append]
          exact (begins.append _).trimStart visible

end Relationship

/-! ## Trimmed layouts -/

theorem unbroken_trimStart {text : String} (unbroken : Unbroken text) :
    Unbroken (Blank.trimStart text) := by
  have kept : (text.toList.dropWhile Blank.isBlank).Sublist text.toList :=
    List.dropWhile_sublist _
  rw [Unbroken, Blank.trimStart, String.toList_ofList]
  exact ⟨fun member => unbroken.1 (kept.subset member),
    fun member => unbroken.2 (kept.subset member)⟩

namespace Layout

variable {names : Dictionary} {depth : Nat}

theorem written_optional (lead : String) (layout : Option Layout) :
    (optional lead layout).written names = led lead (layout.map (written names)) := by
  cases layout <;> rfl

theorem written_map (entries : List Layout) :
    (map entries).written names = Value.mapText (entries.map (written names)) := by
  cases entries with
  | nil => rfl
  | cons head tail => simp [map, Value.mapText]

theorem written_binder (binder? : Option Variable) :
    (Layout.binder binder?).written names = Placement.binder names binder? := by
  cases binder? <;> rfl

theorem written_pathLength (length : Option PathLength) :
    (pathLength length).written names = (length.map (·.text)).getD "" := by
  cases length <;> rfl

theorem written_condition (predicate : Option Layout) :
    (Layout.condition predicate).toList.map (written names) =
      Placement.condition (predicate.map (written names)) := by
  cases predicate <;> rfl

section Relationship

variable {binder? : Option Variable} {types : List String} {predicate : Option Layout}
  {properties : Option (List Layout)} {predicateText : Option String}
  {propertiesText : Option (List String)}

/-- What is written for the parts, one behind the other, without a blank in front. -/
theorem written_trimStart (visible : ∀ binder ∈ binder?, IsVisible (names.variableText binder))
    (types : List String) (length : Option PathLength) (predicate : Option Layout)
    (properties : Option (List Layout)) :
    (trimStart (Layout.binder binder? ++ leaf (.relationshipTypes types) ++ pathLength length ++
        optional " WHERE " predicate ++ optional " " (properties.map map))).written names =
      (joined " " ((edge names binder? types length).map text ++
        (Layout.condition predicate).toList ++ (properties.map map).toList)).written names := by
  have entries : (properties.map map).map (written names) =
      (properties.map (·.map (written names))).map Value.mapText := by
    cases properties with
    | none => rfl
    | some entries => exact congrArg some (written_map entries)
  have itself : (edge names binder? types length).map (written names ∘ text) =
      edge names binder? types length := List.map_id _
  have spread := trimStart_relationship (predicate.map (written names))
    (properties.map (·.map (written names))) names visible types length
  rw [written_joined, List.map_append, List.map_append, written_condition, List.map_map, itself,
    ← Option.toList_map, entries, List.append_assoc, ← spread, ← entries, ← written_optional,
    ← written_optional, ← written_binder, ← written_pathLength]
  rfl

theorem fits_trimmed (binderUnbroken : Unbroken (Placement.binder names binder?))
    (visible : ∀ binder ∈ binder?, IsVisible (names.variableText binder))
    (typesUnbroken : Unbroken (names.config.relationshipTypes types))
    (length : Option PathLength)
    (predicateFits : Option.Rel (Fits names depth) predicate predicateText)
    (propertiesFit : Option.Rel (List.Forall₂ (Fits names depth)) properties propertiesText) :
    Fits names depth
      (trimStart (Layout.binder binder? ++ leaf (.relationshipTypes types) ++ pathLength length ++
        optional " WHERE " predicate ++ optional " " (properties.map map)))
      (" ".intercalate (edge names binder? types length ++ Placement.condition predicateText ++
        (propertiesText.map Value.mapText).toList)) := by
  have lengthUnbroken : Unbroken ((length.map (·.text)).getD "") := by
    cases length with
    | none => decide
    | some length => exact unbroken_pathLength length
  have edgeUnbroken : ∀ text ∈ edge names binder? types length, Unbroken text := by
    intro text member
    rw [edge] at member
    split at member
    · cases member
    · rw [List.mem_singleton.mp member, Block.unbroken_append, Block.unbroken_append]
      exact ⟨⟨unbroken_trimStart binderUnbroken, typesUnbroken⟩, lengthUnbroken⟩
  have edgeFits : List.Forall₂ (Fits names depth) ((edge names binder? types length).map text)
      (edge names binder? types length) :=
    List.forall₂_map_left_iff.mpr (List.forall₂_same.mpr fun text member =>
      fits_text (edgeUnbroken text member))
  have conditionFits := (lines_condition predicateFits).imp fun _ _ lines => lines.fits
  have entriesFit : List.Forall₂ (Fits names depth) (properties.map map).toList
      (propertiesText.map Value.mapText).toList := by
    cases propertiesFit with
    | none => exact .nil
    | some entries => exact .cons (fits_map entries) .nil
  have together := fits_joined (by decide : Unbroken " ")
    (List.rel_append (List.rel_append edgeFits conditionFits) entriesFit)
  exact together.of_written (written_trimStart visible types length predicate properties)

end Relationship

end Layout

end Cypher
