import Cypher.Proofs.Identification
import Cypher.Proofs.Trimming

/-! The texts that a phrase brings along: names, keys, strings and raw text. If they are on
one line each, so is what is written for them. -/

namespace Cypher

open Block (Unbroken unbroken_append unbroken_natural)

/-! ## Leaf texts -/

namespace Value

mutual

/-- The strings and the keys inside a value. -/
def texts : Value → List String
  | string text => [text]
  | array elements => elementTexts elements
  | object members => memberTexts members
  | _ => []

def elementTexts : List Value → List String
  | [] => []
  | head :: tail => head.texts ++ elementTexts tail

def memberTexts : List (String × Value) → List String
  | [] => []
  | (key, value) :: rest => key :: (value.texts ++ memberTexts rest)

end

end Value

/-- The explicit name of a variable. -/
def Variable.texts (binder : Variable) : List String :=
  binder.name.toList

def Yield.texts (column : Yield) : List String :=
  column.column :: column.newName.toList.flatMap Variable.texts

/-- The texts of the part itself, without those of the phrases inside. -/
def Part.texts : Part → List String
  | .of (.mention binder) => binder.texts
  | .of (.placeholder parameter) => parameter.name.toList
  | .of (.literal value) => value.texts
  | .of (.property _ key) => [key]
  | .of (.nameTest _ target first rest) => target.texts ++ first :: rest
  | .of (.entry key _) => [key]
  | .of (.function name _ _) => [name]
  | .of (.starFunction name) => [name]
  | .of (.comprehension member _ _ _) => member.texts
  | .of (.node binder labels _ _) => binder.toList.flatMap Variable.texts ++ labels
  | .of (.relationship binder types _ _ _ _) => binder.toList.flatMap Variable.texts ++ types
  | .of (.path binder _ _) => binder.toList.flatMap Variable.texts
  | .of (.renamed _ newName) => newName.texts
  | .of (.extend target _) => target.texts
  | .of (.addLabels target labels) => target.texts ++ labels
  | .of (.removeLabels target labels) => target.texts ++ labels
  | .of (.unwinding _ member _ _) => member.texts
  | .of (.procedure name _ yields _) => name :: yields.flatMap Yield.texts
  | .of (.iterating member _ _) => member.texts
  | .of (.verbatim content) => [content]
  | .of (.textPiece content) => [content]
  | .of (.labelPiece name) => [name]
  | _ => []

/-- All leaf texts of a phrase. -/
def Phrase.texts (phrase : Phrase category) : List String :=
  phrase.parts.flatMap Part.texts

/-! ## Written leaves -/

theorem unbroken_intercalate {separator : String} (unbroken : Unbroken separator)
    {texts : List String} (all : ∀ text ∈ texts, Unbroken text) :
    Unbroken (separator.intercalate texts) := by
  induction texts with
  | nil => exact (by decide : Unbroken "")
  | cons head tail induction =>
      rw [List.forall_mem_cons] at all
      cases tail with
      | nil =>
          rw [String.intercalate_singleton]
          exact all.1
      | cons next rest =>
          rw [String.intercalate_cons_cons, unbroken_append, unbroken_append]
          exact ⟨⟨all.1, unbroken⟩, induction all.2⟩

theorem mem_escapeWith {needsMark : Char → Bool} {mark character : Char} {body : List Char}
    (member : character ∈ Block.escapeWith needsMark mark body) :
    character = mark ∨ character ∈ body := by
  induction body with
  | nil => cases member
  | cons head tail induction =>
      rw [Block.escapeWith] at member
      split at member <;> simp only [List.mem_cons] at member ⊢ <;> tauto

/-- Escaping writes marks only. -/
theorem unbroken_escapeWith {needsMark : Char → Bool} {mark : Char}
    (isMark : Block.IsMark mark) {text : String} (unbroken : Unbroken text) :
    Unbroken (String.ofList (Block.escapeWith needsMark mark text.toList)) := by
  rw [Unbroken, String.toList_ofList]
  constructor
  · intro member
    rcases mem_escapeWith member with marked | inside
    · exact isMark.notFeed marked.symm
    · exact unbroken.1 inside
  · intro member
    rcases mem_escapeWith member with marked | inside
    · exact isMark.notReturn marked.symm
    · exact unbroken.2 inside

theorem unbroken_quote {text : String} (unbroken : Unbroken text) :
    Unbroken (Quoted.quote text) := by
  have isMark : Block.IsMark '\\' := ⟨by decide, by decide⟩
  rw [Quoted.quote, Quoted.escape, Block.escapeCharacters_eq, unbroken_append, unbroken_append]
  exact ⟨⟨by decide, unbroken_escapeWith isMark unbroken⟩, by decide⟩

theorem unbroken_escape (words : List String) {name : String} (unbroken : Unbroken name) :
    Unbroken (Identifier.escape words name) := by
  have isMark : Block.IsMark Identifier.backtick := ⟨by decide, by decide⟩
  rw [Identifier.escape]
  split
  · exact unbroken
  · have marks : Unbroken (String.ofList [Identifier.backtick]) := by decide
    have split : Identifier.quote name = String.ofList [Identifier.backtick] ++
        String.ofList (Block.escapeWith (· == Identifier.backtick) Identifier.backtick
          name.toList) ++ String.ofList [Identifier.backtick] := by
      rw [← String.ofList_append, ← String.ofList_append, ← Block.doubleBackticks_eq]
      rfl
    rw [split, unbroken_append, unbroken_append]
    exact ⟨⟨marks, unbroken_escapeWith isMark unbroken⟩, marks⟩

theorem unbroken_integer (number : Int) : Unbroken (Decimal.integer number) :=
  .of_forall (fun _ => Decimal.isInside_of_mem_integer) (by decide) (by decide)

theorem unbroken_double (number : Double) : Unbroken number.text :=
  .of_forall number.isNumeric_text.2 (by unfold Double.IsNumeric; decide)
    (by unfold Double.IsNumeric; decide)

namespace Value

mutual

theorem unbroken_literal (words : List String) : (value : Value) →
    (∀ text ∈ value.texts, Unbroken text) → Unbroken (value.literal words)
  | null, _ => by rw [literal]; decide
  | boolean true, _ => by rw [literal]; decide
  | boolean false, _ => by rw [literal]; decide
  | integer number, _ => by
      rw [literal]
      exact unbroken_integer number
  | double number, _ => by
      rw [literal]
      exact unbroken_double number
  | string text, unbroken => by
      rw [literal]
      exact unbroken_quote (unbroken text (by simp [texts]))
  | array elements, unbroken => by
      rw [literal, listText, unbroken_append, unbroken_append]
      rw [texts] at unbroken
      have all := unbroken_elementLiterals words elements unbroken
      exact ⟨⟨by decide, unbroken_intercalate (by decide) all⟩, by decide⟩
  | object members, unbroken => by
      rw [literal, mapText]
      rw [texts] at unbroken
      split
      · decide
      · rw [unbroken_append, unbroken_append]
        have all := unbroken_memberLiterals words members unbroken
        exact ⟨⟨by decide, unbroken_intercalate (by decide) all⟩, by decide⟩

theorem unbroken_elementLiterals (words : List String) : (elements : List Value) →
    (∀ text ∈ elementTexts elements, Unbroken text) →
      ∀ text ∈ elementLiterals words elements, Unbroken text
  | [], _ => by simp [elementLiterals]
  | head :: tail, unbroken => by
      rw [elementTexts, List.forall_mem_append] at unbroken
      rw [elementLiterals, List.forall_mem_cons]
      exact ⟨unbroken_literal words head unbroken.1,
        unbroken_elementLiterals words tail unbroken.2⟩

theorem unbroken_memberLiterals (words : List String) : (members : List (String × Value)) →
    (∀ text ∈ memberTexts members, Unbroken text) →
      ∀ text ∈ memberLiterals words members, Unbroken text
  | [], _ => by simp [memberLiterals]
  | (key, value) :: rest, unbroken => by
      rw [memberTexts, List.forall_mem_cons, List.forall_mem_append] at unbroken
      rw [memberLiterals, List.forall_mem_cons, unbroken_append, unbroken_append]
      exact ⟨⟨⟨unbroken_escape words unbroken.1, by decide⟩,
          unbroken_literal words value unbroken.2.1⟩,
        unbroken_memberLiterals words rest unbroken.2.2⟩

end

end Value

namespace Config

variable (config : Config)

theorem unbroken_label {name : String} (unbroken : Unbroken name) :
    Unbroken (config.label name) := by
  rw [label]
  split
  · exact unbroken
  · exact unbroken_escape _ unbroken

theorem unbroken_relationshipType {name : String} (unbroken : Unbroken name) :
    Unbroken (config.relationshipType name) := by
  rw [relationshipType]
  split
  · exact unbroken
  · exact unbroken_escape _ unbroken

theorem unbroken_labels {names : List String} (unbroken : ∀ name ∈ names, Unbroken name) :
    Unbroken (config.labels names) := by
  rw [labels]
  split
  · decide
  · have separator : Unbroken config.labelOperator.token := by
      cases config.labelOperator <;> decide
    rw [unbroken_append]
    exact ⟨by decide, unbroken_intercalate separator
      (List.forall_mem_map.mpr fun name member => config.unbroken_label (unbroken name member))⟩

theorem unbroken_relationshipTypes {names : List String}
    (unbroken : ∀ name ∈ names, Unbroken name) : Unbroken (config.relationshipTypes names) := by
  rw [relationshipTypes]
  split
  · decide
  · rw [unbroken_append]
    exact ⟨by decide, unbroken_intercalate (by decide) (List.forall_mem_map.mpr
      fun name member => config.unbroken_relationshipType (unbroken name member))⟩

end Config

/-! ## Names -/

/-- Names are on one line if they are explicit names on one line or no explicit names, and
no variable is called by blanks only. -/
structure Dictionary.IsPlain (names : Dictionary) : Prop where
  variableText : ∀ {binder}, (∀ text ∈ binder.texts, Unbroken text) →
    Unbroken (names.variableText binder)
  parameterText : ∀ {parameter}, (∀ text ∈ parameter.name.toList, Unbroken text) →
    Unbroken (names.parameterText parameter)
  visible : ∀ binder, IsVisible (names.variableText binder)

theorem notBlank_of_isSubsequent {character : Char} (inside : Identifier.isSubsequent character) :
    Blank.isBlank character = false := by
  have within : ∀ {least greatest : UInt32}, least ≤ character.val → character.val ≤ greatest →
      least.toNat ≤ character.toNat ∧ character.toNat ≤ greatest.toNat :=
    fun least greatest => ⟨UInt32.le_iff_toNat_le.mp least, UInt32.le_iff_toNat_le.mp greatest⟩
  have bounds : 48 ≤ character.toNat ∧ character.toNat ≤ 122 := by
    change (character.isUpper || character.isLower || character.isDigit || character == '_') =
      true at inside
    simp only [Bool.or_eq_true, beq_iff_eq] at inside
    rcases inside with ((upper | lower) | digit) | rfl
    · rcases of_decide_eq_true upper with ⟨least, greatest⟩
      exact (within least greatest).imp (le_trans (by decide)) (le_trans · (by decide))
    · rcases Bool.and_eq_true_iff.mp lower with ⟨least, greatest⟩
      exact (within (of_decide_eq_true least) (of_decide_eq_true greatest)).imp
        (le_trans (by decide)) (le_trans · (by decide))
    · exact (Char.isDigit_iff_toNat.mp digit).imp_right (le_trans · (by decide))
    · decide
  simp [Blank.isBlank, Blank.ranges]
  omega

theorem visible_escape (words : List String) (name : String) :
    IsVisible (Identifier.escape words name) := by
  rw [Identifier.escape]
  split
  · next bare =>
      have plain := isSubsequent_of_isPlain (Bool.and_eq_true_iff.mp bare).1
      rcases List.exists_mem_of_ne_nil _ plain.1 with ⟨character, member⟩
      exact ⟨character, member, notBlank_of_isSubsequent (plain.2 character member)⟩
  · exact ⟨Identifier.backtick, by simp [Identifier.quote], by decide⟩

theorem visible_generated (front : String) (number : Nat) :
    IsVisible (front ++ Decimal.natural number) := by
  rcases Decimal.exists_digit number with ⟨digit, rest, digits, isDigit⟩
  have inside : Identifier.isSubsequent digit := by
    simp [Identifier.isSubsequent, Char.isAlphanum, isDigit]
  exact ⟨digit, by simp [digits], notBlank_of_isSubsequent inside⟩

theorem VariableKind.unbroken_stem (kind : VariableKind) : Unbroken kind.stem := by
  cases kind <;> decide

namespace Environment.Reachable

variable {environment : Environment}

theorem visible (reachable : environment.Reachable) (binder : Variable) :
    IsVisible (environment.resolveVariable binder).1 := by
  cases explicit : binder.name with
  | some name =>
      rw [resolveVariable_of_named explicit]
      exact visible_escape _ name
  | none =>
      rcases reachable.variableText explicit with ⟨kind, number, equal⟩
      rw [equal, generatedVariableName]
      exact visible_generated _ number

theorem isPlain (reachable : environment.Reachable)
    (forVariables : Unbroken environment.config.namePrefixes.forVariables)
    (forParameters : Unbroken environment.config.namePrefixes.forParameters) :
    environment.dictionary.IsPlain where
  variableText {binder} unbroken := by
    cases explicit : binder.name with
    | some name =>
        simp only [dictionary, resolveVariable_of_named explicit]
        exact unbroken_escape _ (unbroken name (by simp [Variable.texts, explicit]))
    | none =>
        rcases reachable.variableText explicit with ⟨kind, number, equal⟩
        simp only [dictionary, equal, generatedVariableName, Block.unbroken_append]
        exact ⟨⟨forVariables, kind.unbroken_stem⟩, unbroken_natural number⟩
  parameterText {parameter} unbroken := by
    cases explicit : parameter.name with
    | some name =>
        simp only [dictionary, resolveParameter_of_named explicit]
        exact unbroken_escape _ (unbroken name (by simp [explicit]))
    | none =>
        rcases reachable.parameterText explicit with ⟨number, equal⟩
        simp only [dictionary, equal, generatedParameterName, Block.unbroken_append]
        exact ⟨⟨forParameters, by decide⟩, unbroken_natural number⟩
  visible := reachable.visible

end Environment.Reachable

/-! ## Fitting leaves -/

namespace Layout

variable {names : Dictionary} {depth : Nat}

theorem fits_identifier {name : String} (unbroken : Unbroken name) :
    Fits names depth (leaf (.identifier name)) (names.config.identifier name) :=
  fits_of_unbroken (unbroken_escape _ unbroken)

theorem fits_label {name : String} (unbroken : Unbroken name) :
    Fits names depth (leaf (.label name)) (names.config.label name) :=
  fits_of_unbroken (names.config.unbroken_label unbroken)

theorem fits_literal {value : Value} (unbroken : ∀ text ∈ value.texts, Unbroken text) :
    Fits names depth (leaf (.literal value)) (value.literal names.config.extraReservedWords) :=
  fits_of_unbroken (value.unbroken_literal _ unbroken)

section Words

variable {words : List String} (unbroken : ∀ text ∈ words, Unbroken text)

include unbroken

theorem fits_labels : Fits names depth (leaf (.labels words)) (names.config.labels words) :=
  fits_of_unbroken (names.config.unbroken_labels unbroken)

theorem fits_names (test : NameTest) :
    Fits names depth (Layout.names test words) (Placement.tested names test words) := by
  cases test with
  | labels => exact fits_labels unbroken
  | types => exact fits_of_unbroken (names.config.unbroken_relationshipTypes unbroken)

end Words

variable (plain : names.IsPlain)

include plain

theorem fits_mention {binder : Variable} (unbroken : ∀ text ∈ binder.texts, Unbroken text) :
    Fits names depth (mention binder) (names.variableText binder) :=
  fits_of_unbroken (plain.variableText unbroken)

theorem lines_mention {binder : Variable} (unbroken : ∀ text ∈ binder.texts, Unbroken text) :
    FitsLines names depth (mention binder) (names.variableText binder) :=
  (fits_mention plain unbroken).lines (plain.visible binder).ne_empty

theorem fits_placeholder {parameter : Parameter}
    (unbroken : ∀ text ∈ parameter.name.toList, Unbroken text) :
    Fits names depth (placeholder parameter)
      (if parameter.isNull then "NULL" else "$" ++ names.parameterText parameter) := by
  apply fits_of_unbroken
  rw [written]
  split
  · decide
  · exact (unbroken_append _ _).mpr ⟨by decide, plain.parameterText unbroken⟩

theorem unbroken_binder {binder? : Option Variable}
    (unbroken : ∀ text ∈ binder?.toList.flatMap Variable.texts, Unbroken text) :
    Unbroken (Placement.binder names binder?) := by
  cases binder? with
  | none => exact (by decide : Unbroken "")
  | some binder => exact plain.variableText (by simpa using unbroken)

theorem fits_binder {binder? : Option Variable}
    (unbroken : ∀ text ∈ binder?.toList.flatMap Variable.texts, Unbroken text) :
    Fits names depth (binder binder?) (Placement.binder names binder?) := by
  have written := unbroken_binder plain unbroken
  rw [← written_binder] at written ⊢
  exact fits_of_unbroken written

theorem fits_yields {columns : List Yield}
    (unbroken : ∀ text ∈ columns.flatMap Yield.texts, Unbroken text) :
    Fits names depth (yields columns) (Placement.yields names columns) := by
  have each : ∀ column ∈ columns,
      Fits names depth (yield column) (Placement.column names column) := by
    rintro ⟨column, newName⟩ member
    have texts : ∀ text ∈ Yield.texts ⟨column, newName⟩, Unbroken text :=
      fun text inside => unbroken text (List.mem_flatMap_of_mem member inside)
    rw [Yield.texts, List.forall_mem_cons] at texts
    have columnFits : Fits names depth (leaf (.identifier column)) _ :=
      fits_identifier texts.1
    cases newName with
    | none =>
        change Fits names depth (leaf (.identifier column))
          (names.config.identifier column ++ "")
        rwa [String.append_empty]
    | some newName =>
        have keyword : Unbroken " AS " := by decide
        have nameFits : Fits names depth (mention newName) _ :=
          fits_mention plain (by simpa using texts.2)
        rw [Placement.column, Option.map_some, Placement.led, ← String.append_assoc]
        exact (columnFits.append (fits_text keyword)).append nameFits
  cases columns with
  | nil => exact fits_empty
  | cons head tail =>
      have lead : Unbroken " YIELD " := by decide
      have together := List.forall₂_map_left_iff.mpr
        (List.forall₂_map_right_iff.mpr (List.forall₂_same.mpr each))
      exact (fits_text lead).append (fits_joined (by decide) together)

end Layout

end Cypher
