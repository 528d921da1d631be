import Cypher.Config.Encoding
import Mathlib.Data.Option.Basic

/-! Configurations and the members they are read from. An object stands for a configuration if each
of its known members is written as the content that it stands for. Missing members stand for their
defaults, one by one, and unknown members for nothing. What cannot be read has a known member
whose value is of another shape. -/

namespace Cypher

open Value (readMember)

/-! ## Shapes of members -/

/-- What values a member may have. -/
inductive Shape where
  | truth
  | text
  | optionalText
  | texts
  | members
  | operator

/-- Nothing but a text that is optional may be `null`. The token of an operator may also be the only
key of an object. -/
def Shape.Accepts : Shape → Value → Prop
  | truth, value => ∃ content, value = .boolean content
  | text, value => ∃ content, value = .string content
  | optionalText, value => value = .null ∨ ∃ content, value = .string content
  | texts, value => ∃ contents : List String, value = .array (contents.map .string)
  | members, value => ∃ contents, value = .object contents
  | operator, value =>
      ∃ token, (token = ":" ∨ token = "&") ∧
        (value = .string token ∨ value = .object [(token, .null)])

namespace Fields

/-- Some member has a value of another shape. A missing member always fits. -/
def HasMisfit (shapes : List (String × Shape)) (members : Fields Value) : Prop :=
  ∃ entry ∈ shapes, ∃ value, members.find? entry.1 = some value ∧ ¬ entry.2.Accepts value

/-- The members that are called `names` are the same. -/
def AgreeOn (names : List String) (left right : Fields Value) : Prop :=
  ∀ name ∈ names, left.find? name = right.find? name

theorem agreeOn_insert {names : List String} {key : String} (unknown : key ∉ names)
    (value : Value) (members : Fields Value) : AgreeOn names (members.insert key value) members :=
  fun _ known => find?_insert_of_ne members value (ne_of_mem_of_not_mem known unknown)

end Fields

/-! ## Reading one member -/

namespace Value

/-- The value gives members by name, or those called `names` in order. -/
def Gives (names : List String) (value : Value) (members : Fields Value) : Prop :=
  value = .object members ∨ ∃ elements, value = .array elements ∧
    elements.length ≤ names.length ∧ members = Fields.ofList (names.zip elements)

theorem record?_eq_some_iff {names : List String} {value : Value} {members : Fields Value} :
    value.record? names = some members ↔ value.Gives names members := by
  cases value <;> simp [record?, Gives, eq_comm]

/-- The value gives no members, or one of them has a value of another shape. -/
def IsMisfit (shapes : List (String × Shape)) (value : Value) : Prop :=
  ∀ members, value.Gives (shapes.map Prod.fst) members → members.HasMisfit shapes

/-- The member called `key` stands for `content`. A missing member stands for its default. -/
def Stands (written : Value → α → Prop) (default : α) (members : Fields Value) (key : String)
    (content : α) : Prop :=
  match members.find? key with
  | none => content = default
  | some value => written value content

section Reading

variable {read : Value → Option α} {written : Value → α → Prop} {Refused : Value → Prop}
  {default content : α} {members : Fields Value} {key : String} {shape : Shape}

theorem readMember_eq_some_iff
    (reads : ∀ value content, read value = some content ↔ written value content) :
    readMember read default members key = some content ↔
      Stands written default members key content := by
  rw [readMember, Stands]
  cases members.find? key with
  | none => exact Option.some_inj.trans eq_comm
  | some value => exact reads value content

theorem readMember_eq_none_iff (refuses : ∀ value, read value = none ↔ Refused value) :
    readMember read default members key = none ↔
      ∃ value, members.find? key = some value ∧ Refused value := by
  rw [readMember]
  cases members.find? key with
  | none => simp
  | some value => simpa using refuses value

/-- Two members of one shape are read one by one. -/
theorem readMembers_eq_some_iff {first second : String} {make : α → α → β} {left right : α}
    (reads : ∀ value content, read value = some content ↔ written value content)
    (apart : ∀ {other another}, make other another = make left right →
      other = left ∧ another = right) :
    (do let other ← readMember read default members first
        let another ← readMember read default members second
        some (make other another)) = some (make left right) ↔
      Stands written default members first left ∧ Stands written default members second right := by
  rw [← readMember_eq_some_iff reads, ← readMember_eq_some_iff reads]
  simp only [Option.bind_eq_bind, Option.bind_eq_some_iff, Option.some.injEq]
  constructor
  · rintro ⟨other, readFirst, another, readSecond, same⟩
    rcases apart same with ⟨rfl, rfl⟩
    exact ⟨readFirst, readSecond⟩
  · rintro ⟨readFirst, readSecond⟩
    exact ⟨left, readFirst, right, readSecond, rfl⟩

theorem readMembers_eq_none_iff {first second : String} {make : α → α → β}
    (refuses : ∀ value, read value = none ↔ ¬ shape.Accepts value) :
    (do let other ← readMember read default members first
        let another ← readMember read default members second
        some (make other another)) = none ↔
      members.HasMisfit [(first, shape), (second, shape)] := by
  have readings : (do
        let other ← readMember read default members first
        let another ← readMember read default members second
        some (make other another)) = none ↔
      readMember read default members first = none ∨
        readMember read default members second = none := by
    cases readMember read default members first <;>
      cases readMember read default members second <;> simp
  rw [readings, readMember_eq_none_iff refuses, readMember_eq_none_iff refuses]
  simp [Fields.HasMisfit]

theorem readMember_congr {left right : Fields Value} (same : left.find? key = right.find? key) :
    readMember read default left key = readMember read default right key := by
  rw [readMember, readMember, same]

end Reading

variable {value : Value}

theorem truth?_eq_some_iff {content : Bool} :
    value.truth? = some content ↔ value = .boolean content := by
  cases value <;> simp [truth?]

theorem truth?_eq_none_iff : value.truth? = none ↔ ¬ Shape.truth.Accepts value := by
  cases value <;> simp [truth?, Shape.Accepts]

theorem text?_eq_some_iff {content : String} :
    value.text? = some content ↔ value = .string content := by
  cases value <;> simp [text?]

theorem text?_eq_none_iff : value.text? = none ↔ ¬ Shape.text.Accepts value := by
  cases value <;> simp [text?, Shape.Accepts]

theorem optionalText?_eq_some_iff {content : Option String} :
    value.optionalText? = some content ↔ value = Config.versionValue content := by
  cases value <;> cases content <;> simp [optionalText?, Config.versionValue]

theorem optionalText?_eq_none_iff :
    value.optionalText? = none ↔ ¬ Shape.optionalText.Accepts value := by
  cases value <;> simp [optionalText?, Shape.Accepts]

theorem members?_eq_some_iff {content : Fields Value} :
    value.members? = some content ↔ value = .object content := by
  cases value <;> simp [members?]

theorem members?_eq_none_iff : value.members? = none ↔ ¬ Shape.members.Accepts value := by
  cases value <;> simp [members?, Shape.Accepts]

theorem mapM_text?_eq_some_iff {elements : List Value} {content : List String} :
    elements.mapM text? = some content ↔ elements = content.map .string := by
  induction elements generalizing content with
  | nil => cases content <;> simp
  | cons head tail induction =>
      cases content <;> simp [Option.bind_eq_some_iff, text?_eq_some_iff, induction]

theorem texts?_eq_some_iff {content : List String} :
    value.texts? = some content ↔ value = .array (content.map .string) := by
  cases value <;> simp [texts?, mapM_text?_eq_some_iff]

theorem texts?_eq_none_iff : value.texts? = none ↔ ¬ Shape.texts.Accepts value := by
  rw [Shape.Accepts, Option.eq_none_iff_forall_ne_some, not_exists]
  exact forall_congr' fun content => not_congr texts?_eq_some_iff

end Value

namespace LabelOperator

theorem ofToken?_eq_some_iff {token : String} {content : LabelOperator} :
    ofToken? token = some content ↔ token = content.token := by
  constructor
  · intro read
    rw [ofToken?] at read
    split at read
    · next colon =>
        cases read
        exact colon
    · split at read
      · next ampersand =>
          cases read
          exact ampersand
      · cases read
  · rintro rfl
    exact ofToken?_token content

/-- The value stands for the operator. -/
def Written (value : Value) (content : LabelOperator) : Prop :=
  value = content.toValue ∨ value = .object [(content.token, .null)]

variable {value : Value}

theorem ofValue?_eq_some_iff {content : LabelOperator} :
    ofValue? value = some content ↔ Written value content := by
  unfold ofValue? Written toValue
  split
  · simp [ofToken?_eq_some_iff]
  · simp [ofToken?_eq_some_iff]
  · next noToken noObject =>
      simp only [reduceCtorEq, false_iff, not_or]
      exact ⟨noToken _, noObject _⟩

theorem ofValue?_eq_none_iff : ofValue? value = none ↔ ¬ Shape.operator.Accepts value := by
  rw [Option.eq_none_iff_forall_ne_some, Shape.Accepts]
  simp only [ne_eq, ofValue?_eq_some_iff]
  constructor
  · rintro other ⟨token, rfl | rfl, written⟩
    · exact other colon written
    · exact other ampersand written
  · rintro misfit (_ | _) written
    · exact misfit ⟨":", .inl rfl, written⟩
    · exact misfit ⟨"&", .inr rfl, written⟩

end LabelOperator

open Value (Stands)

/-! ## Records -/

namespace NamePrefixes

/-- What the members may be. -/
def shapes : List (String × Shape) :=
  [("variables", .text), ("params", .text)]

/-- The value stands for the prefixes. -/
def Written (value : Value) (content : NamePrefixes) : Prop :=
  ∃ members, value.Gives memberNames members ∧
    Stands (· = .string ·) "" members "variables" content.forVariables ∧
    Stands (· = .string ·) "" members "params" content.forParameters

variable {members : Fields Value}

theorem ofMembers?_eq_some_iff {content : NamePrefixes} :
    ofMembers? members = some content ↔
      Stands (· = .string ·) "" members "variables" content.forVariables ∧
        Stands (· = .string ·) "" members "params" content.forParameters :=
  Value.readMembers_eq_some_iff (fun _ _ => Value.text?_eq_some_iff) NamePrefixes.mk.inj

theorem ofMembers?_eq_none_iff : ofMembers? members = none ↔ members.HasMisfit shapes :=
  Value.readMembers_eq_none_iff fun _ => Value.text?_eq_none_iff

theorem ofMembers?_congr {left right : Fields Value}
    (same : left.AgreeOn (shapes.map Prod.fst) right) : ofMembers? left = ofMembers? right := by
  rw [ofMembers?, ofMembers?, Value.readMember_congr (same "variables" (by decide)),
    Value.readMember_congr (same "params" (by decide))]

theorem ofValue?_eq_some_iff {value : Value} {content : NamePrefixes} :
    ofValue? value = some content ↔ Written value content := by
  simp only [ofValue?, Option.bind_eq_some_iff, Value.record?_eq_some_iff, ofMembers?_eq_some_iff,
    Written]

theorem ofValue?_eq_none_iff {value : Value} :
    ofValue? value = none ↔ value.IsMisfit shapes := by
  simp only [ofValue?, Option.bind_eq_none_iff, Value.record?_eq_some_iff, ofMembers?_eq_none_iff]
  rfl

theorem written_toValue (content : NamePrefixes) : Written content.toValue content :=
  ⟨_, .inl rfl, by simp [Stands, Fields.find?], by simp [Stands, Fields.find?]⟩

end NamePrefixes

namespace Verbatim

/-- What the members may be. -/
def shapes : List (String × Shape) :=
  [("disable_node_label_escaping", .truth), ("disable_relationship_type_escaping", .truth)]

/-- The value stands for what is verbatim. -/
def Written (value : Value) (content : Verbatim) : Prop :=
  ∃ members, value.Gives memberNames members ∧
    Stands (· = .boolean ·) false members "disable_node_label_escaping" content.nodeLabels ∧
    Stands (· = .boolean ·) false members "disable_relationship_type_escaping"
      content.relationshipTypes

variable {members : Fields Value}

theorem ofMembers?_eq_some_iff {content : Verbatim} :
    ofMembers? members = some content ↔
      Stands (· = .boolean ·) false members "disable_node_label_escaping" content.nodeLabels ∧
        Stands (· = .boolean ·) false members "disable_relationship_type_escaping"
          content.relationshipTypes :=
  Value.readMembers_eq_some_iff (fun _ _ => Value.truth?_eq_some_iff) Verbatim.mk.inj

theorem ofMembers?_eq_none_iff : ofMembers? members = none ↔ members.HasMisfit shapes :=
  Value.readMembers_eq_none_iff fun _ => Value.truth?_eq_none_iff

theorem ofMembers?_congr {left right : Fields Value}
    (same : left.AgreeOn (shapes.map Prod.fst) right) : ofMembers? left = ofMembers? right := by
  rw [ofMembers?, ofMembers?,
    Value.readMember_congr (same "disable_node_label_escaping" (by decide)),
    Value.readMember_congr (same "disable_relationship_type_escaping" (by decide))]

theorem ofValue?_eq_some_iff {value : Value} {content : Verbatim} :
    ofValue? value = some content ↔ Written value content := by
  simp only [ofValue?, Option.bind_eq_some_iff, Value.record?_eq_some_iff, ofMembers?_eq_some_iff,
    Written]

theorem ofValue?_eq_none_iff {value : Value} :
    ofValue? value = none ↔ value.IsMisfit shapes := by
  simp only [ofValue?, Option.bind_eq_none_iff, Value.record?_eq_some_iff, ofMembers?_eq_none_iff]
  rfl

theorem written_toValue (content : Verbatim) : Written content.toValue content :=
  ⟨_, .inl rfl, by simp [Stands, Fields.find?], by simp [Stands, Fields.find?]⟩

end Verbatim

/-! ## Configurations -/

namespace Config

/-- What the members may be that are no records. -/
def shapes : List (String × Shape) :=
  [("cypher_version", .optionalText), ("extra_params", .members), ("label_operator", .operator),
    ("extra_reserved_words", .texts)]

/-- The members that are records, and what their members may be. -/
def records : List (String × List (String × Shape)) :=
  [("prefix", NamePrefixes.shapes), ("unsafe_escape", Verbatim.shapes)]

/-- The members stand for the configuration, each of them for one part of it. -/
structure Written (members : Fields Value) (content : Config) : Prop where
  version : Stands (· = versionValue ·) none members "cypher_version" content.version
  namePrefixes : Stands NamePrefixes.Written {} members "prefix" content.namePrefixes
  extraParameters : Stands (· = .object ·) [] members "extra_params" content.extraParameters
  labelOperator :
    Stands LabelOperator.Written .colon members "label_operator" content.labelOperator
  verbatim : Stands Verbatim.Written {} members "unsafe_escape" content.verbatim
  extraReservedWords : Stands (fun value words => value = .array (words.map .string)) [] members
    "extra_reserved_words" content.extraReservedWords

/-- A known member has a value of another shape, at the top or in a record. -/
def HasMisfit (members : Fields Value) : Prop :=
  members.HasMisfit shapes ∨
    ∃ record ∈ records, ∃ value, members.find? record.1 = some value ∧ value.IsMisfit record.2

/-- Only unknown members differ, at the top or in records. -/
structure SameKnown (left right : Fields Value) : Prop where
  members : left.AgreeOn (shapes.map Prod.fst) right
  records : ∀ record ∈ records, left.find? record.1 = right.find? record.1 ∨
    ∃ first second, left.find? record.1 = some (.object first) ∧
      right.find? record.1 = some (.object second) ∧
      Fields.AgreeOn (record.2.map Prod.fst) first second

variable {members : Fields Value}

theorem ofMembers?_eq_some_iff {content : Config} :
    ofMembers? members = some content ↔
      readMember Value.optionalText? none members "cypher_version" = some content.version ∧
      readMember NamePrefixes.ofValue? {} members "prefix" = some content.namePrefixes ∧
      readMember Value.members? [] members "extra_params" = some content.extraParameters ∧
      readMember LabelOperator.ofValue? .colon members "label_operator" =
        some content.labelOperator ∧
      readMember Verbatim.ofValue? {} members "unsafe_escape" = some content.verbatim ∧
      readMember Value.texts? [] members "extra_reserved_words" =
        some content.extraReservedWords := by
  constructor
  · intro read
    simp only [ofMembers?, Option.bind_eq_bind, Option.bind_eq_some_iff] at read
    rcases read with ⟨version, readVersion, namePrefixes, readPrefixes, extraParameters,
      readParameters, labelOperator, readOperator, verbatim, readVerbatim, extraReservedWords,
      readWords, put⟩
    cases put
    exact ⟨readVersion, readPrefixes, readParameters, readOperator, readVerbatim, readWords⟩
  · rintro ⟨version, namePrefixes, extraParameters, labelOperator, verbatim, words⟩
    simp [ofMembers?, version, namePrefixes, extraParameters, labelOperator, verbatim, words]

theorem ofMembers?_eq_none_iff :
    ofMembers? members = none ↔
      readMember Value.optionalText? none members "cypher_version" = none ∨
      readMember NamePrefixes.ofValue? {} members "prefix" = none ∨
      readMember Value.members? [] members "extra_params" = none ∨
      readMember LabelOperator.ofValue? .colon members "label_operator" = none ∨
      readMember Verbatim.ofValue? {} members "unsafe_escape" = none ∨
      readMember Value.texts? [] members "extra_reserved_words" = none := by
  rw [← not_iff_not]
  simp only [not_or, ← ne_eq, Option.ne_none_iff_exists', ofMembers?_eq_some_iff]
  constructor
  · rintro ⟨content, version, namePrefixes, parameters, operator, verbatim, words⟩
    exact ⟨⟨_, version⟩, ⟨_, namePrefixes⟩, ⟨_, parameters⟩, ⟨_, operator⟩, ⟨_, verbatim⟩,
      ⟨_, words⟩⟩
  · rintro ⟨⟨_, version⟩, ⟨_, namePrefixes⟩, ⟨_, parameters⟩, ⟨_, operator⟩, ⟨_, verbatim⟩,
      ⟨_, words⟩⟩
    exact ⟨⟨_, _, _, _, _, _⟩, version, namePrefixes, parameters, operator, verbatim, words⟩

/-- What is read is what the members stand for. -/
theorem ofMembers?_eq_some_iff_written {content : Config} :
    ofMembers? members = some content ↔ Written members content := by
  rw [ofMembers?_eq_some_iff,
    Value.readMember_eq_some_iff fun _ _ => Value.optionalText?_eq_some_iff,
    Value.readMember_eq_some_iff fun _ _ => NamePrefixes.ofValue?_eq_some_iff,
    Value.readMember_eq_some_iff fun _ _ => Value.members?_eq_some_iff,
    Value.readMember_eq_some_iff fun _ _ => LabelOperator.ofValue?_eq_some_iff,
    Value.readMember_eq_some_iff fun _ _ => Verbatim.ofValue?_eq_some_iff,
    Value.readMember_eq_some_iff fun _ _ => Value.texts?_eq_some_iff]
  constructor
  · rintro ⟨version, namePrefixes, extraParameters, labelOperator, verbatim, words⟩
    exact ⟨version, namePrefixes, extraParameters, labelOperator, verbatim, words⟩
  · rintro ⟨version, namePrefixes, extraParameters, labelOperator, verbatim, words⟩
    exact ⟨version, namePrefixes, extraParameters, labelOperator, verbatim, words⟩

/-- Nothing is read exactly if a known member is of another shape. -/
theorem ofMembers?_eq_none_iff_misfit : ofMembers? members = none ↔ HasMisfit members := by
  rw [ofMembers?_eq_none_iff,
    Value.readMember_eq_none_iff fun _ => Value.optionalText?_eq_none_iff,
    Value.readMember_eq_none_iff fun _ => NamePrefixes.ofValue?_eq_none_iff,
    Value.readMember_eq_none_iff fun _ => Value.members?_eq_none_iff,
    Value.readMember_eq_none_iff fun _ => LabelOperator.ofValue?_eq_none_iff,
    Value.readMember_eq_none_iff fun _ => Verbatim.ofValue?_eq_none_iff,
    Value.readMember_eq_none_iff fun _ => Value.texts?_eq_none_iff]
  simp only [HasMisfit, Fields.HasMisfit, shapes, records, List.mem_cons, List.not_mem_nil,
    or_false, exists_eq_or_imp, exists_eq_left]
  exact iff_of_eq (by ac_rfl)

/-- Unknown members do not count. -/
theorem ofMembers?_congr {left right : Fields Value} (same : SameKnown left right) :
    ofMembers? left = ofMembers? right := by
  have namePrefixes : readMember NamePrefixes.ofValue? {} left "prefix" =
      readMember NamePrefixes.ofValue? {} right "prefix" := by
    rcases same.records ("prefix", NamePrefixes.shapes) (by simp [records]) with
      equal | ⟨first, second, leftFound, rightFound, agree⟩
    · exact Value.readMember_congr equal
    · rw [readMember, readMember, leftFound, rightFound]
      exact NamePrefixes.ofMembers?_congr agree
  have verbatim : readMember Verbatim.ofValue? {} left "unsafe_escape" =
      readMember Verbatim.ofValue? {} right "unsafe_escape" := by
    rcases same.records ("unsafe_escape", Verbatim.shapes) (by simp [records]) with
      equal | ⟨first, second, leftFound, rightFound, agree⟩
    · exact Value.readMember_congr equal
    · rw [readMember, readMember, leftFound, rightFound]
      exact Verbatim.ofMembers?_congr agree
  rw [ofMembers?, ofMembers?, namePrefixes, verbatim,
    Value.readMember_congr (same.members "cypher_version" (by decide)),
    Value.readMember_congr (same.members "extra_params" (by decide)),
    Value.readMember_congr (same.members "label_operator" (by decide)),
    Value.readMember_congr (same.members "extra_reserved_words" (by decide))]

/-- A configuration is read back from what is written for it. -/
theorem ofValue?_toValue (config : Config) : ofValue? config.toValue = some config := by
  refine ofMembers?_eq_some_iff_written.mpr ?_
  constructor <;>
    simp [Stands, Fields.find?, NamePrefixes.written_toValue, LabelOperator.Written,
      Verbatim.written_toValue]

/-- A configuration that is written is read back. Whatever object it is read from, each known
member stands for its part, and a missing one for the default of that part; unknown members do not
count, and nothing is read exactly if a known member is of another shape. -/
theorem read_from_members :
    (∀ config, ofValue? config.toValue = some config) ∧
    (∀ value config, ofValue? value = some config →
      ofValue? config.toValue = ofValue? value) ∧
    (∀ left right, SameKnown left right →
      ofValue? (.object left) = ofValue? (.object right)) ∧
    ∀ members,
      (∀ config, ofValue? (.object members) = some config ↔ Written members config) ∧
      (ofValue? (.object members) = none ↔ HasMisfit members) := by
  refine ⟨ofValue?_toValue, fun value config read => ?_, fun left right same => ?_,
    fun members => ⟨fun config => ?_, ?_⟩⟩
  · rw [read]
    exact ofValue?_toValue config
  · exact ofMembers?_congr same
  · exact ofMembers?_eq_some_iff_written
  · exact ofMembers?_eq_none_iff_misfit

/-- Defaults and unknown members, both at the top and in a record, and a part of a record that is
`null`. -/
theorem read_from_members_partial :
    let prefixes : Fields Value := [("params", .string "p_")]
    let members : Fields Value := [("label_operator", .string "&"), ("prefix", .object prefixes)]
    let extended : Fields Value :=
      [("label_operator", .string "&"), ("prefix", .object (prefixes.insert "names" .null))]
    let more : Fields Value := extended.insert "comment" .null
    let wrong : Fields Value := [("cypher_version", .null), ("prefix", .object [("params", .null)])]
    let config : Config :=
      { labelOperator := .ampersand, namePrefixes := { forParameters := "p_" } }
    ofValue? config.toValue = some config ∧ Written members config ∧
      ofValue? (.object members) = some config ∧ SameKnown more members ∧
      ofValue? (.object more) = some config ∧
      HasMisfit wrong ∧ ofValue? (.object wrong) = none := by
  intro prefixes members extended more wrong config
  rcases read_from_members with ⟨written, -, unknown, readings⟩
  have described : Written members config := by
    constructor <;>
      simp [Stands, Fields.find?, members, config, NamePrefixes.Written, Value.Gives, prefixes,
        LabelOperator.Written, LabelOperator.toValue, LabelOperator.token]
  have inner : Fields.AgreeOn (NamePrefixes.shapes.map Prod.fst)
      (prefixes.insert "names" .null) prefixes :=
    Fields.agreeOn_insert (by decide) .null prefixes
  have same : SameKnown more members := by
    constructor
    · intro key known
      refine (Fields.agreeOn_insert (by decide) .null extended key known).trans ?_
      revert key
      simp [shapes, extended, members, Fields.find?]
    · intro record known
      rcases List.mem_cons.mp known with rfl | last
      · have unmoved : more.find? "prefix" = extended.find? "prefix" :=
          Fields.find?_insert_of_ne extended .null (by decide)
        exact .inr ⟨_, _, unmoved.trans rfl, rfl, inner⟩
      · rcases List.mem_singleton.mp last with rfl
        exact .inl (Fields.find?_insert_of_ne extended .null (by decide))
  have misfit : HasMisfit wrong := by
    refine .inr ⟨("prefix", NamePrefixes.shapes), List.mem_cons_self, _, rfl, ?_⟩
    rintro found (given | ⟨elements, isArray, -⟩)
    · cases given
      exact ⟨("params", .text), List.mem_cons_of_mem _ List.mem_cons_self, .null, rfl,
        by simp [Shape.Accepts]⟩
    · cases isArray
  have read := ((readings members).1 config).mpr described
  exact ⟨written config, described, read, same, (unknown more members same).trans read, misfit,
    (readings wrong).2.mpr misfit⟩

end Config

end Cypher
