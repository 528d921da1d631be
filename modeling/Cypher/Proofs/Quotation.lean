import Mathlib.Data.List.Infix
import Cypher.Proofs.Carrying

/-! What becomes of strings and quoted names in a finished query. Each of them is
found in the text, shifted once for every block around it. A shift changes it
exactly if it has a line feed. -/

namespace Cypher

/-- `part` is found in `whole`, character for character. -/
abbrev Occurs (part whole : String) : Prop :=
  part.toList <:+: whole.toList

namespace Occurs

variable {part whole : String}

theorem appendRight (occurs : Occurs part whole) (after : String) :
    Occurs part (whole ++ after) := by
  rw [Occurs, String.toList_append]
  exact List.infix_append_of_infix_left occurs

theorem appendLeft (occurs : Occurs part whole) (before : String) :
    Occurs part (before ++ whole) := by
  rw [Occurs, String.toList_append]
  exact List.infix_append_of_infix_right occurs

theorem intercalate {texts : List String} (occurs : Occurs part whole)
    (listed : whole ∈ texts) (separator : String) :
    Occurs part (separator.intercalate texts) := by
  induction texts with
  | nil => cases listed
  | cons head tail induction =>
      cases tail with
      | nil =>
          rcases List.mem_singleton.mp listed with rfl
          rwa [String.intercalate_singleton]
      | cons next rest =>
          rw [String.intercalate_cons_cons]
          rcases List.mem_cons.mp listed with rfl | listed
          · exact (occurs.appendRight _).appendRight _
          · exact (induction listed).appendLeft _

end Occurs

/-! ## Tokens -/

/-- Text between two marks: a string, or the name of something. -/
inductive Token where
  | string (content : String)
  | name (content : String)
deriving DecidableEq

namespace Token

def content : Token → String
  | string content => content
  | name content => content

def text : Token → String
  | string content => Quoted.quote content
  | name content => Identifier.quote content

/-- The token with its content shifted by some levels. -/
def shifted (levels : Nat) : Token → Token
  | string content => string (String.ofList ((Block.shiftInside false)^[levels] content.toList))
  | name content => name (String.ofList ((Block.shiftInside false)^[levels] content.toList))

/-- A name is a token only if it has to be quoted. -/
def ofName (extraWords : List String) (name : String) : List Token :=
  if Identifier.isPlain name && !Identifier.isReserved extraWords name then []
  else [.name name]

theorem shifted_eq_self_iff (token : Token) (levels : Nat) :
    token.shifted levels = token ↔ levels = 0 ∨ '\n' ∉ token.content.toList := by
  rw [← Block.shiftInside_iterate_eq_self_iff]
  cases token <;> simp only [shifted, content, string.injEq, name.injEq] <;>
    rw [← String.toList_inj, String.toList_ofList]

/-! ## Tokens on their way -/

def mark : Token → Char
  | string _ => '"'
  | name _ => Identifier.backtick

/-- The characters between the marks. -/
def body : Token → List Char
  | string content => Quoted.escapeCharacters content.toList
  | name content => Identifier.doubleBackticks content.toList

theorem text_eq_marked (token : Token) : token.text = Block.marked token.mark token.body := by
  cases token with
  | string content =>
      rw [← String.toList_inj]
      simp [text, mark, body, Quoted.quote, Quoted.escape, Block.marked]
  | name content => rfl

theorem isBlank_mark (token : Token) : Blank.isBlank token.mark = false := by
  cases token <;> rfl

theorem mark_shifted (token : Token) (levels : Nat) :
    (token.shifted levels).mark = token.mark := by
  cases token <;> rfl

theorem body_shifted (token : Token) (levels : Nat) :
    (token.shifted levels).body = (Block.shiftInside false)^[levels] token.body := by
  cases token with
  | string content =>
      rw [shifted, body, String.toList_ofList, body]
      exact Block.semiconj_escapeCharacters.iterate_right levels content.toList
  | name content =>
      rw [shifted, body, String.toList_ofList, body]
      exact Block.semiconj_doubleBackticks.iterate_right levels content.toList

/-- Wherever a text gets, its tokens get with it. -/
theorem occurs_of_arrives {token : Token} {part whole : String} {levels : Nat}
    (occurs : Occurs token.text part)
    (arrives : Arrives levels (fun _ : Unit => part) fun _ => whole) :
    Occurs (token.shifted levels).text whole := by
  rcases arrives with ⟨change, carries, equal⟩
  rcases equal () with rfl
  rcases occurs with ⟨before, after, equal⟩
  rcases carries token.mark token.isBlank_mark
    (String.ofList before) (String.ofList after) with ⟨front, back, changed⟩
  have surrounded : part =
      String.ofList before ++ Block.marked token.mark token.body ++ String.ofList after := by
    rw [← text_eq_marked, ← String.toList_inj, ← equal]
    simp
  rw [surrounded, changed, ← body_shifted, ← mark_shifted token levels, ← text_eq_marked]
  refine ⟨front.toList, back.toList, ?_⟩
  rw [String.toList_append, String.toList_append]

end Token

/-! ## The tokens of an item -/

namespace Value

mutual

/-- The strings and the quoted keys in the literal text of a value. -/
def tokens (extraWords : List String) : Value → List Token
  | string content => [.string content]
  | array elements => elementTokens extraWords elements
  | object members => memberTokens extraWords members
  | _ => []

def elementTokens (extraWords : List String) : List Value → List Token
  | [] => []
  | head :: tail => head.tokens extraWords ++ elementTokens extraWords tail

def memberTokens (extraWords : List String) : List (String × Value) → List Token
  | [] => []
  | (key, value) :: rest =>
      Token.ofName extraWords key ++ value.tokens extraWords ++ memberTokens extraWords rest

end

end Value

theorem Token.occurs_of_mem_ofName {extraWords : List String} {name : String} {token : Token}
    (listed : token ∈ ofName extraWords name) :
    Occurs token.text (Identifier.escape extraWords name) := by
  unfold ofName at listed
  unfold Identifier.escape
  split at listed
  · cases listed
  · next quoted =>
      rcases List.mem_singleton.mp listed with rfl
      rw [if_neg quoted]
      exact List.infix_rfl

namespace Value

theorem occurs_listText {part whole : String} {elements : List String}
    (occurs : Occurs part whole) (listed : whole ∈ elements) :
    Occurs part (listText elements) :=
  ((occurs.intercalate listed ", ").appendLeft "[").appendRight "]"

theorem occurs_mapText {part whole : String} {entries : List String}
    (occurs : Occurs part whole) (listed : whole ∈ entries) :
    Occurs part (mapText entries) := by
  cases entries with
  | nil => cases listed
  | cons head tail =>
      exact ((occurs.intercalate listed ", ").appendLeft "\x7b ").appendRight " \x7d"

variable {extraWords : List String} {token : Token}

mutual

theorem occurs_of_mem_tokens : ∀ value : Value, token ∈ value.tokens extraWords →
    Occurs token.text (value.literal extraWords)
  | null, listed | boolean _, listed | integer _, listed | double _, listed => by cases listed
  | string content, listed => by
      rcases List.mem_singleton.mp listed with rfl
      exact List.infix_rfl
  | array elements, listed => by
      rcases occurs_of_mem_elementTokens elements listed with ⟨text, member, occurs⟩
      exact occurs_listText occurs member
  | object members, listed => by
      rcases occurs_of_mem_memberTokens members listed with ⟨text, member, occurs⟩
      exact occurs_mapText occurs member

theorem occurs_of_mem_elementTokens : ∀ elements : List Value,
    token ∈ elementTokens extraWords elements →
      ∃ text ∈ elementLiterals extraWords elements, Occurs token.text text
  | [], listed => by cases listed
  | head :: tail, listed => by
      rcases List.mem_append.mp listed with listed | listed
      · exact ⟨_, List.mem_cons_self, occurs_of_mem_tokens head listed⟩
      · rcases occurs_of_mem_elementTokens tail listed with ⟨text, member, occurs⟩
        exact ⟨text, List.mem_cons_of_mem _ member, occurs⟩

theorem occurs_of_mem_memberTokens : ∀ members : List (String × Value),
    token ∈ memberTokens extraWords members →
      ∃ text ∈ memberLiterals extraWords members, Occurs token.text text
  | [], listed => by cases listed
  | (key, value) :: rest, listed => by
      rcases List.mem_append.mp listed with listed | listed
      · refine ⟨_, List.mem_cons_self, ?_⟩
        rcases List.mem_append.mp listed with listed | listed
        · exact ((Token.occurs_of_mem_ofName listed).appendRight ": ").appendRight _
        · exact (occurs_of_mem_tokens value listed).appendLeft _
      · rcases occurs_of_mem_memberTokens rest listed with ⟨text, member, occurs⟩
        exact ⟨text, List.mem_cons_of_mem _ member, occurs⟩

end

end Value

namespace Leaf

/-- Names that are written as they stand are no tokens. -/
def tokens (config : Config) : Leaf → List Token
  | text _ => []
  | identifier name => Token.ofName config.extraReservedWords name
  | label name =>
      if config.verbatim.nodeLabels then [] else Token.ofName config.extraReservedWords name
  | labels names =>
      if config.verbatim.nodeLabels then []
      else names.flatMap (Token.ofName config.extraReservedWords)
  | relationshipTypes names =>
      if config.verbatim.relationshipTypes then []
      else names.flatMap (Token.ofName config.extraReservedWords)
  | literal value => value.tokens config.extraReservedWords

/-- A list behind a colon has the tokens of all its names. -/
theorem occurs_names {extraWords : List String} {names : List String} {token : Token}
    (listed : token ∈ names.flatMap (Token.ofName extraWords)) (separator : String) :
    Occurs token.text
      (if names.isEmpty then ""
        else ":" ++ separator.intercalate (names.map (Identifier.escape extraWords))) := by
  rcases List.mem_flatMap.mp listed with ⟨name, member, ofName⟩
  cases names with
  | nil => cases member
  | cons head tail =>
      exact ((Token.occurs_of_mem_ofName ofName).intercalate (List.mem_map_of_mem member)
        separator).appendLeft ":"

theorem occurs_of_mem_tokens {config : Config} {content : Leaf} {token : Token}
    (listed : token ∈ content.tokens config) :
    Occurs token.text (content.render config) := by
  cases content with
  | text content => cases listed
  | identifier name => exact Token.occurs_of_mem_ofName listed
  | label name =>
      rw [tokens] at listed
      rw [render, Config.label]
      split at listed
      · cases listed
      · next quoted =>
          rw [if_neg quoted]
          exact Token.occurs_of_mem_ofName listed
  | labels names =>
      rw [tokens] at listed
      split at listed
      · cases listed
      · next quoted =>
          have each : config.label = Identifier.escape config.extraReservedWords :=
            funext fun name => if_neg quoted
          rw [render, Config.labels, each]
          exact occurs_names listed _
  | relationshipTypes names =>
      rw [tokens] at listed
      split at listed
      · cases listed
      · next quoted =>
          have each : config.relationshipType = Identifier.escape config.extraReservedWords :=
            funext fun name => if_neg quoted
          rw [render, Config.relationshipTypes, each]
          exact occurs_names listed _
  | literal value => exact Value.occurs_of_mem_tokens value listed

end Leaf

namespace Item

/-- The tokens in the text of an item. Generated names are no tokens, and what is not written
has none. -/
def tokens (config : Config) : Item → List Token
  | mention binder | newName binder _ =>
      binder.name.toList.flatMap (Token.ofName config.extraReservedWords)
  | placeholder parameter =>
      if parameter.isNull then []
      else parameter.name.toList.flatMap (Token.ofName config.extraReservedWords)
  | data content => content.tokens config
  | fault _ => []
  | unwritten _ => []

theorem occurs_variableText {environment : Environment} {binder : Variable} {token : Token}
    (listed : token ∈
      binder.name.toList.flatMap (Token.ofName environment.config.extraReservedWords)) :
    Occurs token.text (environment.resolveVariable binder).1 := by
  cases explicit : binder.name with
  | none => rw [explicit] at listed; cases listed
  | some name =>
      simp only [explicit, Option.toList_some, List.flatMap_singleton] at listed
      rw [Environment.resolveVariable_of_named explicit]
      exact Token.occurs_of_mem_ofName listed

theorem occurs_parameterText {environment : Environment} {parameter : Parameter}
    {token : Token}
    (listed : token ∈
      parameter.name.toList.flatMap (Token.ofName environment.config.extraReservedWords)) :
    Occurs token.text (environment.resolveParameter parameter).1 := by
  cases explicit : parameter.name with
  | none => rw [explicit] at listed; cases listed
  | some name =>
      simp only [explicit, Option.toList_some, List.flatMap_singleton] at listed
      rw [Environment.resolveParameter_of_named explicit]
      exact Token.occurs_of_mem_ofName listed

theorem occurs_of_mem_tokens {environment : Environment} {item : Item} {token : Token}
    (listed : token ∈ item.tokens environment.config) :
    Occurs token.text (item.written environment.dictionary) := by
  cases item with
  | mention binder => exact occurs_variableText listed
  | newName binder value => exact occurs_variableText listed
  | placeholder parameter =>
      rw [tokens] at listed
      rw [written, Layout.written]
      split at listed
      · cases listed
      · next notNull =>
          rw [if_neg notNull]
          exact (occurs_parameterText listed).appendLeft "$"
  | data content => exact Leaf.occurs_of_mem_tokens listed
  | fault error => cases listed
  | unwritten item => cases listed

end Item

/-! ## Tokens in finished text -/

/-- Every token of a phrase is found in the finished text, shifted once for each block
around it. The shift leaves the token as it is exactly if there is no block or if there
is no line feed in the token. -/
theorem Phrase.rendered_token {phrase : Phrase category} {environment after : Environment}
    {text : String} (rendered : phrase.whole.render environment = .ok text after)
    {depth : Nat} {item : Item} (met : (depth, item) ∈ phrase.reading 0) {token : Token}
    (listed : token ∈ item.tokens environment.config) :
    Occurs (token.shifted depth).text text ∧
      (token.shifted depth = token ↔ depth = 0 ∨ '\n' ∉ token.content.toList) := by
  rcases Layout.of_render_ok rendered 0 with ⟨-, equal, rfl⟩
  have sameConfig : after.config = environment.config := by
    rw [equal]
    exact (environment.grows_meetAll _).config
  rw [← reading_whole] at met
  rcases Layout.arrives_of_mem_reading after.dictionary phrase.whole met with ⟨levels, sum, arrives⟩
  rw [Nat.zero_add] at sum
  subst sum
  rw [← sameConfig] at listed
  exact ⟨Token.occurs_of_arrives (Item.occurs_of_mem_tokens listed) arrives,
    token.shifted_eq_self_iff depth⟩

/-- A string of two lines in a subquery: its second line is shifted. -/
theorem rendered_token_returning :
    let token : Token := .string "a\nb"
    let chain : Chain :=
      .last (.calling .absent (.last (.returning false
        (.projection false (.cons (.column (.literal (.string "a\nb"))) .nil))
        (.rowOrder .nil .absent .absent))) .absent)
    let text := "CALL \x7b\n    RETURN \"a\n    b\"\n\x7d"
    chain.whole.render (.empty {}) = .ok text (.empty {}) ∧
      (1, .data (.literal (.string "a\nb"))) ∈ chain.reading 0 ∧
      Occurs (token.shifted 1).text text ∧
      (token.shifted 1 = token ↔ 1 = 0 ∨ '\n' ∉ token.content.toList) := by
  intro token chain text
  have rendered : chain.whole.render (.empty {}) = .ok text (.empty {}) := rfl
  have met : (1, .data (.literal (.string "a\nb"))) ∈ chain.reading 0 :=
    List.mem_singleton.mpr rfl
  exact ⟨rendered, met, Phrase.rendered_token rendered met (List.mem_singleton.mpr rfl)⟩

/-- The string of two lines is not found in the query any more. -/
theorem string_lost_in_block :
    let token : Token := .string "a\nb"
    let chain : Chain :=
      .last (.calling .absent (.last (.returning false
        (.projection false (.cons (.column (.literal (.string "a\nb"))) .nil))
        (.rowOrder .nil .absent .absent))) .absent)
    let text := "CALL \x7b\n    RETURN \"a\n    b\"\n\x7d"
    chain.whole.render (.empty {}) = .ok text (.empty {}) ∧
      (1, .data (.literal (.string "a\nb"))) ∈ chain.reading 0 ∧
      token ∈ (Item.data (.literal (.string "a\nb"))).tokens {} ∧
      ¬ Occurs token.text text :=
  ⟨rfl, List.mem_singleton.mpr rfl, List.mem_singleton.mpr rfl, by decide⟩

end Cypher
