import Cypher.Proofs.Edges
import Cypher.Proofs.Quotation
import Cypher.Proofs.Replacement

/-! Filling the hole of a tree with a string. Whatever string it is, the same text
stands in front of it and behind it, and the same names are given. -/

namespace Cypher

/-! ## Literals with a hole -/

/-- A literal value with a hole for a string. -/
inductive Frame where
  | here
  | element (before : List Value) (inner : Frame) (after : List Value)
  | member (before : List (String × Value)) (key : String) (inner : Frame)
      (after : List (String × Value))

namespace Frame

def fill : Frame → String → Value
  | here, content => .string content
  | element before inner after, content => .array (before ++ inner.fill content :: after)
  | member before key inner after, content =>
      .object (before ++ (key, inner.fill content) :: after)

theorem intercalate_around (separator : String) (before after : List String) :
    ∃ front back, ∀ text, separator.intercalate (before ++ text :: after) =
      front ++ text ++ back := by
  induction before with
  | nil =>
      cases after with
      | nil => exact ⟨"", "", fun text => by simp⟩
      | cons next rest =>
          refine ⟨"", separator ++ separator.intercalate (next :: rest), fun text => ?_⟩
          simp [String.append_assoc]
  | cons head tail induction =>
      rcases induction with ⟨front, back, around⟩
      refine ⟨head ++ separator ++ front, back, fun text => ?_⟩
      rw [List.cons_append, String.intercalate_cons_of_ne_nil (by simp), around]
      simp only [String.append_assoc]

variable (extraWords : List String)

theorem elementLiterals_append (before after : List Value) (value : Value) :
    Value.elementLiterals extraWords (before ++ value :: after) =
      Value.elementLiterals extraWords before ++
        value.literal extraWords :: Value.elementLiterals extraWords after := by
  induction before with
  | nil => rfl
  | cons head tail induction =>
      rw [List.cons_append, Value.elementLiterals, induction, Value.elementLiterals]
      rfl

theorem memberLiterals_append (before after : List (String × Value)) (key : String)
    (value : Value) :
    Value.memberLiterals extraWords (before ++ (key, value) :: after) =
      Value.memberLiterals extraWords before ++
        (Identifier.escape extraWords key ++ ": " ++ value.literal extraWords) ::
          Value.memberLiterals extraWords after := by
  induction before with
  | nil => rfl
  | cons head tail induction =>
      rw [List.cons_append, Value.memberLiterals, induction, Value.memberLiterals]
      rfl

/-- The text around the string does not depend on the string. -/
theorem literal_fill (frame : Frame) :
    ∃ front back, ∀ content, (frame.fill content).literal extraWords =
      front ++ Quoted.quote content ++ back := by
  induction frame with
  | here => exact ⟨"", "", fun content => by simp [fill, Value.literal]⟩
  | element before inner after induction =>
      rcases induction with ⟨front, back, around⟩
      rcases intercalate_around ", " (Value.elementLiterals extraWords before)
        (Value.elementLiterals extraWords after) with ⟨left, right, between⟩
      refine ⟨"[" ++ left ++ front, back ++ right ++ "]", fun content => ?_⟩
      rw [fill, Value.literal, elementLiterals_append, Value.listText, between, around]
      simp only [String.append_assoc]
  | member before key inner after induction =>
      rcases induction with ⟨front, back, around⟩
      rcases intercalate_around ", " (Value.memberLiterals extraWords before)
        (Value.memberLiterals extraWords after) with ⟨left, right, between⟩
      refine ⟨"\x7b " ++ left ++ (Identifier.escape extraWords key ++ ": ") ++ front,
        back ++ right ++ " \x7d", fun content => ?_⟩
      rw [fill, Value.literal, memberLiterals_append, Value.mapText, if_neg (by simp), between,
        around]
      simp only [String.append_assoc]

end Frame

/-! ## Trees with a hole

A hole is a parameter of its own, which is replaced by a literal. -/

/-- Put a literal with the string `content` in place of the hole. -/
def filling (hole : Identity) (frame : Frame) (content : String) : Replacement where
  ofParameter parameter :=
    if parameter.identity = hole then .inr (frame.fill content) else .inl parameter

/-- How many holes are met. -/
def Reading.holes (hole : Identity) (reading : Reading) : Nat :=
  reading.placeholders.countP (·.identity = hole)

@[simp] theorem Reading.holes_append (hole : Identity) (first second : Reading) :
    holes hole (first ++ second) = holes hole first + holes hole second := by
  simp [holes]

namespace Phrase

def holes (hole : Identity) (phrase : Phrase category) : Nat :=
  phrase.placeholders.countP (·.identity = hole)

def filled (hole : Identity) (frame : Frame) (phrase : Phrase category) (content : String) :
    Phrase category :=
  phrase.replace (filling hole frame content)

end Phrase

/-- The item is written, and a new name is not spelled like the filled value that it
stands for. -/
def Item.KeepsNames (names : Dictionary) (hole : Identity) (frame : Frame) (depth : Nat) :
    Item → Prop
  | newName binder value =>
      (value.reading depth).holes hole = 1 →
        ∀ content, names.variableText binder ≠
          (value.replace (filling hole frame content)).written names
  | unwritten _ => False
  | mention _ | placeholder _ | data _ | fault _ => True

/-- All items of the reading are written, and no new name is spelled like its value. -/
def Reading.KeepsNames (names : Dictionary) (hole : Identity) (frame : Frame)
    (reading : Reading) : Prop :=
  ∀ entry ∈ reading, entry.2.KeepsNames names hole frame entry.1

namespace Layout

variable {hole : Identity} {frame : Frame}

/-- Nothing is replaced in a layout without a hole. -/
theorem replace_filling (layout : Layout) {depth : Nat}
    (none : (layout.reading depth).holes hole = 0) (content : String) :
    layout.replace (filling hole frame content) = layout := by
  induction layout generalizing depth with
  | leaf leaf => rfl
  | mention binder => rfl
  | placeholder parameter =>
      have other : parameter.identity ≠ hole := by
        rintro rfl
        simp [Reading.holes, reading, Item.placeholder?] at none
      simp [replace, Replacement.placeholderLayout, filling, other]
  | fault error => rfl
  | append first second firstInduction secondInduction =>
      rw [reading, Reading.holes_append, Nat.add_eq_zero_iff] at none
      rw [replace, firstInduction none.1, secondInduction none.2]
  | stack upper lower upperInduction lowerInduction =>
      rw [reading, Reading.holes_append, Nat.add_eq_zero_iff] at none
      rw [replace, upperInduction none.1, lowerInduction none.2]
  | indent body induction => rw [replace, induction none]
  | aliased value newName induction =>
      rw [reading, Reading.holes_append, Nat.add_eq_zero_iff] at none
      rw [replace, induction none.1]
      rfl
  | trimStart body induction => rw [replace, induction none]
  | verbatim upper lower upperInduction lowerInduction =>
      rw [reading, Reading.holes_append, Nat.add_eq_zero_iff] at none
      rw [replace, upperInduction none.1, lowerInduction none.2]
  | unwritten body induction =>
      rw [reading, Reading.holes, Reading.placeholders_unwritten] at none
      rw [replace, induction none]

/-- All fillings get into the text of the layout in one way. -/
theorem arrives_filling (names : Dictionary) (layout : Layout) {depth : Nat}
    (once : (layout.reading depth).holes hole = 1)
    (keeps : (layout.reading depth).KeepsNames names hole frame) :
    ∃ levels, Arrives levels
      (fun content => (frame.fill content).literal names.config.extraReservedWords)
      (fun content => (layout.replace (filling hole frame content)).written names) := by
  induction layout generalizing depth with
  | leaf leaf => cases leaf <;> cases once
  | mention binder => cases once
  | placeholder parameter =>
      have same : parameter.identity = hole := by
        by_contra other
        simp [Reading.holes, reading, Item.placeholder?, other] at once
      simp only [replace, Replacement.placeholderLayout, filling, same, if_true]
      exact ⟨0, .here _⟩
  | fault error => cases once
  | append first second firstInduction secondInduction =>
      rw [reading, Reading.holes_append] at once
      rcases List.forall_mem_append.mp keeps with ⟨keepsFirst, keepsSecond⟩
      rcases Nat.add_eq_one_iff.mp once with ⟨none, one⟩ | ⟨one, none⟩
      · rcases secondInduction one keepsSecond with ⟨levels, arrives⟩
        simp only [replace, written, first.replace_filling none]
        exact ⟨levels, (arrives.beside (.appendLeft (first.written names)) :)⟩
      · rcases firstInduction one keepsFirst with ⟨levels, arrives⟩
        simp only [replace, written, second.replace_filling none]
        exact ⟨levels, (arrives.beside (.appendRight (second.written names)) :)⟩
  | stack upper lower upperInduction lowerInduction =>
      rw [reading, Reading.holes_append] at once
      rcases List.forall_mem_append.mp keeps with ⟨keepsUpper, keepsLower⟩
      rcases Nat.add_eq_one_iff.mp once with ⟨none, one⟩ | ⟨one, none⟩
      · rcases lowerInduction one keepsLower with ⟨levels, arrives⟩
        simp only [replace, written, upper.replace_filling none]
        exact ⟨levels, (arrives.beside (.stackLower (upper.written names)) :)⟩
      · rcases upperInduction one keepsUpper with ⟨levels, arrives⟩
        simp only [replace, written, lower.replace_filling none]
        exact ⟨levels, (arrives.beside (.stackUpper (lower.written names)) :)⟩
  | indent body induction =>
      rcases induction once keeps with ⟨levels, arrives⟩
      exact ⟨1 + levels, arrives.through .indent⟩
  | aliased value newName induction =>
      rcases List.forall_mem_append.mp keeps with ⟨keepsValue, keepsName⟩
      have one : (value.reading depth).holes hole = 1 := by
        rw [reading, Reading.holes_append] at once
        exact once
      rcases induction one keepsValue with ⟨levels, arrives⟩
      -- No filling makes the new name superfluous, so it is always written.
      have different := keepsName _ List.mem_cons_self one
      simp only [replace, written]
      change ∃ levels, Arrives levels _ fun content =>
        if names.variableText newName =
          (value.replace (filling hole frame content)).written names then _ else _
      simp only [if_neg (different _), String.append_assoc]
      exact ⟨levels, (arrives.beside (.appendRight (" AS " ++ names.variableText newName)) :)⟩
  | trimStart body induction =>
      rcases induction once keeps with ⟨levels, arrives⟩
      exact ⟨levels, arrives.beside .trimStart⟩
  | verbatim upper lower upperInduction lowerInduction =>
      rw [reading, Reading.holes_append] at once
      rcases List.forall_mem_append.mp keeps with ⟨keepsUpper, keepsLower⟩
      rcases Nat.add_eq_one_iff.mp once with ⟨none, one⟩ | ⟨one, none⟩
      · rcases lowerInduction one keepsLower with ⟨levels, arrives⟩
        simp only [replace, written, upper.replace_filling none]
        exact ⟨levels, (arrives.beside (.verbatimLower (upper.written names)) :)⟩
      · rcases upperInduction one keepsUpper with ⟨levels, arrives⟩
        simp only [replace, written, lower.replace_filling none]
        exact ⟨levels, (arrives.beside (.verbatimUpper (lower.written names)) :)⟩
  | unwritten body induction =>
      -- Somewhere in the body there is the hole, and every item of the body is unwritten.
      cases items : body.reading depth with
      | nil =>
          rw [reading, items] at once
          cases once
      | cons entry rest =>
          rw [reading, items] at keeps
          cases keeps _ List.mem_cons_self

end Layout

/-! ## New names and filled values -/

/-- The filled literal is met where the hole was. -/
theorem Layout.mem_reading_filling {hole : Identity} (frame : Frame) (content : String)
    {layout : Layout} {depth : Nat} (tame : (layout.reading depth).IsTame)
    (once : (layout.reading depth).holes hole = 1) :
    ∃ place, (place, .data (.literal (frame.fill content))) ∈
      (layout.replace (filling hole frame content)).reading depth := by
  have some : 0 < (layout.reading depth).holes hole := once ▸ Nat.one_pos
  rcases List.countP_pos_iff.mp some with ⟨parameter, met, same⟩
  rcases List.mem_filterMap.mp met with ⟨⟨place, item⟩, member, found⟩
  refine ⟨place, ?_⟩
  rw [reading_replace]
  refine List.mem_map.mpr ⟨(place, item), member, ?_⟩
  cases item with
  | placeholder other =>
      cases found
      rw [decide_eq_true_eq] at same
      simp [Item.replace, filling, same]
  | unwritten _ => cases tame _ member
  | mention _ | newName _ _ | data _ | fault _ => cases found

/-- A filled text has the quotes of its filling. -/
theorem quote_mem_written (names : Dictionary) {frame : Frame} {content : String}
    {layout : Layout} {depth place : Nat}
    (met : (place, .data (.literal (frame.fill content))) ∈ layout.reading depth) :
    '"' ∈ (layout.written names).toList := by
  rcases layout.arrives_of_mem_reading names met with ⟨levels, -, arrives⟩
  rcases frame.literal_fill names.config.extraReservedWords with ⟨front, back, around⟩
  have written : (Item.data (.literal (frame.fill content))).written names =
      front ++ (Token.string content).text ++ back := around content
  have occurs : Occurs (Token.string content).text
      ((Item.data (.literal (frame.fill content))).written names) := by
    rw [written]
    exact (Occurs.appendLeft List.infix_rfl front).appendRight back
  apply (Token.occurs_of_arrives occurs arrives).subset
  simp [Token.shifted, Token.text, Quoted.quote]

theorem quote_not_mem_generated {config : Config}
    (unquoted : '"' ∉ config.namePrefixes.forVariables.toList) (kind : VariableKind)
    (number : Nat) :
    '"' ∉ (Environment.generatedVariableName config kind number).toList := by
  simp only [Environment.generatedVariableName, String.toList_append, List.mem_append,
    Decimal.natural, String.toList_ofList, not_or]
  refine ⟨⟨unquoted, by cases kind <;> decide⟩, fun member => ?_⟩
  exact absurd (Nat.isDigit_of_mem_toDigits (by decide) (by decide) member) (by decide)

/-- In a reachable environment, generated names are told from quoted ones by how they
begin, or all names are told from quoted ones by how they end. -/
def Environment.SeparatesNames (environment : Environment) : Prop :=
  environment.config.namePrefixes.forVariables.toList.head? ≠ some Identifier.backtick ∨
    environment.config.verbatim = {}

variable {environment : Environment} {hole : Identity} {frame : Frame}

/-- A tame expression with a filled hole is not spelled like a quoted name. -/
theorem written_ne_quote (reachable : environment.Reachable)
    (separates : environment.SeparatesNames) {expression : Expression}
    (tame : expression.Tame) (noMention : ∀ binder, expression ≠ .mention binder)
    (name : String) :
    expression.layout.written environment.dictionary ≠ Identifier.quote name := by
  rcases separates with plain | escaped
  · have opens := Expression.mentionOrOpens (reachable.opensNames plain) expression tame
    rcases opens with ⟨binder, equal⟩ | opens
    · exact absurd equal (noMention binder)
    · exact opens.ne_quote name
  · have closes := Expression.mentionOrCloses (reachable.closesNames escaped) expression tame
    rcases closes with ⟨binder, equal⟩ | closes
    · exact absurd equal (noMention binder)
    · exact closes.ne_quote name

/-- A name is not spelled like a tame expression with a filled hole. -/
theorem variableText_ne_filled (reachable : environment.Reachable)
    (unquoted : '"' ∉ environment.config.namePrefixes.forVariables.toList)
    (separates : environment.SeparatesNames) {expression : Expression}
    (tame : expression.Tame) {depth : Nat}
    (once : (expression.layout.reading depth).holes hole = 1) (newName : Variable)
    (content : String) :
    environment.dictionary.variableText newName ≠
      (expression.layout.replace (filling hole frame content)).written
        environment.dictionary := by
  intro equal
  have readTame : (expression.layout.reading depth).IsTame := by
    rw [show expression.layout = expression.whole from rfl, Phrase.reading_whole]
    exact expression.isTame_reading tame
  rcases Layout.mem_reading_filling frame content readTame once with ⟨place, met⟩
  let filled := expression.replace (filling hole frame content)
  have filledLayout : filled.layout = expression.layout.replace (filling hole frame content) :=
    Phrase.layout_replace _ expression
  rw [← filledLayout] at met equal
  have quoted := quote_mem_written environment.dictionary met
  have noMention : ∀ binder, filled ≠ .mention binder := by
    intro binder isMention
    rw [isMention, Phrase.layout] at met
    cases List.mem_singleton.mp met
  cases explicit : newName.name with
  | none =>
      rcases reachable.variableText explicit with ⟨kind, number, generated⟩
      rw [← equal] at quoted
      simp only [Environment.dictionary, generated] at quoted
      exact quote_not_mem_generated unquoted kind number quoted
  | some name =>
      simp only [Environment.dictionary, Environment.resolveVariable_of_named explicit,
        Config.identifier, Identifier.escape] at equal
      split at equal
      · next plain =>
          rw [Bool.and_eq_true] at plain
          have characters := (isSubsequent_of_isPlain plain.1).2
          have quotedName : '"' ∈ name.toList := by
            rw [equal]
            exact quoted
          exact absurd (characters _ quotedName) (by decide)
      · exact written_ne_quote reachable separates (Phrase.tame_replace _ tame) noMention name
          equal.symm

theorem keepsNames (reachable : environment.Reachable)
    (unquoted : '"' ∉ environment.config.namePrefixes.forVariables.toList)
    (separates : environment.SeparatesNames) {reading : Reading}
    (tame : reading.IsTame) :
    reading.KeepsNames environment.dictionary hole frame := by
  rintro ⟨depth, item⟩ member
  cases item with
  | newName newName value =>
      rcases tame _ member with ⟨expression, tameValue, rfl⟩
      intro once content
      exact variableText_ne_filled reachable unquoted separates tameValue once newName content
  | unwritten _ => exact tame _ member
  | mention _ | placeholder _ | data _ | fault _ => trivial

/-! ## Rendering with different fillings -/

/-- The names that are given do not depend on the filling. -/
theorem Environment.meetAll_filling (environment : Environment) (reading : Reading)
    (content other : String) :
    environment.meetAll (reading.replace (filling hole frame content)) =
      environment.meetAll (reading.replace (filling hole frame other)) := by
  induction reading generalizing environment with
  | nil => rfl
  | cons entry rest induction =>
      have same : environment.meet (entry.2.replace (filling hole frame content)) =
          environment.meet (entry.2.replace (filling hole frame other)) := by
        induction entry.2 with
        | placeholder parameter =>
            by_cases isHole : parameter.identity = hole <;>
              simp [Item.replace, filling, isHole, Environment.meet]
        | unwritten _ sameInside => exact sameInside
        | _ => rfl
      simp only [Reading.replace, List.map_cons, Environment.meetAll_cons, same]
      exact induction _

/-- A string of one line stands between the same texts, whichever string it is. -/
theorem around_filling (names : Dictionary) {layout : Layout} {depth : Nat}
    (once : (layout.reading depth).holes hole = 1)
    (keeps : (layout.reading depth).KeepsNames names hole frame) :
    ∃ front back, ∀ content, '\n' ∉ content.toList →
      (layout.replace (filling hole frame content)).written names =
        front ++ Quoted.quote content ++ back := by
  rcases layout.arrives_filling names once keeps with ⟨levels, change, carries, equal⟩
  rcases frame.literal_fill names.config.extraReservedWords with ⟨front, back, around⟩
  rcases carries '"' (by decide) front back with ⟨newFront, newBack, changed⟩
  refine ⟨newFront, newBack, fun content oneLine => ?_⟩
  let token : Token := .string content
  have unshifted : token.shifted levels = token :=
    (token.shifted_eq_self_iff levels).mpr (.inr oneLine)
  calc (layout.replace (filling hole frame content)).written names
      = change (front ++ token.text ++ back) :=
        (equal content).trans (congrArg change (around content))
    _ = change (front ++ Block.marked '"' token.body ++ back) := by
        rw [token.text_eq_marked]
        rfl
    _ = newFront ++ Block.marked '"' (token.shifted levels).body ++ newBack := by
        rw [changed, token.body_shifted]
    _ = newFront ++ Quoted.quote content ++ newBack := by
        rw [unshifted]
        exact congrArg (newFront ++ · ++ newBack) token.text_eq_marked.symm

theorem Phrase.reading_filled (phrase : Phrase category) (content : String) :
    (phrase.filled hole frame content).whole.reading 0 =
      (phrase.reading 0).replace (filling hole frame content) := by
  rw [filled, whole_replace, Layout.reading_replace, reading_whole]

/-- A fault of the tree is a fault of every filling. -/
theorem Phrase.filled_fails {phrase : Phrase category} {error : RenderError}
    (faulty : (phrase.reading 0).fault? = some error) (content : String) :
    (phrase.filled hole frame content).whole.render environment =
      .error error
        (environment.meetAll ((phrase.reading 0).sound.replace (filling hole frame ""))) := by
  have fails : ((phrase.filled hole frame content).whole.reading 0).fault? = some error := by
    rw [reading_filled, Reading.fault?_replace, faulty]
  rw [Layout.failsFirst _ fails, reading_filled, Reading.sound_replace]
  rw [environment.meetAll_filling _ content ""]

/-- A tree without a fault is written whatever it is filled with. -/
theorem Phrase.filled_succeeds {phrase : Phrase category}
    (faultless : (phrase.reading 0).fault? = none) (content : String) :
    let after := environment.meetAll ((phrase.reading 0).replace (filling hole frame ""))
    (phrase.filled hole frame content).whole.render environment =
      .ok ((phrase.whole.replace (filling hole frame content)).written after.dictionary)
        after := by
  intro after
  have stillFaultless :
      ((phrase.filled hole frame content).whole.reading 0).fault? = none := by
    rw [reading_filled, Reading.fault?_replace, faultless]
  have met : environment.meetAll ((phrase.filled hole frame content).whole.reading 0) =
      after := by
    rw [reading_filled]
    exact environment.meetAll_filling _ content ""
  rw [Layout.rendersSoundly _ stillFaultless (.refl _), met, filled, whole_replace]

/-- A tree with a hole is rendered with the same outcome for all fillings: it fails with
the same error, or the string stands between the same texts and the same environment is
left. -/
theorem Phrase.rendered_filling {phrase : Phrase category} (tame : phrase.Tame)
    (once : phrase.holes hole = 1) (reachable : environment.Reachable)
    (unquoted : '"' ∉ environment.config.namePrefixes.forVariables.toList)
    (separates : environment.SeparatesNames) :
    (∃ error after, ∀ content,
      (phrase.filled hole frame content).whole.render environment = .error error after) ∨
    (∃ front back after, ∀ content, '\n' ∉ content.toList →
      (phrase.filled hole frame content).whole.render environment =
        .ok (front ++ "\"" ++ Quoted.escape content ++ "\"" ++ back) after) := by
  cases faulty : (phrase.reading 0).fault? with
  | some error => exact .inl ⟨error, _, filled_fails faulty⟩
  | none =>
      let after := environment.meetAll ((phrase.reading 0).replace (filling hole frame ""))
      have sameConfig : after.config = environment.config :=
        (environment.grows_meetAll _).config
      have onceRead : (phrase.whole.reading 0).holes hole = 1 := by
        rw [reading_whole, Reading.holes, placeholders_reading phrase faulty]
        exact once
      have unquotedAfter : '"' ∉ after.config.namePrefixes.forVariables.toList := by
        rwa [sameConfig]
      have separatesAfter : after.SeparatesNames := by
        rwa [Environment.SeparatesNames, sameConfig]
      have keeps : (phrase.whole.reading 0).KeepsNames after.dictionary hole frame := by
        rw [reading_whole]
        exact keepsNames (reachable.meetAll _) unquotedAfter separatesAfter
          (isTame_reading phrase tame)
      rcases around_filling after.dictionary onceRead keeps with ⟨front, back, around⟩
      refine .inr ⟨front, back, after, fun content oneLine => ?_⟩
      rw [filled_succeeds faulty, around content oneLine]
      simp only [Quoted.quote, String.append_assoc, after]

/-- A hole in a list, given a new name inside a block. -/
theorem rendered_filling_calling :
    let hole : Identity := ⟨0⟩
    let column : Phrase .column :=
      .renamed (.placeholder { identity := hole }) { identity := ⟨1⟩ }
    let chain : Chain :=
      .last (.calling .absent (.last (.returning false
        (.projection false (.cons column .nil)) (.rowOrder .nil .absent .absent))) .absent)
    let frame : Frame := .element [.boolean true] .here []
    let environment : Environment := .empty {}
    chain.Tame ∧ chain.holes hole = 1 ∧ environment.Reachable ∧
      '"' ∉ environment.config.namePrefixes.forVariables.toList ∧
      environment.SeparatesNames ∧
      ((∃ error after, ∀ content,
        (chain.filled hole frame content).whole.render environment = .error error after) ∨
      (∃ front back after, ∀ content, '\n' ∉ content.toList →
        (chain.filled hole frame content).whole.render environment =
          .ok (front ++ "\"" ++ Quoted.escape content ++ "\"" ++ back) after)) := by
  intro hole column chain frame environment
  have tame : chain.Tame := by decide
  have once : chain.holes hole = 1 := by decide
  have reachable : environment.Reachable := .empty {}
  have unquoted : '"' ∉ environment.config.namePrefixes.forVariables.toList := by decide
  have separates : environment.SeparatesNames := .inl (by decide)
  exact ⟨tame, once, reachable, unquoted, separates,
    Phrase.rendered_filling tame once reachable unquoted separates⟩

/-- `RETURN x = _ = y:foo AS new`, where `y:foo` ends with a mark of its own. -/
def unseparatedChain (hole : Identity) : Chain :=
  .last (.returning false
    (.projection false (.cons
      (.renamed
        (.comparison .equal
          (.comparison .equal (.mention { identity := ⟨1⟩ })
            (.present (.placeholder { identity := hole })))
          (.present (.nameTest .labels { identity := ⟨2⟩, name := some "y" } "foo\x60" [])))
        { identity := ⟨3⟩, name := some "var0 = \"s\" = y:foo" })
      .nil))
    (.rowOrder .nil .absent .absent))

/-- Generated names begin with a mark, and labels may end with one. -/
def unseparated : Environment :=
  .empty { namePrefixes := { forVariables := "\x60" }, verbatim := { nodeLabels := true } }

/-- One of the fillings is spelled like the new name, which is then left out. -/
theorem filling_spelled_like_new_name :
    let hole : Identity := ⟨0⟩
    let chain := unseparatedChain hole
    chain.Tame ∧ chain.holes hole = 1 ∧ unseparated.Reachable ∧
      '"' ∉ unseparated.config.namePrefixes.forVariables.toList ∧
      '"' ∉ unseparated.config.namePrefixes.forParameters.toList ∧
      ¬ ((∀ content, ∃ error after,
        (chain.filled hole .here content).whole.render unseparated = .error error after) ∨
      (∃ front back after, ∀ content, '\n' ∉ content.toList →
        (chain.filled hole .here content).whole.render unseparated =
          .ok (front ++ "\"" ++ Quoted.escape content ++ "\"" ++ back) after)) := by
  intro hole chain
  let given : Environment := { unseparated with names := [(.ofVariable ⟨1⟩, "\x60var0")] }
  have short : (chain.filled hole .here "s").whole.render unseparated =
      .ok "RETURN \x60var0 = \"s\" = y:foo\x60" given := rfl
  have long : (chain.filled hole .here "t").whole.render unseparated =
      .ok "RETURN \x60var0 = \"t\" = y:foo\x60 AS \x60var0 = \"s\" = y:foo\x60" given := rfl
  refine ⟨by decide, by decide, .empty _, by decide, by decide, ?_⟩
  rintro (fails | ⟨front, back, after, succeeds⟩)
  · rcases fails "s" with ⟨error, after, failed⟩
    cases failed.symm.trans short
  · have shortText := (succeeds "s" (by decide)).symm.trans short
    have longText := (succeeds "t" (by decide)).symm.trans long
    injection shortText with shortText
    injection longText with longText
    -- The two strings are of one length, so the texts around them would be, too.
    have shortLength := congrArg String.length shortText
    have longLength := congrArg String.length longText
    simp only [String.length_append] at shortLength longLength
    have sameLength : (Quoted.escape "s").length = (Quoted.escape "t").length := by decide
    have fewer : "RETURN \x60var0 = \"s\" = y:foo\x60".length <
        "RETURN \x60var0 = \"t\" = y:foo\x60 AS \x60var0 = \"s\" = y:foo\x60".length := by
      decide
    omega
end Cypher
