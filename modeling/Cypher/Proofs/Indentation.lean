import Cypher.Text.Blank
import Cypher.Text.Block
import Cypher.Text.Identifier
import Cypher.Text.Quoted
import Mathlib.Logic.Function.Iterate

/-! What indentation does to quoted text. Lines are counted without regard to
quotes, so a line feed between two quotes starts a new line of the block like any
other. Everything here is about characters between two equal marks. -/

namespace Cypher

namespace Block

/-! ## Shifted characters -/

def marginBefore (fresh : Bool) : List Char :=
  if fresh then margin.toList else []

/-- The characters of an indented text. -/
def shift (fresh : Bool) : List Char → List Char
  | [] => []
  | '\n' :: rest => if rest.isEmpty then [] else '\n' :: shift true rest
  | '\r' :: '\n' :: rest => if rest.isEmpty then [] else '\n' :: shift true rest
  | head :: rest => marginBefore fresh ++ head :: shift false rest

/-- The same in the middle of a text, so that the last line goes on behind. -/
def shiftInside (fresh : Bool) : List Char → List Char
  | [] => marginBefore fresh
  | '\n' :: rest => '\n' :: shiftInside true rest
  | '\r' :: '\n' :: rest => '\n' :: shiftInside true rest
  | head :: rest => marginBefore fresh ++ head :: shiftInside false rest

theorem toList_indentFrom (written : String) (fresh : Bool) (characters : List Char) :
    (indentFrom written fresh characters).toList =
      written.toList ++ shift fresh characters := by
  fun_induction indentFrom written fresh characters with
  | case1 => simp [shift]
  | case2 written fresh rest last => simp [shift, last]
  | case3 written fresh rest more induction => simp [shift, more, induction]
  | case4 written fresh rest last => simp [shift, last]
  | case5 written fresh rest more induction => simp [shift, more, induction]
  | case6 written fresh head rest noFeed noReturn induction =>
      refine induction.trans ?_
      cases fresh <;> simp [shift, marginBefore]

@[simp] theorem toList_indent (text : String) :
    (indent text).toList = shift true text.toList := by
  rw [indent, toList_indentFrom, String.toList_empty, List.nil_append]

/-- A mark is a character that ends no line. -/
structure IsMark (mark : Char) : Prop where
  notFeed : mark ≠ '\n'
  notReturn : mark ≠ '\r'

theorem shift_mark {mark : Char} (isMark : IsMark mark) (fresh : Bool) (rest : List Char) :
    shift fresh (mark :: rest) = marginBefore fresh ++ mark :: shift false rest :=
  shift.eq_4 _ _ _ isMark.notFeed fun _ equal => absurd equal isMark.notReturn

/-- Up to a mark, a text is shifted without regard to what comes behind. -/
theorem shift_append_mark {mark : Char} (isMark : IsMark mark) (fresh : Bool)
    (body rest : List Char) :
    shift fresh (body ++ mark :: rest) =
      shiftInside fresh body ++ mark :: shift false rest := by
  fun_induction shiftInside fresh body with
  | case1 => exact shift_mark isMark _ rest
  | case2 fresh body induction => simp [shift, induction]
  | case3 fresh body induction => simp [shift, induction]
  | case4 fresh head body noFeed noReturn induction =>
      rw [List.cons_append, shift.eq_4, induction, List.append_assoc, List.cons_append]
      · exact noFeed
      · intro next isReturn equal
        cases body with
        | nil => exact isMark.notFeed (List.cons.inj equal).1
        | cons second body =>
            exact noReturn body isReturn (by rw [(List.cons.inj equal).1])

/-- Blocks below each other are indented one by one, if the upper one ends with a mark. -/
theorem indent_below {upper lower : String} {mark : Char} (isMark : IsMark mark)
    {front : List Char} (ends : upper.toList = front ++ [mark]) (written : lower ≠ "") :
    indent (upper ++ "\n" ++ lower) = indent upper ++ "\n" ++ indent lower := by
  have more : lower.toList.isEmpty = false := by simpa using written
  have above := shift_append_mark isMark true front ('\n' :: lower.toList)
  have alone := shift_append_mark isMark true front []
  rw [shift, more] at above
  rw [← String.toList_inj]
  simp only [String.toList_append, toList_indent, ends, alone]
  simpa [shift] using above

/-! ## Marked texts -/

/-- A text between two marks. -/
def marked (mark : Char) (body : List Char) : String :=
  String.ofList (mark :: body ++ [mark])

/-- Indentation shifts the text between two marks, wherever they stand. What stands
around the marks does not depend on the text between them. -/
theorem indent_marked {mark : Char} (isMark : IsMark mark) (front back : String) :
    ∃ newFront newBack, ∀ body,
      indent (front ++ marked mark body ++ back) =
        newFront ++ marked mark (shiftInside false body) ++ newBack := by
  refine ⟨String.ofList (shiftInside true front.toList),
    String.ofList (shift false back.toList), fun body => String.toList_inj.mp ?_⟩
  have shifted := shift_append_mark isMark true front.toList
    (body ++ mark :: back.toList)
  rw [shift_append_mark isMark false body] at shifted
  simpa [marked] using shifted

/-! ## What a shift preserves -/

theorem shiftInside_of_no_feed {body : List Char} (noFeed : '\n' ∉ body) :
    shiftInside false body = body := by
  induction body with
  | nil => rfl
  | cons head body induction =>
      rw [List.mem_cons, not_or] at noFeed
      rw [shiftInside.eq_4, induction noFeed.2]
      · rfl
      · exact fun equal => noFeed.1 equal.symm
      · rintro rest - rfl
        exact noFeed.2 List.mem_cons_self

theorem feed_mem_shiftInside (fresh : Bool) {body : List Char} (feed : '\n' ∈ body) :
    '\n' ∈ shiftInside fresh body := by
  fun_induction shiftInside fresh body with
  | case1 => cases feed
  | case2 => exact List.mem_cons_self
  | case3 => exact List.mem_cons_self
  | case4 fresh head body noFeed noReturn induction =>
      have later := (List.mem_cons.mp feed).resolve_left fun equal => noFeed equal.symm
      exact List.mem_append_right _ (List.mem_cons_of_mem _ (induction later))

/-- No blank is lost, and behind a line feed a margin is added. -/
theorem count_shiftInside (fresh : Bool) (body : List Char) :
    body.count ' ' + (if fresh ∨ '\n' ∈ body then margin.length else 0) ≤
      (shiftInside fresh body).count ' ' := by
  fun_induction shiftInside fresh body with
  | case1 fresh => cases fresh <;> decide
  | case2 fresh body induction => simpa using induction
  | case3 fresh body induction => simpa using induction
  | case4 fresh head body noFeed noReturn induction =>
      have different : '\n' ≠ head := fun equal => noFeed equal.symm
      have width : (marginBefore fresh).count ' ' = if fresh then margin.length else 0 := by
        cases fresh <;> decide
      rw [List.count_append, width, List.count_cons, List.count_cons]
      simp only [List.mem_cons, different, false_or] at induction ⊢
      grind

/-- A shift changes a text exactly if the text has a line feed. -/
theorem shiftInside_iterate_eq_self_iff (levels : Nat) (body : List Char) :
    (shiftInside false)^[levels] body = body ↔ levels = 0 ∨ '\n' ∉ body := by
  constructor
  · intro unchanged
    by_contra changes
    rw [not_or, not_not] at changes
    have grown : ∀ levels, '\n' ∈ (shiftInside false)^[levels] body ∧
        body.count ' ' + margin.length * levels ≤
          ((shiftInside false)^[levels] body).count ' ' := by
      intro levels
      induction levels with
      | zero => exact ⟨changes.2, Nat.le_refl _⟩
      | succ levels induction =>
          rw [Function.iterate_succ_apply']
          have more := count_shiftInside false ((shiftInside false)^[levels] body)
          rw [if_pos (.inr induction.1)] at more
          refine ⟨feed_mem_shiftInside false induction.1, ?_⟩
          rw [Nat.mul_succ]
          omega
    have wider := (grown levels).2
    have width : margin.length = 4 := by decide
    rw [unchanged, width] at wider
    omega
  · rintro (rfl | noFeed)
    · rfl
    · exact Function.iterate_fixed (shiftInside_of_no_feed noFeed) levels

/-! ## Shifting and escaping

Escaping adds characters that end no line, so it does not matter whether a text is
escaped before or after it is shifted. -/

/-- Write `mark` before every character that needs it. -/
def escapeWith (needsMark : Char → Bool) (mark : Char) : List Char → List Char
  | [] => []
  | head :: tail =>
      if needsMark head then mark :: head :: escapeWith needsMark mark tail
      else head :: escapeWith needsMark mark tail

theorem escapeCharacters_eq (text : List Char) :
    Quoted.escapeCharacters text = escapeWith Quoted.needsEscape '\\' text := by
  induction text with
  | nil => rfl
  | cons head tail induction => rw [Quoted.escapeCharacters, escapeWith, induction]

theorem doubleBackticks_eq (name : List Char) :
    Identifier.doubleBackticks name =
      escapeWith (· == Identifier.backtick) Identifier.backtick name := by
  induction name with
  | nil => rfl
  | cons head tail induction =>
      rw [Identifier.doubleBackticks, escapeWith, induction]
      by_cases equal : head = Identifier.backtick <;> simp [equal]

theorem shiftInside_mark {mark : Char} (isMark : IsMark mark) (fresh : Bool)
    (rest : List Char) :
    shiftInside fresh (mark :: rest) = marginBefore fresh ++ mark :: shiftInside false rest :=
  shiftInside.eq_4 _ _ _ isMark.notFeed fun _ equal => absurd equal isMark.notReturn

section Escaping

variable {needsMark : Char → Bool} {mark : Char}

theorem escapeWith_append_left {plain : List Char}
    (none : ∀ character ∈ plain, needsMark character = false) (rest : List Char) :
    escapeWith needsMark mark (plain ++ rest) = plain ++ escapeWith needsMark mark rest := by
  induction plain with
  | nil => rfl
  | cons head tail induction =>
      rw [List.forall_mem_cons] at none
      rw [List.cons_append, escapeWith, none.1, induction none.2]
      rfl

/-- A line feed in front was there before. -/
theorem eq_feed_cons_of_escapeWith (isMark : IsMark mark) {body rest : List Char}
    (equal : escapeWith needsMark mark body = '\n' :: rest) : ∃ tail, body = '\n' :: tail := by
  cases body with
  | nil => cases equal
  | cons head tail =>
      rw [escapeWith] at equal
      split at equal
      · exact absurd (List.cons.inj equal).1 isMark.notFeed
      · exact ⟨tail, by rw [(List.cons.inj equal).1]⟩

theorem shiftInside_escapeWith (isMark : IsMark mark) (feed : needsMark '\n' = false)
    (carriage : needsMark '\r' = false) (blank : needsMark ' ' = false) (fresh : Bool)
    (body : List Char) :
    shiftInside fresh (escapeWith needsMark mark body) =
      escapeWith needsMark mark (shiftInside fresh body) := by
  have plainMargin : ∀ fresh, ∀ character ∈ marginBefore fresh,
      needsMark character = false := by
    intro fresh character member
    cases fresh with
    | false => cases member
    | true =>
        have isBlank : character = ' ' := by
          simpa [marginBefore, margin] using member
        rw [isBlank, blank]
  fun_induction shiftInside fresh body with
  | case1 fresh =>
      have unchanged : escapeWith needsMark mark (marginBefore fresh ++ []) =
          marginBefore fresh ++ [] := escapeWith_append_left (plainMargin fresh) []
      rw [List.append_nil] at unchanged
      rw [escapeWith, shiftInside, unchanged]
  | case2 fresh body induction => simp [escapeWith, feed, shiftInside, induction]
  | case3 fresh body induction => simp [escapeWith, feed, carriage, shiftInside, induction]
  | case4 fresh head body noFeed noReturn induction =>
      rw [escapeWith_append_left (plainMargin fresh), escapeWith, escapeWith, ← induction]
      cases needed : needsMark head with
      | true =>
          have headIsMark : IsMark head :=
            ⟨noFeed, by rintro rfl; rw [carriage] at needed; cases needed⟩
          simp only [if_true]
          rw [shiftInside_mark isMark, shiftInside_mark headIsMark]
          rfl
      | false =>
          simp only [Bool.false_eq_true, if_false]
          rw [shiftInside.eq_4]
          · exact noFeed
          · intro rest isReturn equal
            rcases eq_feed_cons_of_escapeWith isMark equal with ⟨tail, startsWithFeed⟩
            exact noReturn tail isReturn startsWithFeed

end Escaping

open Function (Semiconj)

/-- A string literal stands for the shifted string once it is shifted. -/
theorem semiconj_escapeCharacters :
    Semiconj Quoted.escapeCharacters (shiftInside false) (shiftInside false) := by
  intro body
  rw [escapeCharacters_eq, escapeCharacters_eq]
  exact (shiftInside_escapeWith ⟨by decide, by decide⟩ rfl rfl rfl false body).symm

/-- A quoted name stands for the shifted name once it is shifted. -/
theorem semiconj_doubleBackticks :
    Semiconj Identifier.doubleBackticks (shiftInside false) (shiftInside false) := by
  intro body
  rw [doubleBackticks_eq, doubleBackticks_eq]
  exact (shiftInside_escapeWith ⟨by decide, by decide⟩ rfl rfl rfl false body).symm

end Block

end Cypher
