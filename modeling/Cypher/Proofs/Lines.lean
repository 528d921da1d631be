import Cypher.Proofs.Margins
import Mathlib.Data.List.Basic

/-! Blocks line by line. A text above another one is indented without regard to it, unless
its last line is empty or ends with a carriage return. Text that has line feeds alone between
its lines and none at the end is thus indented one line at a time, as often as there are blocks
around it, and every level can be taken back. -/

namespace Cypher.Block

/-! ## Pieces -/

/-- What stands between the line feeds. -/
def pieces (text : String) : List (List Char) :=
  text.toList.splitOn '\n'

/-- The text with these pieces. -/
def ofPieces (lines : List (List Char)) : String :=
  String.ofList (['\n'].intercalate lines)

theorem ofPieces_singleton (line : List Char) : ofPieces [line] = String.ofList line := by
  simp [ofPieces]

theorem ofPieces_cons_cons (line next : List Char) (rest : List (List Char)) :
    ofPieces (line :: next :: rest) = String.ofList line ++ "\n" ++ ofPieces (next :: rest) := by
  simp [ofPieces, ← String.toList_inj, List.intercalate_cons_cons]

theorem ofPieces_pieces (text : String) : ofPieces (pieces text) = text := by
  rw [ofPieces, pieces, List.intercalate_splitOn, String.ofList_toList]

theorem pieces_ofPieces {lines : List (List Char)} (noFeed : ∀ line ∈ lines, '\n' ∉ line)
    (written : lines ≠ []) : pieces (ofPieces lines) = lines := by
  rw [pieces, ofPieces, String.toList_ofList]
  exact List.splitOn_intercalate '\n' noFeed written

theorem notMem_of_mem_pieces (text : String) : ∀ line ∈ pieces text, '\n' ∉ line := by
  rw [pieces]
  induction text.toList with
  | nil => simp
  | cons head tail induction =>
      rw [splitOn_cons]
      split
      · exact List.forall_mem_cons.mpr ⟨List.not_mem_nil, induction⟩
      · next noFeed =>
          cases lines : tail.splitOn '\n' with
          | nil => simp
          | cons first rest =>
              rw [lines, List.forall_mem_cons] at induction
              refine List.forall_mem_cons.mpr ⟨?_, induction.2⟩
              rw [List.mem_cons, not_or]
              exact ⟨Ne.symm noFeed, induction.1⟩

theorem length_pieces (text : String) :
    (pieces text).length = text.toList.count '\n' + 1 := by
  rw [pieces]
  induction text.toList with
  | nil => rfl
  | cons head tail induction =>
      rw [splitOn_cons, List.count_cons]
      split
      · next isFeed => simp [isFeed, induction]
      · next noFeed => simp [noFeed, induction]

/-! ## One line -/

/-- The line behind the margins of `depth` levels. An empty line stays empty. -/
def indentedLine (depth : Nat) (line : List Char) : List Char :=
  if line = [] then [] else marginAt depth ++ line

/-- The line without the margin of one level, which every line has that is not empty. -/
def outdentedLine? (line : List Char) : Option (List Char) :=
  if line = [] then some [] else margin.toList.isPrefixOf? line

/-- The text with every line moved to the left by one level. -/
def outdent? (text : String) : Option String :=
  ofPieces <$> (pieces text).mapM outdentedLine?

example : outdent? "    a\n\n      b" = some "a\n\n  b" := by cbv
example : outdent? "    a\n  b" = none := by cbv

theorem indentedLine_eq_nil_iff (depth : Nat) (line : List Char) :
    indentedLine depth line = [] ↔ line = [] := by
  rw [indentedLine]
  split
  · next empty => simp [empty]
  · next filled => simp [filled]

theorem indentedLine_zero (line : List Char) : indentedLine 0 line = line := by
  rw [indentedLine]
  split
  · next empty => exact empty.symm
  · rfl

theorem indentedLine_indentedLine (depth more : Nat) (line : List Char) :
    indentedLine depth (indentedLine more line) = indentedLine (depth + more) line := by
  by_cases empty : line = []
  · rw [empty]
    rfl
  · have filled := mt (indentedLine_eq_nil_iff more line).mp empty
    rw [indentedLine, if_neg filled]
    simp only [indentedLine, if_neg empty, ← List.append_assoc, marginAt_append_marginAt]

theorem notMem_indentedLine (depth : Nat) {line : List Char} (noFeed : '\n' ∉ line) :
    '\n' ∉ indentedLine depth line := by
  rw [indentedLine]
  split
  · exact List.not_mem_nil
  · rw [List.mem_append, not_or]
    exact ⟨notMem_marginAt depth, noFeed⟩

theorem outdentedLine?_indentedLine (line : List Char) :
    outdentedLine? (indentedLine 1 line) = some line := by
  by_cases empty : line = []
  · rw [empty]
    rfl
  · have filled := mt (indentedLine_eq_nil_iff 1 line).mp empty
    rw [outdentedLine?, if_neg filled, indentedLine, if_neg empty]
    rfl

/-! ## Well broken lines -/

/-- Line feeds stand between the lines only. No line in front of one ends with a carriage
return, and the last line is empty only if there is no other. -/
inductive WellBroken : List (List Char) → Prop where
  | single {line : List Char} (noFeed : '\n' ∉ line) : WellBroken [line]
  | cons {line : List Char} {rest : List (List Char)} (noFeed : '\n' ∉ line)
      (noReturn : ¬ ['\r'] <:+ line) (more : rest ≠ [[]]) (wellBroken : WellBroken rest) :
      WellBroken (line :: rest)

namespace WellBroken

variable {lines : List (List Char)}

theorem ne_nil (wellBroken : WellBroken lines) : lines ≠ [] := by
  cases wellBroken <;> exact List.cons_ne_nil _ _

theorem notMem (wellBroken : WellBroken lines) : ∀ line ∈ lines, '\n' ∉ line := by
  induction wellBroken with
  | single noFeed => exact List.forall_mem_singleton.mpr noFeed
  | cons noFeed _ _ _ induction => exact List.forall_mem_cons.mpr ⟨noFeed, induction⟩

theorem ofPieces_cons (wellBroken : WellBroken lines) (line : List Char) :
    ofPieces (line :: lines) = String.ofList line ++ "\n" ++ ofPieces lines := by
  cases wellBroken <;> exact ofPieces_cons_cons line _ _

theorem ofPieces_ne_empty (wellBroken : WellBroken lines) (more : lines ≠ [[]]) :
    ofPieces lines ≠ "" := by
  intro empty
  have same := pieces_ofPieces wellBroken.notMem wellBroken.ne_nil
  rw [empty] at same
  exact more same.symm

/-- Lines are well broken if the text has no carriage return in front of a line feed and no
line feed at its end. -/
theorem of_ofPieces (written : lines ≠ []) (noFeed : ∀ line ∈ lines, '\n' ∉ line)
    (noReturn : ¬ ['\r', '\n'] <:+: (ofPieces lines).toList)
    (noEnd : ¬ ['\n'] <:+ (ofPieces lines).toList) : WellBroken lines := by
  induction lines with
  | nil => exact absurd rfl written
  | cons line rest induction =>
      rw [List.forall_mem_cons] at noFeed
      cases rest with
      | nil => exact .single noFeed.1
      | cons next rest =>
          have whole : (ofPieces (line :: next :: rest)).toList =
              line ++ '\n' :: (ofPieces (next :: rest)).toList := by
            simp [ofPieces_cons_cons]
          rw [whole] at noReturn noEnd
          have behind : (ofPieces (next :: rest)).toList <:+
              line ++ '\n' :: (ofPieces (next :: rest)).toList :=
            (List.suffix_cons _ _).trans (List.suffix_append _ _)
          refine .cons noFeed.1 ?_ ?_ ?_
          · rintro ⟨front, rfl⟩
            apply noReturn
            exact ⟨front, (ofPieces (next :: rest)).toList, by simp⟩
          · intro empty
            apply noEnd
            rw [empty]
            exact List.suffix_append _ _
          · apply induction (List.cons_ne_nil _ _) noFeed.2
            · exact fun found => noReturn (found.trans behind.isInfix)
            · exact fun found => noEnd (found.trans behind)

theorem pieces {text : String} (noReturn : ¬ ['\r', '\n'] <:+: text.toList)
    (noEnd : ¬ ['\n'] <:+ text.toList) : WellBroken (pieces text) := by
  rw [← ofPieces_pieces text] at noReturn noEnd
  exact of_ofPieces (List.splitOn_ne_nil _ _) (notMem_of_mem_pieces text) noReturn noEnd

theorem map_indentedLine (wellBroken : WellBroken lines) (depth : Nat) :
    WellBroken (lines.map (indentedLine depth)) := by
  induction wellBroken with
  | single noFeed => exact .single (notMem_indentedLine depth noFeed)
  | @cons line rest noFeed noReturn more _ induction =>
      refine .cons (notMem_indentedLine depth noFeed) ?_ ?_ induction
      · intro ends
        apply noReturn
        rw [indentedLine] at ends
        split at ends
        · next empty => rwa [empty]
        · next filled =>
            have long := List.length_pos_iff.mpr filled
            exact List.suffix_of_suffix_length_le ends (List.suffix_append _ _) long
      · intro single
        apply more
        rcases List.map_eq_singleton_iff.mp single with ⟨next, rfl, empty⟩
        rw [(indentedLine_eq_nil_iff depth next).mp empty]

end WellBroken

/-! ## Indentation -/

theorem shift_of_no_feed (fresh : Bool) {line : List Char} (noFeed : '\n' ∉ line) :
    shift fresh line = if line = [] then [] else marginBefore fresh ++ line := by
  induction line generalizing fresh with
  | nil => rfl
  | cons head tail induction =>
      rw [List.mem_cons, not_or] at noFeed
      have onward : shift false tail = tail := by
        rw [induction false noFeed.2]
        split
        · next empty => exact empty.symm
        · rfl
      rw [shift.eq_4, onward, if_neg (List.cons_ne_nil _ _)]
      · exact Ne.symm noFeed.1
      · rintro rest - rfl
        exact noFeed.2 List.mem_cons_self

theorem indent_ofList {line : List Char} (noFeed : '\n' ∉ line) :
    indent (String.ofList line) = String.ofList (indentedLine 1 line) := by
  rw [← String.toList_inj, toList_indent, String.toList_ofList, String.toList_ofList,
    shift_of_no_feed true noFeed]
  rfl

/-- Texts below each other are indented one by one, unless the last line of the upper one is
empty or ends with a carriage return. -/
theorem indent_above {upper lower : String} (noFeed : ¬ ['\n'] <:+ upper.toList)
    (noReturn : ¬ ['\r'] <:+ upper.toList) (written : lower ≠ "") :
    indent (upper ++ "\n" ++ lower) = indent upper ++ "\n" ++ indent lower := by
  rcases upper.toList.eq_nil_or_concat' with empty | ⟨front, last, ends⟩
  · have more : lower.toList.isEmpty = false := by simpa using written
    rw [String.toList_eq_nil_iff.mp empty, ← String.toList_inj]
    simp [shift, more]
  · have ended (mark : Char) (same : last = mark) : [mark] <:+ upper.toList :=
      ⟨front, by rw [ends, same]⟩
    exact indent_below ⟨mt (ended '\n') noFeed, mt (ended '\r') noReturn⟩ ends written

theorem indent_ofPieces {lines : List (List Char)} (wellBroken : WellBroken lines) :
    indent (ofPieces lines) = ofPieces (lines.map (indentedLine 1)) := by
  induction wellBroken with
  | @single line noFeed =>
      rw [List.map_singleton, ofPieces_singleton, ofPieces_singleton, indent_ofList noFeed]
  | @cons line rest noFeed noReturn more wellBroken induction =>
      have noFeedAtEnd : ¬ ['\n'] <:+ (String.ofList line).toList := by
        rw [String.toList_ofList]
        exact fun ends => noFeed (ends.subset (List.mem_singleton_self _))
      have noReturnAtEnd : ¬ ['\r'] <:+ (String.ofList line).toList := by
        rwa [String.toList_ofList]
      rw [wellBroken.ofPieces_cons,
        indent_above noFeedAtEnd noReturnAtEnd (wellBroken.ofPieces_ne_empty more),
        indent_ofList noFeed, induction, List.map_cons,
        (wellBroken.map_indentedLine 1).ofPieces_cons]

theorem indent_iterate_ofPieces {lines : List (List Char)} (wellBroken : WellBroken lines)
    (depth : Nat) :
    indent^[depth] (ofPieces lines) = ofPieces (lines.map (indentedLine depth)) := by
  induction depth with
  | zero =>
      have same : indentedLine 0 = id := funext indentedLine_zero
      rw [same, List.map_id]
      rfl
  | succ depth induction =>
      have once : indentedLine 1 ∘ indentedLine depth = indentedLine (depth + 1) := by
        funext line
        rw [Function.comp_apply, indentedLine_indentedLine, Nat.add_comm]
      rw [Function.iterate_succ_apply', induction,
        indent_ofPieces (wellBroken.map_indentedLine depth), List.map_map, once]

section Broken

variable {text : String} (noReturn : ¬ ['\r', '\n'] <:+: text.toList)
  (noEnd : ¬ ['\n'] <:+ text.toList)

include noReturn noEnd

theorem pieces_indent_iterate (depth : Nat) :
    pieces (indent^[depth] text) = (pieces text).map (indentedLine depth) := by
  have wellBroken := WellBroken.pieces noReturn noEnd
  have moved := wellBroken.map_indentedLine depth
  have whole := indent_iterate_ofPieces wellBroken depth
  rw [ofPieces_pieces] at whole
  rw [whole, pieces_ofPieces moved.notMem moved.ne_nil]

theorem pieces_indent : pieces (indent text) = (pieces text).map (indentedLine 1) :=
  pieces_indent_iterate noReturn noEnd 1

theorem count_indent : (indent text).toList.count '\n' = text.toList.count '\n' := by
  have before := length_pieces text
  have behind := length_pieces (indent text)
  rw [pieces_indent noReturn noEnd, List.length_map] at behind
  omega

theorem outdent?_indent : outdent? (indent text) = some text := by
  have back : outdentedLine? ∘ indentedLine 1 = pure := funext outdentedLine?_indentedLine
  rw [outdent?, pieces_indent noReturn noEnd, List.mapM_map, back, List.mapM_pure]
  exact congrArg some ((congrArg ofPieces (List.map_id _)).trans (ofPieces_pieces text))

end Broken

/-- Indentation keeps the line feeds of a text without a carriage return in front of one and
without one at its end, can be taken back, and `depth` levels put four blanks for each level in
front of every line that is not empty. Of two texts below each other, each is indented on its
own, unless the upper one ends with a line feed or a carriage return. -/
theorem indented_by_lines (text : String) :
    (¬ ['\r', '\n'] <:+: text.toList → ¬ ['\n'] <:+ text.toList →
      (indent text).toList.count '\n' = text.toList.count '\n' ∧
      outdent? (indent text) = some text ∧
      ∀ depth, pieces (indent^[depth] text) = (pieces text).map (indentedLine depth)) ∧
    (¬ ['\n'] <:+ text.toList → ¬ ['\r'] <:+ text.toList → ∀ lower ≠ "",
      indent (text ++ "\n" ++ lower) = indent text ++ "\n" ++ indent lower) := by
  constructor
  · intro noReturn noEnd
    exact ⟨count_indent noReturn noEnd, outdent?_indent noReturn noEnd,
      pieces_indent_iterate noReturn noEnd⟩
  · intro noFeed noReturn lower written
    exact indent_above noFeed noReturn written

/-- A text with an empty line, a line with blanks in front and a carriage return inside a line,
above a text of line feeds alone. -/
theorem indented_by_lines_return :
    let text := "a\n\n  b\rc"
    let lower := "\n\r\n"
    (¬ ['\r', '\n'] <:+: text.toList ∧ ¬ ['\n'] <:+ text.toList ∧
      ¬ ['\r'] <:+ text.toList ∧ lower ≠ "") ∧
    (indent text).toList.count '\n' = 2 ∧
    outdent? (indent text) = some text ∧
    pieces (indent^[2] text) = [marginAt 2 ++ ['a'], [], marginAt 2 ++ "  b\rc".toList] ∧
    indent (text ++ "\n" ++ lower) = "    a\n\n      b\rc\n\n" := by
  intro text lower
  have noReturn : ¬ ['\r', '\n'] <:+: text.toList := by
    simp [text, List.infix_cons_iff]
  have noEnd : ¬ ['\n'] <:+ text.toList := by decide
  have noReturnAtEnd : ¬ ['\r'] <:+ text.toList := by decide
  have written : lower ≠ "" := by decide
  rcases indented_by_lines text with ⟨alone, above⟩
  rcases alone noReturn noEnd with ⟨feeds, back, lines⟩
  refine ⟨⟨noReturn, noEnd, noReturnAtEnd, written⟩, feeds.trans (by decide), back,
    (lines 2).trans (by decide), ?_⟩
  rw [above noEnd noReturnAtEnd lower written]
  decide

end Cypher.Block
