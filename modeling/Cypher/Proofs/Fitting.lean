import Cypher.Proofs.Edges
import Cypher.Proofs.Placement
import Mathlib.Data.List.Forall2
import Mathlib.Data.Option.Basic

/-! Texts that fit layouts. A text fits a layout at a depth if it is what is written for the
layout, moved to that depth, and no line of it is empty. Texts that fit are put together in
the same way as the layouts that they fit. -/

namespace Cypher

open Block (Separates Solid Tidy Unbroken lineBreak margin moved)

namespace Layout

/-- What is written for the layout, moved to the depth. No line of it is empty. -/
structure Fits (names : Dictionary) (depth : Nat) (layout : Layout) (text : String) : Prop where
  moved : text = Block.moved depth (layout.written names)
  tidy : Tidy (layout.written names)

/-- A text that fits and has a line. -/
structure FitsLines (names : Dictionary) (depth : Nat) (layout : Layout) (text : String) :
    Prop where
  moved : text = Block.moved depth (layout.written names)
  solid : Solid (layout.written names)

variable {names : Dictionary} {depth : Nat} {layout first second : Layout}
  {text firstText secondText : String}

theorem FitsLines.fits (fits : FitsLines names depth layout text) :
    Fits names depth layout text :=
  ⟨fits.moved, fits.solid.tidy⟩

theorem Fits.lines (fits : Fits names depth layout text) (written : layout.written names ≠ "") :
    FitsLines names depth layout text :=
  ⟨fits.moved, fits.tidy.solid written⟩

/-- Only what is written for the layout matters. -/
theorem Fits.of_written (fits : Fits names depth first text)
    (same : second.written names = first.written names) : Fits names depth second text :=
  ⟨by rw [same, fits.moved], by rw [same]; exact fits.tidy⟩

theorem FitsLines.of_written (fits : FitsLines names depth first text)
    (same : second.written names = first.written names) : FitsLines names depth second text :=
  ⟨by rw [same, fits.moved], by rw [same]; exact fits.solid⟩

/-! ## On one line -/

theorem fits_of_unbroken (unbroken : Unbroken (layout.written names)) :
    Fits names depth layout (layout.written names) :=
  ⟨(Block.moved_of_unbroken depth unbroken).symm, unbroken.tidy⟩

theorem fits_text {content : String} (unbroken : Unbroken content) :
    Fits names depth (.text content) content := by
  have written : Unbroken ((text content).written names) := unbroken
  exact fits_of_unbroken written

theorem lines_text {content : String} (unbroken : Unbroken content) (written : content ≠ "") :
    FitsLines names depth (.text content) content :=
  (fits_text unbroken).lines written

theorem fits_empty : Fits names depth .empty "" :=
  fits_text (by decide)

theorem fits_unwritten (body : Layout) : Fits names depth (.unwritten body) "" := by
  have written : Unbroken ((unwritten body).written names) := (by decide : Unbroken "")
  exact fits_of_unbroken written

/-! ## One behind the other -/

theorem Fits.append (firstFits : Fits names depth first firstText)
    (secondFits : Fits names depth second secondText) :
    Fits names depth (first ++ second) (firstText ++ secondText) :=
  ⟨by rw [firstFits.moved, secondFits.moved, written_append, Block.moved_append],
    firstFits.tidy.append secondFits.tidy⟩

theorem FitsLines.append (firstFits : FitsLines names depth first firstText)
    (secondFits : Fits names depth second secondText) :
    FitsLines names depth (first ++ second) (firstText ++ secondText) :=
  ⟨(firstFits.fits.append secondFits).moved, firstFits.solid.append secondFits.tidy⟩

theorem Fits.append_lines (firstFits : Fits names depth first firstText)
    (secondFits : FitsLines names depth second secondText) :
    FitsLines names depth (first ++ second) (firstText ++ secondText) :=
  ⟨(firstFits.append secondFits.fits).moved, firstFits.tidy.append_solid secondFits.solid⟩

/-! ## Lists -/

section Lists

variable {layouts : List Layout} {texts : List String}

theorem map_moved_of_fits (fits : List.Forall₂ (Fits names depth) layouts texts) :
    texts = (layouts.map (written names)).map (Block.moved depth) := by
  induction fits with
  | nil => rfl
  | cons head _ induction => rw [List.map_cons, List.map_cons, ← induction, head.moved]

theorem fits_joined {separator : String} (unbroken : Unbroken separator)
    (fits : List.Forall₂ (Fits names depth) layouts texts) :
    Fits names depth (joined separator layouts) (separator.intercalate texts) := by
  have tidy : ∀ text ∈ layouts.map (written names), Tidy text := by
    induction fits with
    | nil => simp
    | cons head _ induction => exact List.forall_mem_cons.mpr ⟨head.tidy, induction⟩
  constructor
  · rw [written_joined, Block.moved_intercalate, ← map_moved_of_fits fits,
      Block.moved_of_unbroken depth unbroken]
  · rw [written_joined]
    exact Block.tidy_intercalate unbroken tidy

theorem lines_joined {separator : String} (separates : Separates separator)
    (something : layouts ≠ []) (fits : List.Forall₂ (FitsLines names depth) layouts texts) :
    FitsLines names depth (joined separator layouts)
      ((Block.moved depth separator).intercalate texts) := by
  have solid : ∀ text ∈ layouts.map (written names), Solid text := by
    clear something
    induction fits with
    | nil => simp
    | cons head _ induction => exact List.forall_mem_cons.mpr ⟨head.solid, induction⟩
  have fitsAll : List.Forall₂ (Fits names depth) layouts texts :=
    fits.imp fun _ _ lines => lines.fits
  constructor
  · rw [written_joined, Block.moved_intercalate, ← map_moved_of_fits fitsAll]
  · rw [written_joined]
    exact Block.solid_intercalate separates (by simpa using something) solid

end Lists

/-! ## Below each other -/

theorem intercalate_lineBreak (first : String) (rest : List String) :
    (lineBreak depth).intercalate (first :: rest) = first ++ Placement.below depth rest := by
  induction rest generalizing first with
  | nil => rw [String.intercalate_singleton, Placement.below, String.append_empty]
  | cons next rest induction =>
      rw [String.intercalate_cons_cons, induction, Placement.below]
      simp only [String.append_assoc]

/-- The first line, and the others below it. -/
theorem lines_lines {rest : List Layout} {texts : List String}
    (firstFits : FitsLines names depth first firstText)
    (restFits : List.Forall₂ (FitsLines names depth) rest texts) :
    FitsLines names depth (lines (first :: rest)) (firstText ++ Placement.below depth texts) := by
  have separates : Separates "\n" := Block.separates_lineBreak 0
  have feed : Block.moved depth "\n" = lineBreak depth := Block.moved_lineBreak depth 0
  have together := lines_joined separates (List.cons_ne_nil _ _) (.cons firstFits restFits)
  rwa [feed, intercalate_lineBreak] at together

theorem lines_indent (fits : FitsLines names (depth + 1) layout text) :
    FitsLines names depth (indent layout) (margin ++ text) := by
  have unbroken : Unbroken margin := by decide
  constructor
  · rw [written, Block.indent_eq fits.solid, Block.moved_append, Block.moved_moved,
      Block.moved_of_unbroken depth unbroken, fits.moved]
  · exact Block.solid_indent fits.solid

/-- A body on lines of its own, one level deeper than the lines around it. -/
theorem lines_nested {closing : String} (unbroken : Unbroken closing) (closes : closing ≠ "")
    (firstFits : FitsLines names depth first firstText)
    (bodyFits : FitsLines names (depth + 1) layout text) :
    FitsLines names depth (lines [first, indent layout, .text closing])
      (Placement.nested firstText closing depth text) := by
  have together := lines_lines firstFits
    (.cons (lines_indent bodyFits) (.cons (lines_text unbroken closes) .nil))
  have placed : firstText ++ Placement.below depth [margin ++ text, closing] =
      Placement.nested firstText closing depth text := by
    simp only [Placement.below, Placement.nested, ← Block.lineBreak_append_margin,
      String.append_assoc, String.append_empty]
  rwa [placed] at together

theorem lines_block (fits : FitsLines names (depth + 1) layout text) :
    FitsLines names depth (block layout) (Placement.block depth text) := by
  have opening : "\x7b\n" = "\x7b" ++ "\n" := by decide
  have closing : "\n\x7d" = "\n" ++ "\x7d" := by decide
  have openingFits : FitsLines names depth (.text "\x7b") "\x7b" :=
    lines_text (by decide) (by decide)
  have unbroken : Unbroken "\x7d" := by decide
  have together := lines_nested unbroken (by decide) openingFits fits
  apply together.of_written
  rw [block, written_append, written_append, written_text, written_text, opening, closing,
    lines, written_joined]
  simp [String.append_assoc]

theorem lines_iterating (firstFits : Fits names depth first firstText)
    (bodyFits : FitsLines names (depth + 1) layout text) :
    FitsLines names depth (first ++ " |\n" ++ indent layout ++ "\n)")
      (Placement.nested (firstText ++ " |") ")" depth text) := by
  have opening : " |\n" = " |" ++ "\n" := by decide
  have closing : "\n)" = "\n" ++ ")" := by decide
  have openingFits : FitsLines names depth (.text " |") " |" :=
    lines_text (by decide) (by decide)
  have unbroken : Unbroken ")" := by decide
  have together := lines_nested unbroken (by decide) (firstFits.append_lines openingFits) bodyFits
  apply together.of_written
  simp only [written_append, written_text, opening, closing, lines, written_joined]
  simp [String.append_assoc]

section Assignments

variable {items : List Layout} {texts : List String}

/-- One assignment on each line, below the keyword. -/
theorem lines_assigned {keyword : String} (unbroken : Unbroken keyword) (leads : keyword ≠ "")
    (something : items ≠ []) (fits : List.Forall₂ (FitsLines names (depth + 1)) items texts) :
    FitsLines names depth (lines [.text keyword, indent (joined ",\n" items)])
      (Placement.assigned keyword depth texts) := by
  have comma : Unbroken "," := by decide
  have separates : Separates ("," ++ lineBreak 0) :=
    (Block.separates_lineBreak 0).append comma.tidy
  have separator : Block.moved (depth + 1) ("," ++ lineBreak 0) = "," ++ lineBreak (depth + 1) := by
    rw [Block.moved_append, Block.moved_of_unbroken _ comma, Block.moved_lineBreak,
      Nat.add_zero]
  have body := lines_joined separates something fits
  have together := lines_lines (lines_text unbroken leads) (.cons (lines_indent body) .nil)
  have placed : keyword ++ Placement.below depth
      [margin ++ ("," ++ lineBreak (depth + 1)).intercalate texts] =
        Placement.assigned keyword depth texts := by
    simp only [Placement.below, Placement.assigned, ← Block.lineBreak_append_margin,
      String.append_assoc, String.append_empty]
  rwa [separator, placed] at together

theorem lines_set (something : items ≠ [])
    (fits : List.Forall₂ (FitsLines names (depth + 1)) items texts) :
    FitsLines names depth ("SET\n" ++ indent (joined ",\n" items))
      (Placement.assigned "SET" depth texts) := by
  have opening : "SET\n" = "SET" ++ "\n" := by decide
  have together := lines_assigned (by decide : Unbroken "SET") (by decide) something fits
  apply together.of_written
  rw [written_append, written_text, opening, lines, written_joined]
  simp

theorem lines_assignments {keyword : String} (unbroken : Unbroken keyword) (leads : keyword ≠ "")
    (fits : List.Forall₂ (FitsLines names (depth + 1)) items texts) :
    List.Forall₂ (FitsLines names depth) (assignments keyword items).toList
      (Placement.assignments keyword depth texts) := by
  cases fits with
  | nil => exact .nil
  | cons head tail =>
      have together := lines_assigned unbroken leads (List.cons_ne_nil _ _) (.cons head tail)
      refine .cons (together.of_written ?_) .nil
      rw [lines, written_joined]
      simp [written, String.append_assoc]

end Assignments

end Layout

end Cypher
