import Cypher.Proofs.Fitting
import Cypher.Proofs.Words

/-! Texts that fit composed layouts: one lemma for each way in which the layouts of phrases
are put together. -/

namespace Cypher

open Block (Separates Solid Tidy Unbroken lineBreak moved)

/-! ## Keywords and numbers -/

namespace Block

/-- A text of characters of one kind is on one line if line ends are of another kind. -/
theorem Unbroken.of_forall {inside : Char → Prop} {text : String}
    (allInside : ∀ character ∈ text.toList, inside character) (feed : ¬ inside '\n')
    (carriage : ¬ inside '\r') : Unbroken text :=
  ⟨fun member => feed (allInside _ member), fun member => carriage (allInside _ member)⟩

theorem unbroken_natural (number : Nat) : Unbroken (Decimal.natural number) :=
  .of_forall (fun _ => Decimal.isDigit_of_mem_natural) (by decide) (by decide)

theorem unbroken_boundText (bound : Option Nat) : Unbroken (boundText bound) := by
  cases bound with
  | none => decide
  | some bound => exact unbroken_natural bound

theorem unbroken_pathLength (length : PathLength) : Unbroken length.text := by
  have star : Unbroken "*" := by decide
  have dots : Unbroken ".." := by decide
  rcases length with _ | length | ⟨_ | least, _ | greatest⟩
  · exact star
  · exact (unbroken_append _ _).mpr ⟨star, unbroken_natural length⟩
  · exact star
  all_goals
    rw [PathLength.text]
    · simp only [unbroken_append]
      exact ⟨⟨⟨star, unbroken_boundText _⟩, dots⟩, unbroken_boundText _⟩
    · simp

theorem unbroken_quantifier (quantifier : Quantifier) : Unbroken quantifier.text := by
  rcases quantifier with _ | _ | count | ⟨_ | least, _ | greatest⟩
  · decide
  · decide
  · rw [Quantifier.text, unbroken_append, unbroken_append]
    exact ⟨⟨by decide, unbroken_natural count⟩, by decide⟩
  · decide
  all_goals
    rw [Quantifier.text]
    · simp only [unbroken_append]
      exact ⟨⟨⟨⟨by decide, unbroken_boundText _⟩, by decide⟩, unbroken_boundText _⟩, by decide⟩
    · simp

theorem unbroken_selector (selector : PathSelector) : Unbroken selector.keyword := by
  cases selector with
  | shortest count =>
      rw [PathSelector.keyword, unbroken_append]
      exact ⟨by decide, unbroken_natural count⟩
  | allShortest => decide
  | any => decide
  | shortestGroups count =>
      rw [PathSelector.keyword, unbroken_append, unbroken_append]
      exact ⟨⟨by decide, unbroken_natural count⟩, by decide⟩

theorem unbroken_comparator (comparator : Comparator) : Unbroken comparator.keyword := by
  cases comparator with
  | isNormalized negated form =>
      rcases negated with _ | _ <;> rcases form with _ | _ | _ | _ | _ <;> decide
  | _ => decide

theorem unbroken_subqueryKeyword (kind : SubqueryKind) : Unbroken kind.keyword := by
  cases kind <;> decide

end Block

namespace Layout

variable {names : Dictionary} {depth : Nat} {layouts : List Layout} {texts : List String}
  {layout? : Option Layout} {text? : Option String}

/-! ## Parts on a line -/

theorem fits_optional {lead : String} (unbroken : Unbroken lead)
    (fits : Option.Rel (Fits names depth) layout? text?) :
    Fits names depth (optional lead layout?) (Placement.led lead text?) := by
  cases fits with
  | none => exact fits_empty
  | some fits => exact (fits_text unbroken).append fits

theorem fits_listed {opening closing : String} (opens : Unbroken opening)
    (closes : Unbroken closing) (fits : List.Forall₂ (Fits names depth) layouts texts) :
    Fits names depth (opening ++ joined ", " layouts ++ closing)
      (opening ++ ", ".intercalate texts ++ closing) :=
  ((fits_text opens).append (fits_joined (by decide) fits)).append (fits_text closes)

theorem fits_map (fits : List.Forall₂ (Fits names depth) layouts texts) :
    Fits names depth (Layout.map layouts) (Value.mapText texts) := by
  cases fits with
  | nil => exact fits_text (by decide)
  | cons head tail => exact fits_listed (by decide) (by decide) (.cons head tail)

theorem fits_properties {properties : Option (List Layout)} {texts : Option (List String)}
    (fits : Option.Rel (List.Forall₂ (Fits names depth)) properties texts) :
    Option.Rel (Fits names depth) (properties.map Layout.map) (texts.map Value.mapText) := by
  cases fits with
  | none => exact .none
  | some fits => exact .some (fits_map fits)

theorem fits_getD {default : String} (unbroken : Unbroken default) {layout? : Option Layout}
    {text? : Option String} (fits : Option.Rel (Fits names depth) layout? text?) :
    Fits names depth (layout?.getD default) (text?.getD default) := by
  cases fits with
  | none => exact fits_text unbroken
  | some fits => exact fits

theorem fits_negation (isConnective : Bool) {operand : Layout} {text : String}
    (fits : Fits names depth operand text) :
    Fits names depth
      (if isConnective then "NOT " ++ operand else "NOT (" ++ operand ++ ")")
      (if isConnective then "NOT " ++ text else "NOT (" ++ text ++ ")") := by
  cases isConnective with
  | true => exact (fits_text (by decide)).append fits
  | false => exact ((fits_text (by decide)).append fits).append (fits_text (by decide))

theorem fits_aliased {value : Layout} {newName : Variable} {text : String}
    (unbroken : Unbroken (names.variableText newName)) (fits : Fits names depth value text) :
    Fits names depth (aliased value newName)
      (if names.variableText newName = text then text
        else text ++ " AS " ++ names.variableText newName) := by
  have nameFits : Fits names depth (.mention newName) (names.variableText newName) :=
    fits_of_unbroken unbroken
  have other : Fits names depth (value ++ " AS " ++ .mention newName)
      (text ++ " AS " ++ names.variableText newName) :=
    (fits.append (fits_text (by decide))).append nameFits
  have same : names.variableText newName = text ↔
      names.variableText newName = value.written names := by
    rw [fits.moved]
    exact Block.eq_moved_iff depth unbroken
  by_cases kept : names.variableText newName = value.written names
  · rw [if_pos (same.mpr kept)]
    exact fits.of_written (if_pos kept)
  · rw [if_neg (mt same.mp kept)]
    exact other.of_written (if_neg kept)

theorem fits_operation {operator : String} (unbroken : Unbroken operator)
    (fits : List.Forall₂ (Fits names depth) layouts texts) :
    Fits names depth (Layout.operation operator layouts) (Placement.operation operator texts) := by
  have separator : Unbroken (" " ++ operator ++ " ") := by
    rw [Block.unbroken_append, Block.unbroken_append]
    exact ⟨⟨by decide, unbroken⟩, by decide⟩
  exact ((fits_text (by decide)).append (fits_joined separator fits)).append
    (fits_text (by decide))

theorem fits_projection (star : Bool) (fits : List.Forall₂ (Fits names depth) layouts texts) :
    Fits names depth (Layout.projection star layouts) (Placement.projection star texts) := by
  have all : Fits names depth (.text "*") "*" := fits_text (by decide)
  cases star with
  | true => exact fits_joined (by decide) (.cons all fits)
  | false =>
      cases fits with
      | nil => exact fits_joined (by decide) (.cons all .nil)
      | cons head tail => exact fits_joined (by decide) (.cons head tail)

theorem lines_projected {keyword : String} (unbroken : Unbroken keyword) (leads : keyword ≠ "")
    (distinct : Bool) {columns : Layout} {text : String} (fits : Fits names depth columns text) :
    FitsLines names depth (Layout.projected keyword distinct columns)
      (Placement.projected keyword distinct text) := by
  have modifier : Unbroken (if distinct then "DISTINCT " else "") := by cases distinct <;> decide
  exact (((lines_text unbroken leads).append (fits_text (by decide))).append
    (fits_text modifier)).append fits

theorem lines_condition (fits : Option.Rel (Fits names depth) layout? text?) :
    List.Forall₂ (FitsLines names depth) (Layout.condition layout?).toList
      (Placement.condition text?) := by
  cases fits with
  | none => exact .nil
  | some fits => exact .cons ((lines_text (by decide) (by decide)).append fits) .nil

theorem lines_toList {layout? : Option Layout} {text? : Option String}
    (fits : Option.Rel (FitsLines names depth) layout? text?) :
    List.Forall₂ (FitsLines names depth) layout?.toList text?.toList := by
  cases fits with
  | none => exact .nil
  | some fits => exact .cons fits .nil

theorem lines_rowOrder {skip limit : Option Layout} {skipText limitText : Option String}
    (keys : List.Forall₂ (Fits names depth) layouts texts)
    (skips : Option.Rel (Fits names depth) skip skipText)
    (limits : Option.Rel (Fits names depth) limit limitText) :
    List.Forall₂ (FitsLines names depth)
      ((if layouts.isEmpty then [] else ["ORDER BY " ++ joined ", " layouts]) ++
        (skip.map (after "SKIP ")).toList ++ (limit.map (after "LIMIT ")).toList)
      (Placement.rowOrder texts skipText limitText) := by
  have keyLine : List.Forall₂ (FitsLines names depth)
      (if layouts.isEmpty then [] else ["ORDER BY " ++ joined ", " layouts])
      (if texts.isEmpty then [] else ["ORDER BY " ++ ", ".intercalate texts]) := by
    cases keys with
    | nil => exact .nil
    | cons head tail =>
        exact .cons ((lines_text (by decide) (by decide)).append
          (fits_joined (by decide) (.cons head tail))) .nil
  have optionalLine : ∀ {keyword : String} {rows : Option Layout} {count : Option String},
      Unbroken keyword → keyword ≠ "" → Option.Rel (Fits names depth) rows count →
        List.Forall₂ (FitsLines names depth) (rows.map (after keyword)).toList
          (count.map (keyword ++ ·)).toList := by
    intro keyword rows count unbroken leads fits
    cases fits with
    | none => exact .nil
    | some fits => exact .cons ((lines_text unbroken leads).append fits) .nil
  have skipLine := optionalLine (by decide : Unbroken "SKIP ") (by decide) skips
  have limitLine := optionalLine (by decide : Unbroken "LIMIT ") (by decide) limits
  exact List.rel_append (List.rel_append keyLine skipLine) limitLine

theorem lines_deletion (detach : Bool) (fits : List.Forall₂ (Fits names depth) layouts texts) :
    Option.Rel (FitsLines names depth)
      (if layouts.isEmpty then none
        else some ((if detach then "DETACH DELETE " else "DELETE ") ++ joined ", " layouts))
      (Placement.deletion detach texts) := by
  have unbroken : Unbroken (if detach then "DETACH DELETE " else "DELETE ") := by
    cases detach <;> decide
  cases fits with
  | nil => exact .none
  | cons head tail =>
      refine .some ((lines_text unbroken ?_).append (fits_joined (by decide) (.cons head tail)))
      cases detach <;> decide

theorem lines_branch {condition result : Layout} {conditionText resultText : String}
    (conditionFits : Fits names depth condition conditionText)
    (resultFits : Fits names depth result resultText) :
    FitsLines names depth (Layout.branch condition (some result))
      ("WHEN " ++ conditionText ++ Placement.led " THEN " (some resultText)) := by
  have lead : FitsLines names depth ("WHEN " ++ condition ++ " THEN ")
      ("WHEN " ++ conditionText ++ " THEN ") :=
    ((lines_text (by decide) (by decide)).append conditionFits).append (fits_text (by decide))
  rw [Placement.led, ← String.append_assoc]
  exact lead.append resultFits

theorem fits_transactions {rows : Option (Option Layout)} {count : Option (Option String)}
    (fits : Option.Rel (Option.Rel (Fits names depth)) rows count) :
    Fits names depth (Layout.transactions rows) (Placement.transactions count) := by
  cases fits with
  | none => exact fits_empty
  | some fits =>
      cases fits with
      | none => exact fits_text (by decide)
      | some fits => exact ((fits_text (by decide)).append fits).append (fits_text (by decide))

/-! ## Texts of several lines -/

theorem lines_choice {subject default : Option Layout} {subjectText defaultText : Option String}
    (subjectFits : Option.Rel (Fits names depth) subject subjectText)
    (branchesFit : List.Forall₂ (FitsLines names (depth + 1)) layouts texts)
    (defaultFits : Option.Rel (Fits names (depth + 1)) default defaultText) :
    FitsLines names depth (Layout.choice subject layouts default)
      (Placement.choice subjectText depth
        (texts ++ (defaultText.map ("ELSE " ++ ·)).toList)) := by
  have keyword : FitsLines names depth (after "CASE" (optional " " subject))
      ("CASE" ++ Placement.led " " subjectText) :=
    (lines_text (by decide) (by decide)).append (fits_optional (by decide) subjectFits)
  have closes : Unbroken "END" := by decide
  have defaultLine : List.Forall₂ (FitsLines names (depth + 1))
      (default.map (after "ELSE ")).toList (defaultText.map ("ELSE " ++ ·)).toList := by
    cases defaultFits with
    | none => exact .nil
    | some fits => exact .cons ((lines_text (by decide) (by decide)).append fits) .nil
  have around : ∀ {entries : List Layout} {entryTexts : List String},
      List.Forall₂ (FitsLines names (depth + 1)) entries entryTexts →
        FitsLines names depth
          (lines (after "CASE" (optional " " subject) ::
            (if entries.isEmpty then [] else [indent (lines entries)]) ++ [text "END"]))
          (Placement.choice subjectText depth entryTexts) := by
    intro entries entryTexts fits
    have closing : FitsLines names depth (text "END") "END" := lines_text closes (by decide)
    cases fits with
    | nil =>
        have placed : "CASE" ++ Placement.led " " subjectText ++ Placement.below depth ["END"] =
            Placement.choice subjectText depth [] := by
          simp only [Placement.choice, Placement.below, String.append_assoc, String.append_empty]
        rw [← placed]
        exact lines_lines keyword (.cons closing .nil)
    | cons head tail =>
        have placed : ∀ first rest,
            Placement.nested ("CASE" ++ Placement.led " " subjectText) "END" depth
              (first ++ Placement.below (depth + 1) rest) =
                Placement.choice subjectText depth (first :: rest) := by
          intro first rest
          simp only [Placement.choice, Placement.below, Placement.nested, String.append_assoc]
        rw [← placed]
        exact lines_nested closes (by decide) keyword (lines_lines head tail)
  exact around (List.rel_append branchesFit defaultLine)

theorem lines_union (all : Bool) (something : layouts ≠ [])
    (fits : List.Forall₂ (FitsLines names depth) layouts texts) :
    FitsLines names depth (Layout.union all layouts) (Placement.union all depth texts) := by
  have keyword : Unbroken (if all then "UNION ALL" else "UNION") := by cases all <;> decide
  have solid : Solid (if all then "UNION ALL" else "UNION") := by cases all <;> decide
  have separator : (if all then "\nUNION ALL\n" else "\nUNION\n") =
      lineBreak 0 ++ (if all then "UNION ALL" else "UNION") ++ lineBreak 0 := by
    cases all <;> decide
  have separates := (Block.separates_lineBreak 0).around solid (Block.separates_lineBreak 0)
  have together := lines_joined separates something fits
  rw [Block.moved_append, Block.moved_append, Block.moved_of_unbroken depth keyword,
    Block.moved_lineBreak, Nat.add_zero, ← separator] at together
  exact together

theorem lines_subquery {imports : Option Layout} {importsText : Option String} {body : Layout}
    {text : String} (importsFit : Option.Rel (Fits names depth) imports importsText)
    (fits : FitsLines names depth body text) :
    FitsLines names depth (Layout.subquery imports body)
      (Placement.subquery importsText depth text) := by
  cases importsFit with
  | none => exact fits
  | some importsFit =>
      have keyword := (lines_text (by decide) (by decide) :
        FitsLines names depth (.text "WITH ") "WITH ").append importsFit
      have together := lines_lines keyword (.cons fits .nil)
      have feed : lineBreak 0 = "\n" := by decide
      have stacked : (Layout.subquery (some _) body).written names =
          (lines ["WITH " ++ _, body]).written names :=
        Block.stack_of_ne_empty keyword.solid.ne_empty fits.solid.ne_empty
      simpa only [Placement.subquery, Placement.below, String.append_assoc,
        String.append_empty] using together.of_written stacked

theorem lines_deleting {layout? : Option Layout} {text? : Option String}
    (fits : Option.Rel (FitsLines names depth) layout? text?)
    (written : (layout?.elim .skipped ClauseLayout.line).alone.written names ≠ "") :
    (layout?.elim .skipped ClauseLayout.line).alone.FitsLines names depth (text?.getD "") := by
  cases fits with
  | none => exact absurd rfl written
  | some fits => exact fits

/-- A clause with text meets the clause behind it on the next line. -/
theorem lines_followedBy {clause : ClauseLayout} {rest : Layout} {text restText : String}
    (fits : FitsLines names depth clause.alone text)
    (restFits : FitsLines names depth rest restText) :
    FitsLines names depth (clause.followedBy rest) (text ++ lineBreak depth ++ restText) := by
  have together := lines_lines fits (.cons restFits .nil)
  have placed : text ++ Placement.below depth [restText] = text ++ lineBreak depth ++ restText := by
    simp only [Placement.below, String.append_assoc, String.append_empty]
  rw [placed] at together
  cases clause with
  | line content => exact together
  | skipped => cases fits.solid
  | verbatim content =>
      apply together.of_written
      have written : content.written names ≠ "" := fits.solid.ne_empty
      rw [ClauseLayout.followedBy, Layout.written, if_neg (by simpa using written)]
      rfl

end Layout

/-! ## Paths -/

namespace PathLayout

/-- The texts fit the assignment and the segments of a path. -/
structure Fits (names : Dictionary) (depth : Nat) (path : PathLayout) (text : String × String) :
    Prop where
  assignment : Layout.Fits names depth path.assignment text.1
  segments : Layout.Fits names depth path.segments text.2

variable {names : Dictionary} {depth : Nat}

theorem Fits.layout {path : PathLayout} {text : String × String} (fits : Fits names depth path text)
    (selector : Option PathSelector) :
    Layout.Fits names depth (path.layout selector) (Placement.selected selector text) := by
  cases selector with
  | none => exact fits.assignment.append fits.segments
  | some selector =>
      have blank : Unbroken " " := by decide
      have keyword : Layout.Fits names depth (selector.keyword ++ " " : Layout) _ :=
        (Layout.fits_text (Block.unbroken_selector selector)).append (Layout.fits_text blank)
      exact (fits.assignment.append keyword).append fits.segments

theorem fits_select {selector : Option PathSelector} {layouts : List PathLayout}
    {texts : List (String × String)} (fits : List.Forall₂ (Fits names depth) layouts texts)
    (faultless : selectorFault selector layouts.length = none) :
    Layout.Fits names depth (select selector layouts) (Placement.paths selector texts) := by
  have each : List.Forall₂ (Layout.Fits names depth) (layouts.map (·.layout selector))
      (texts.map (Placement.selected selector)) := by
    clear faultless
    induction fits with
    | nil => exact .nil
    | cons head _ induction => exact .cons (head.layout selector) induction
  have together := Layout.fits_joined (by decide : Unbroken ", ") each
  cases selector with
  | none => exact together
  | some selector =>
      have single : ¬ 1 < layouts.length := by
        intro several
        simp [selectorFault, several] at faultless
      rw [select, if_neg single]
      exact together

end PathLayout

end Cypher
