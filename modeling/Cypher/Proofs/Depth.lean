import Cypher.Proofs.Faults
import Cypher.Proofs.LeafText
import Cypher.Proofs.Recall

/-! The rendered text of a phrase is its text at the depth of its blocks. The layouts write
a block first and move its lines afterwards, from the inside to the outside; the text at a
depth has every margin from the beginning. The two fit each other part by part. -/

namespace Cypher

open Block (Solid Tidy Unbroken lineBreak)

def Part.clause? : Part → Option Clause
  | @of .clause clause => some clause
  | _ => none

/-- All clauses in a phrase. -/
def Phrase.allClauses (phrase : Phrase category) : List Clause :=
  phrase.parts.filterMap Part.clause?

theorem Part.eq_of_clause? {part : Part} {clause : Clause} (found : part.clause? = some clause) :
    part = .of clause := by
  unfold clause? at found
  split at found
  · cases found
    rfl
  · cases found

/-- The texts of the part are on one line each, the part has no fault, and it is no clause
without text. -/
structure Part.IsPlain (names : Dictionary) (part : Part) : Prop where
  texts : ∀ text ∈ part.texts, Unbroken text
  faultless : part.fault? = none
  written : ∀ clause ∈ part.clause?, clause.whole.written names ≠ ""

def Phrase.IsPlain (names : Dictionary) (phrase : Phrase category) : Prop :=
  ∀ part ∈ phrase.parts, part.IsPlain names

/-- The text fits the layout of a phrase. Branches, changes and clauses stand on lines of
their own, so they have text. -/
def Category.Fits (names : Dictionary) (depth : Nat) :
    (category : Category) → category.Layout → category.Text → Prop
  | many element, layouts, texts => List.Forall₂ (element.Fits names depth) layouts texts
  | maybe content, layout, text => Option.Rel (content.Fits names depth) layout text
  | path, layout, text => layout.Fits names depth text
  | rowOrder, layouts, texts => List.Forall₂ (Layout.FitsLines names depth) layouts texts
  | deletion, layout, text => Option.Rel (Layout.FitsLines names depth) layout text
  | clause, layout, text => layout.alone.FitsLines names depth text
  | branch, layout, text | assignment, layout, text | update, layout, text
  | chain, layout, text => layout.FitsLines names depth text
  | expression, layout, text | entry, layout, text | function, layout, text
  | choice, layout, text | comprehension, layout, text | node, layout, text
  | relationship, layout, text | hop, layout, text | pattern, layout, text
  | segment, layout, text | column, layout, text | projection, layout, text
  | sortKey, layout, text | removal, layout, text | fragment, layout, text
  | piece, layout, text => layout.Fits names depth text

namespace Category

variable {names : Dictionary} {depth : Nat}

theorem Fits.alone : ∀ {category : Category} {layout : category.Layout} {text : category.Text},
    category.Fits names depth layout text →
      (category.alone layout).Fits names depth (category.together depth text) := by
  intro category
  induction category with
  | many element induction =>
      intro layouts texts fits
      have each : List.Forall₂ (Layout.Fits names depth) (layouts.map element.alone)
          (texts.map (element.together depth)) := by
        induction fits with
        | nil => exact .nil
        | cons head _ rest => exact .cons (induction head) rest
      exact Layout.fits_joined (by decide) each
  | maybe content induction =>
      intro layout text fits
      cases fits with
      | none => exact Layout.fits_empty
      | some fits => exact induction fits
  | path =>
      intro layout text fits
      exact fits.layout none
  | rowOrder =>
      intro layouts texts fits
      cases fits with
      | nil => exact Layout.fits_empty
      | cons head tail =>
          rw [together, Layout.intercalate_lineBreak]
          exact (Layout.lines_lines head tail).fits
  | deletion =>
      intro layout text fits
      cases fits with
      | none => exact Layout.fits_empty
      | some fits => exact fits.fits
  | branch | assignment | update | chain | clause => exact Layout.FitsLines.fits
  | _ => exact id

end Category

namespace Phrase

variable {names : Dictionary}

namespace IsPlain

theorem itself {phrase : Phrase category} (plain : phrase.IsPlain names) :
    (Part.of phrase).IsPlain names :=
  plain _ (of_mem_parts phrase)

/-- What a phrase is made of. -/
theorem inside {phrase : Phrase category} (plain : phrase.IsPlain names) :
    ∀ part ∈ phrase.parts.tail, part.IsPlain names :=
  fun part member => plain part (List.mem_of_mem_tail member)

end IsPlain

theorem layout_deleting (deleted : Deletion) :
    (deleting deleted).layout = deleted.layout.elim .skipped ClauseLayout.line := by
  rw [layout]
  cases deleted.layout <;> rfl

open Layout

theorem fits_textAt (plainNames : names.IsPlain) (phrase : Phrase category)
    (plain : phrase.IsPlain names) (depth : Nat) :
    category.Fits names depth phrase.layout (phrase.textAt names depth) := by
  -- The depth is general, since the body of a block is one level deeper. Faulty parts are not
  -- plain, and the texts of clauses are needed where nothing else says that there is a line.
  induction phrase generalizing depth with
  | nil => exact .nil
  | cons head tail headInduction tailInduction =>
      rcases List.forall_mem_append.mp plain.inside with ⟨headPlain, tailPlain⟩
      exact .cons (headInduction headPlain depth) (tailInduction tailPlain depth)
  | absent => exact .none
  | present content induction => exact .some (induction plain.inside depth)
  | mention binder => exact fits_mention plainNames plain.itself.texts
  | placeholder parameter => exact fits_placeholder plainNames plain.itself.texts
  | literal value => exact fits_literal plain.itself.texts
  | property base key induction =>
      have keyUnbroken : Unbroken key := plain.itself.texts key List.mem_cons_self
      exact ((induction plain.inside depth).append (fits_text (by decide))).append
        (fits_identifier keyUnbroken)
  | subscript base index baseInduction indexInduction =>
      rcases List.forall_mem_append.mp plain.inside with ⟨basePlain, indexPlain⟩
      exact (((baseInduction basePlain depth).append (fits_text (by decide))).append
        (indexInduction indexPlain depth)).append (fits_text (by decide))
  | list items induction =>
      exact fits_listed (by decide) (by decide) (induction plain.inside depth)
  | map entries induction => exact fits_map (induction plain.inside depth)
  | connective operator first second rest firstInduction secondInduction restInduction =>
      rcases List.forall_mem_append.mp plain.inside with ⟨twoPlain, restPlain⟩
      rcases List.forall_mem_append.mp twoPlain with ⟨firstPlain, secondPlain⟩
      have unbroken : Unbroken operator.keyword := by cases operator <;> decide
      exact fits_operation unbroken (.cons (firstInduction firstPlain depth)
        (.cons (secondInduction secondPlain depth) (restInduction restPlain depth)))
  | negation operand induction =>
      exact fits_negation operand.isConnective (induction plain.inside depth)
  | comparison comparator left right leftInduction rightInduction =>
      rcases List.forall_mem_append.mp plain.inside with ⟨leftPlain, rightPlain⟩
      exact ((leftInduction leftPlain depth).append
        ((fits_text (by decide)).append (fits_text (Block.unbroken_comparator comparator)))).append
          (fits_optional (by decide) (rightInduction rightPlain depth))
  | arithmetic operator first second rest firstInduction secondInduction restInduction =>
      rcases List.forall_mem_append.mp plain.inside with ⟨twoPlain, restPlain⟩
      rcases List.forall_mem_append.mp twoPlain with ⟨firstPlain, secondPlain⟩
      have unbroken : Unbroken operator.symbol := by cases operator <;> decide
      exact fits_operation unbroken (.cons (firstInduction firstPlain depth)
        (.cons (secondInduction secondPlain depth) (restInduction restPlain depth)))
  | negative operand induction =>
      exact (fits_text (by decide)).append (induction plain.inside depth)
  | call callee induction => exact induction plain.inside depth
  | choose alternatives induction => exact induction plain.inside depth
  | nameTest test target first rest =>
      rcases List.forall_mem_append.mp plain.itself.texts with ⟨targetUnbroken, unbroken⟩
      exact (fits_mention plainNames targetUnbroken).append (fits_names unbroken test)
  | patternQuery kind body induction =>
      have pathFits := (induction plain.inside depth).layout none
      exact (((fits_text (Block.unbroken_subqueryKeyword kind)).append
        (fits_text (by decide))).append pathFits).append (fits_text (by decide))
  | chainQuery kind body induction =>
      have block := lines_block (induction plain.inside (depth + 1))
      exact ((fits_text (Block.unbroken_subqueryKeyword kind)).append
        (fits_text (by decide))).append block.fits
  | gather selection induction => exact induction plain.inside depth
  | raw fragment induction => exact induction plain.inside depth
  | entry key value induction =>
      have keyUnbroken : Unbroken key := plain.itself.texts key List.mem_cons_self
      exact ((fits_identifier keyUnbroken).append (fits_text (by decide))).append
        (induction plain.inside depth)
  | function name distinct arguments induction =>
      have nameUnbroken : Unbroken name := plain.itself.texts name List.mem_cons_self
      have modifier : Unbroken (if distinct then "DISTINCT " else "") := by
        cases distinct <;> decide
      exact ((((fits_text nameUnbroken).append (fits_text (by decide))).append
        (fits_text modifier)).append
          (fits_joined (by decide) (induction plain.inside depth))).append (fits_text (by decide))
  | starFunction name =>
      have nameUnbroken : Unbroken name := plain.itself.texts name List.mem_cons_self
      have unbroken : Unbroken (name ++ "(*)") := by
        rw [Block.unbroken_append]
        exact ⟨nameUnbroken, by decide⟩
      exact fits_text unbroken
  | choice subject branches default subjectInduction branchesInduction defaultInduction =>
      rcases List.forall_mem_append.mp plain.inside with ⟨frontPlain, defaultPlain⟩
      rcases List.forall_mem_append.mp frontPlain with ⟨subjectPlain, branchesPlain⟩
      exact (lines_choice (subjectInduction subjectPlain depth)
        (branchesInduction branchesPlain (depth + 1))
        (defaultInduction defaultPlain (depth + 1))).fits
  | branch condition result conditionInduction resultInduction =>
      rcases List.forall_mem_append.mp plain.inside with ⟨conditionPlain, resultPlain⟩
      cases result with
      | absent => cases plain.itself.faultless
      | present result =>
          cases resultInduction resultPlain depth with
          | some resultFits =>
              exact lines_branch (conditionInduction conditionPlain depth) resultFits
  | comprehension member source filter result sourceInduction filterInduction resultInduction =>
      rcases List.forall_mem_append.mp plain.inside with ⟨frontPlain, resultPlain⟩
      rcases List.forall_mem_append.mp frontPlain with ⟨sourcePlain, filterPlain⟩
      have filtered := fits_optional (by decide : Unbroken " WHERE ")
        (filterInduction filterPlain depth)
      have projected := fits_optional (by decide : Unbroken " | ")
        (resultInduction resultPlain depth)
      exact ((((((fits_text (by decide)).append (fits_mention plainNames plain.itself.texts)).append
        (fits_text (by decide))).append (sourceInduction sourcePlain depth)).append
          filtered).append projected).append (fits_text (by decide))
  | node binder labels properties predicate propertiesInduction predicateInduction =>
      rcases List.forall_mem_append.mp plain.inside with ⟨propertiesPlain, predicatePlain⟩
      rcases List.forall_mem_append.mp plain.itself.texts with ⟨binderUnbroken, labelsUnbroken⟩
      have entries := fits_optional (by decide : Unbroken " ")
        (fits_properties (propertiesInduction propertiesPlain depth))
      have condition := fits_optional (by decide : Unbroken " WHERE ")
        (predicateInduction predicatePlain depth)
      exact (((((fits_text (by decide)).append (fits_binder plainNames binderUnbroken)).append
        (fits_labels labelsUnbroken)).append entries).append condition).append
          (fits_text (by decide))
  | relationship binder types direction length properties predicate propertiesInduction
      predicateInduction =>
      rcases List.forall_mem_append.mp plain.inside with ⟨predicatePlain, propertiesPlain⟩
      rcases List.forall_mem_append.mp plain.itself.texts with ⟨binderUnbroken, typesUnbroken⟩
      have trimmed := fits_trimmed (unbroken_binder plainNames binderUnbroken)
        (fun binder _ => plainNames.visible binder)
        (names.config.unbroken_relationshipTypes typesUnbroken) length
        (predicateInduction predicatePlain depth) (propertiesInduction propertiesPlain depth)
      have opening : Unbroken direction.opening := by cases direction <;> decide
      have closing : Unbroken direction.closing := by cases direction <;> decide
      exact (((fits_text opening).append (fits_text (by decide))).append trimmed).append
        ((fits_text (by decide)).append (fits_text closing))
  | hop edge target edgeInduction targetInduction =>
      rcases List.forall_mem_append.mp plain.inside with ⟨edgePlain, targetPlain⟩
      exact (edgeInduction edgePlain depth).append
        (fits_getD (by decide) (targetInduction targetPlain depth))
  | pattern start hops startInduction hopsInduction =>
      rcases List.forall_mem_append.mp plain.inside with ⟨startPlain, hopsPlain⟩
      exact (startInduction startPlain depth).append
        (fits_joined (by decide) (hopsInduction hopsPlain depth))
  | once body induction => exact induction plain.inside depth
  | repeated body quantifier induction =>
      exact ((fits_text (by decide)).append (induction plain.inside depth)).append
        ((fits_text (by decide)).append (fits_text (Block.unbroken_quantifier quantifier)))
  | path binder first rest firstInduction restInduction =>
      rcases List.forall_mem_append.mp plain.inside with ⟨firstPlain, restPlain⟩
      have segments := List.Forall₂.cons (firstInduction firstPlain depth)
        (restInduction restPlain depth)
      refine ⟨?_, fits_joined (by decide) segments⟩
      cases binder with
      | none => exact fits_empty
      | some binder =>
          have binderUnbroken : ∀ text ∈ binder.texts, Unbroken text :=
            (List.forall_mem_append.mp plain.itself.texts).1
          exact (fits_mention plainNames binderUnbroken).append (fits_text (by decide))
  | column value induction => exact induction plain.inside depth
  | renamed value newName induction =>
      have unbroken := plainNames.variableText plain.itself.texts
      exact fits_aliased unbroken (induction plain.inside depth)
  | projection star columns induction =>
      exact fits_projection star (induction plain.inside depth)
  | sortKey key direction induction =>
      have unbroken : Unbroken direction.keyword := by cases direction <;> decide
      exact (induction plain.inside depth).append
        ((fits_text (by decide)).append (fits_text unbroken))
  | rowOrder keys skip limit keysInduction skipInduction limitInduction =>
      rcases List.forall_mem_append.mp plain.inside with ⟨frontPlain, limitPlain⟩
      rcases List.forall_mem_append.mp frontPlain with ⟨keysPlain, skipPlain⟩
      exact lines_rowOrder (keysInduction keysPlain depth) (skipInduction skipPlain depth)
        (limitInduction limitPlain depth)
  | assign target value targetInduction valueInduction =>
      rcases List.forall_mem_append.mp plain.inside with ⟨targetPlain, valuePlain⟩
      exact ((targetInduction targetPlain depth).append_lines
        (lines_text (by decide) (by decide))).append (valueInduction valuePlain depth)
  | extend target value induction =>
      exact ((fits_mention plainNames plain.itself.texts).append_lines
        (lines_text (by decide) (by decide))).append (induction plain.inside depth)
  | addLabels target labels =>
      rcases List.forall_mem_append.mp plain.itself.texts with ⟨targetUnbroken, labelsUnbroken⟩
      exact (lines_mention plainNames targetUnbroken).append (fits_labels labelsUnbroken)
  | removeProperty target induction => exact induction plain.inside depth
  | removeLabels target labels =>
      rcases List.forall_mem_append.mp plain.itself.texts with ⟨targetUnbroken, labelsUnbroken⟩
      exact (fits_mention plainNames targetUnbroken).append (fits_labels labelsUnbroken)
  | set first rest firstInduction restInduction =>
      rcases List.forall_mem_append.mp plain.inside with ⟨firstPlain, restPlain⟩
      exact lines_set (List.cons_ne_nil _ _)
        (.cons (firstInduction firstPlain (depth + 1)) (restInduction restPlain (depth + 1)))
  | remove first rest firstInduction restInduction =>
      rcases List.forall_mem_append.mp plain.inside with ⟨firstPlain, restPlain⟩
      exact (lines_text (by decide) (by decide)).append (fits_joined (by decide)
        (.cons (firstInduction firstPlain depth) (restInduction restPlain depth)))
  | deletion detach targets induction =>
      exact lines_deletion detach (induction plain.inside depth)
  | matching isOptional selector first rest filter updates deleted firstInduction restInduction
      filterInduction updatesInduction deletedInduction =>
      rcases List.forall_mem_append.mp plain.inside with ⟨frontPlain, deletedPlain⟩
      rcases List.forall_mem_append.mp frontPlain with ⟨frontPlain, updatesPlain⟩
      rcases List.forall_mem_append.mp frontPlain with ⟨pathsPlain, filterPlain⟩
      rcases List.forall_mem_append.mp pathsPlain with ⟨firstPlain, restPlain⟩
      have keyword : Unbroken (if isOptional then "OPTIONAL MATCH " else "MATCH ") := by
        cases isOptional <;> decide
      have leads : (if isOptional then "OPTIONAL MATCH " else "MATCH ") ≠ "" := by
        cases isOptional <;> decide
      have faultless : selectorFault selector (first.layout :: rest.layout).length = none := by
        rw [List.length_cons, layout_eq_map, List.length_map]
        exact plain.itself.faultless
      have paths := PathLayout.fits_select
        (.cons (firstInduction firstPlain depth) (restInduction restPlain depth)) faultless
      have condition := lines_condition (filterInduction filterPlain depth)
      have deletion := lines_toList (deletedInduction deletedPlain depth)
      exact lines_lines ((lines_text keyword leads).append paths) (List.rel_append
        (List.rel_append condition (updatesInduction updatesPlain depth)) deletion)
  | creating first rest updates firstInduction restInduction updatesInduction =>
      rcases List.forall_mem_append.mp plain.inside with ⟨pathsPlain, updatesPlain⟩
      rcases List.forall_mem_append.mp pathsPlain with ⟨firstPlain, restPlain⟩
      have faultless : selectorFault none (first.layout :: rest.layout).length = none := rfl
      have paths := PathLayout.fits_select
        (.cons (firstInduction firstPlain depth) (restInduction restPlain depth)) faultless
      exact lines_lines ((lines_text (by decide) (by decide)).append paths)
        (updatesInduction updatesPlain depth)
  | merging target onCreate onMatch updates targetInduction onCreateInduction onMatchInduction
      updatesInduction =>
      rcases List.forall_mem_append.mp plain.inside with ⟨frontPlain, updatesPlain⟩
      rcases List.forall_mem_append.mp frontPlain with ⟨frontPlain, onMatchPlain⟩
      rcases List.forall_mem_append.mp frontPlain with ⟨targetPlain, onCreatePlain⟩
      have target := (targetInduction targetPlain depth).layout none
      have created := lines_assignments (by decide : Unbroken "ON CREATE SET") (by decide)
        (onCreateInduction onCreatePlain (depth + 1))
      have matched := lines_assignments (by decide : Unbroken "ON MATCH SET") (by decide)
        (onMatchInduction onMatchPlain (depth + 1))
      exact lines_lines ((lines_text (by decide) (by decide)).append target)
        (List.rel_append (List.rel_append created matched) (updatesInduction updatesPlain depth))
  | passing distinct columns order filter columnsInduction orderInduction filterInduction =>
      rcases List.forall_mem_append.mp plain.inside with ⟨frontPlain, filterPlain⟩
      rcases List.forall_mem_append.mp frontPlain with ⟨columnsPlain, orderPlain⟩
      exact lines_lines
        (lines_projected (by decide) (by decide) distinct (columnsInduction columnsPlain depth))
        (List.rel_append (orderInduction orderPlain depth)
          (lines_condition (filterInduction filterPlain depth)))
  | returning distinct columns order columnsInduction orderInduction =>
      rcases List.forall_mem_append.mp plain.inside with ⟨columnsPlain, orderPlain⟩
      exact lines_lines
        (lines_projected (by decide) (by decide) distinct (columnsInduction columnsPlain depth))
        (orderInduction orderPlain depth)
  | unwinding source member updates deleted sourceInduction updatesInduction deletedInduction =>
      rcases List.forall_mem_append.mp plain.inside with ⟨frontPlain, deletedPlain⟩
      rcases List.forall_mem_append.mp frontPlain with ⟨sourcePlain, updatesPlain⟩
      exact lines_lines
        ((((lines_text (by decide) (by decide)).append (sourceInduction sourcePlain depth)).append
          (fits_text (by decide))).append (fits_mention plainNames plain.itself.texts))
        (List.rel_append (updatesInduction updatesPlain depth)
          (lines_toList (deletedInduction deletedPlain depth)))
  | calling imports body transactions importsInduction bodyInduction transactionsInduction =>
      rcases List.forall_mem_append.mp plain.inside with ⟨frontPlain, transactionsPlain⟩
      rcases List.forall_mem_append.mp frontPlain with ⟨importsPlain, bodyPlain⟩
      have block := lines_block (lines_subquery (importsInduction importsPlain (depth + 1))
        (bodyInduction bodyPlain (depth + 1)))
      exact ((lines_text (by decide) (by decide)).append block.fits).append
        (fits_transactions (transactionsInduction transactionsPlain depth))
  | procedure name arguments yields filter argumentsInduction filterInduction =>
      rcases List.forall_mem_append.mp plain.inside with ⟨argumentsPlain, filterPlain⟩
      rcases List.forall_mem_cons.mp plain.itself.texts with ⟨nameUnbroken, yieldsUnbroken⟩
      have lead : Unbroken ("CALL " ++ name ++ "(") := by
        rw [Block.unbroken_append, Block.unbroken_append]
        exact ⟨⟨by decide, nameUnbroken⟩, by decide⟩
      have leads : "CALL " ++ name ++ "(" ≠ "" := by simp
      exact lines_lines ((((lines_text lead leads).append
          (fits_joined (by decide) (argumentsInduction argumentsPlain depth))).append
            (fits_text (by decide))).append (fits_yields plainNames yieldsUnbroken))
        (lines_condition (filterInduction filterPlain depth))
  | iterating member source body sourceInduction bodyInduction =>
      rcases List.forall_mem_append.mp plain.inside with ⟨sourcePlain, bodyPlain⟩
      exact lines_iterating ((((fits_text (by decide)).append
        (fits_mention plainNames plain.itself.texts)).append (fits_text (by decide))).append
          (sourceInduction sourcePlain depth)) (bodyInduction bodyPlain (depth + 1))
  | union all queries induction =>
      have something : queries.layout ≠ [] := by
        intro nothing
        have written : (Layout.union all queries.layout).written names ≠ "" :=
          plain.itself.written (union all queries) rfl
        rw [nothing] at written
        exact written rfl
      exact lines_union all something (induction plain.inside depth)
  | deleting deleted induction =>
      have written : (deleting deleted).layout.alone.written names ≠ "" :=
        plain.itself.written (deleting deleted) rfl
      change (deleting deleted).layout.alone.FitsLines names depth _
      rw [layout_deleting] at written ⊢
      exact lines_deleting (induction plain.inside depth) written
  | finish => exact lines_text (by decide) (by decide)
  | rawClause fragment induction =>
      have written : fragment.layout.written names ≠ "" :=
        plain.itself.written (rawClause fragment) rfl
      exact (induction plain.inside depth).lines written
  | last clause induction => exact induction plain.inside depth
  | link clause rest clauseInduction restInduction =>
      rcases List.forall_mem_append.mp plain.inside with ⟨clausePlain, restPlain⟩
      exact lines_followedBy (clauseInduction clausePlain depth) (restInduction restPlain depth)
  | verbatim content =>
      have unbroken : Unbroken content := plain.itself.texts content List.mem_cons_self
      exact fits_text unbroken
  | computed pieces induction =>
      exact fits_joined (by decide) (induction plain.inside depth)
  | textPiece content =>
      have unbroken : Unbroken content := plain.itself.texts content List.mem_cons_self
      exact fits_text unbroken
  | labelPiece name =>
      have unbroken : Unbroken name := plain.itself.texts name List.mem_cons_self
      exact fits_label unbroken
  | phrasePiece content induction => exact (induction plain.inside depth).alone
  | unwrittenPiece content => exact fits_unwritten content.whole
  | failure message => cases plain.itself.faultless

end Phrase

/-! ## Whole phrases -/

section Rendered

variable {environment after : Environment} {text : String} {phrase : Phrase category}

/-- A phrase that was rendered is plain, if its texts are on one line each and no clause in
it is empty. -/
theorem Phrase.isPlain_of_rendered (rendered : phrase.whole.render environment = .ok text after)
    (leaves : ∀ leaf ∈ phrase.texts, Unbroken leaf)
    (clauses : ∀ clause ∈ phrase.allClauses, clause.whole.result after ≠ .ok "") :
    phrase.IsPlain after.dictionary := by
  have faultless := Layout.faultless_of_render_ok 0 rendered
  rw [reading_whole, fault?_reading, firstFault?, List.findSome?_eq_none_iff] at faultless
  intro part member
  refine ⟨fun leaf inside => leaves leaf (List.mem_flatMap_of_mem member inside),
    faultless part member, ?_⟩
  intro clause found empty
  apply clauses clause (List.mem_filterMap.mpr ⟨part, member, found⟩)
  rw [Part.eq_of_clause? found] at member
  rw [Layout.result, render_of_mem_parts rendered member, empty]

/-- The rendered text is the text that has every margin from the beginning, and none of its
lines is empty. -/
theorem Phrase.rendered_eq_placed (reachable : environment.Reachable)
    (rendered : phrase.whole.render environment = .ok text after)
    (forVariables : Unbroken environment.config.namePrefixes.forVariables)
    (forParameters : Unbroken environment.config.namePrefixes.forParameters)
    (leaves : ∀ leaf ∈ phrase.texts, Unbroken leaf)
    (clauses : ∀ clause ∈ phrase.allClauses, clause.whole.result after ≠ .ok "") :
    text = phrase.placed after.dictionary ∧
      (text = "" ∨ ∀ line ∈ text.toList.splitOn '\n', line ≠ []) := by
  rcases Layout.of_render_ok rendered 0 with ⟨-, met, written⟩
  have config : after.config = environment.config := by
    rw [met]
    exact (environment.grows_meetAll _).config
  have afterReachable : after.Reachable := by
    rw [met]
    exact reachable.meetAll _
  rw [← config] at forVariables forParameters
  have plainNames := afterReachable.isPlain forVariables forParameters
  have plain := isPlain_of_rendered rendered leaves clauses
  have fits := (phrase.fits_textAt plainNames plain 0).alone
  have placed : text = phrase.placed after.dictionary := by
    rw [placed, fits.moved, Block.moved_zero]
    exact written
  refine ⟨placed, ?_⟩
  rcases fits.tidy with empty | solid
  · exact .inl (written.trans empty)
  · rw [written]
    exact .inr (Block.ne_nil_of_mem_splitOn solid)

end Rendered

/-- A choice inside a list of assignments inside a subquery. -/
theorem Phrase.rendered_eq_placed_nested :
    let target : Path := .path none (.once (.pattern (.node none [] .absent .absent) .nil)) .nil
    let chosen : Expression := .choose (.choice .absent (.cons
      (.branch (.literal (.boolean true)) (.present (.literal (.integer 1)))) .nil) .absent)
    let body : Clause := .merging target .nil
      (.cons (.assign (.mention { identity := ⟨0⟩ }) chosen) .nil) .nil
    let chain : Chain := .link (.calling .absent (.last body) .absent) (.last .finish)
    let text := "CALL \x7b\n    MERGE ()\n    ON MATCH SET\n        var0 = CASE\n" ++
      "            WHEN true THEN 1\n        END\n\x7d\nFINISH"
    ∃ after, chain.whole.render (.empty {}) = .ok text after ∧
      (∀ leaf ∈ chain.texts, Unbroken leaf) ∧
      (∀ clause ∈ chain.allClauses, clause.whole.result after ≠ .ok "") ∧
      text = chain.placed after.dictionary ∧
        (text = "" ∨ ∀ line ∈ text.toList.splitOn '\n', line ≠ []) := by
  intro target chosen body chain text
  have leaves : ∀ leaf ∈ chain.texts, Unbroken leaf := by
    decide
  have result : chain.whole.result (.empty {}) = .ok text := by decide +kernel
  have rendered := Layout.render_of_result result
  have three : chain.allClauses = [.calling .absent (.last body) .absent, body, .finish] := rfl
  have clauses : ∀ clause ∈ chain.allClauses,
      clause.whole.result (chain.whole.environmentAfter (.empty {})) ≠ .ok "" := by
    rw [three]
    decide
  exact ⟨_, rendered, leaves, clauses,
    rendered_eq_placed (.empty {}) rendered (by decide) (by decide) leaves clauses⟩

end Cypher
