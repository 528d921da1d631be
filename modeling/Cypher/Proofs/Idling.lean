import Cypher.Chain
import Cypher.Phrase.Layout

/-! Deletions of nothing. A clause that deletes nothing takes no line, wherever it stands in front
of another clause: in the chain of a query, in the body of a subquery or of a loop, in a branch of a
union, in a subquery inside an expression, or in text that is computed. All of them can be left out
of a tree at once. -/

namespace Cypher

namespace Phrase

/-- A clause that deletes nothing. -/
def isIdle : Phrase category → Bool
  | deleting (.deletion _ .nil) => true
  | _ => false

theorem isIdle_iff {clause : Clause} :
    clause.isIdle ↔ ∃ detach, clause = Clause.delete detach [] := by
  constructor
  · intro idle
    cases clause with
    | deleting deleted =>
        cases deleted with
        | deletion detach targets =>
            cases targets with
            | nil => exact ⟨detach, rfl⟩
            | cons head tail => cases idle
    | _ => cases idle
  · rintro ⟨detach, rfl⟩
    rfl

/-- The phrase without the clauses that delete nothing, except at the end of a chain. -/
def withoutIdle : {category : Category} → Phrase category → Phrase category
  | _, nil => nil
  | _, cons head tail => cons head.withoutIdle tail.withoutIdle
  | _, absent => absent
  | _, present content => present content.withoutIdle
  /- Expressions. -/
  | _, mention binder => mention binder
  | _, placeholder parameter => placeholder parameter
  | _, literal value => literal value
  | _, property base key => property base.withoutIdle key
  | _, subscript base index => subscript base.withoutIdle index.withoutIdle
  | _, list items => list items.withoutIdle
  | _, map entries => map entries.withoutIdle
  | _, connective operator first second rest =>
      connective operator first.withoutIdle second.withoutIdle rest.withoutIdle
  | _, negation operand => negation operand.withoutIdle
  | _, comparison comparator left right =>
      comparison comparator left.withoutIdle right.withoutIdle
  | _, arithmetic operator first second rest =>
      arithmetic operator first.withoutIdle second.withoutIdle rest.withoutIdle
  | _, negative operand => negative operand.withoutIdle
  | _, call callee => call callee.withoutIdle
  | _, choose alternatives => choose alternatives.withoutIdle
  | _, nameTest test target first rest => nameTest test target first rest
  | _, patternQuery kind body => patternQuery kind body.withoutIdle
  | _, chainQuery kind body => chainQuery kind body.withoutIdle
  | _, gather selection => gather selection.withoutIdle
  | _, raw fragment => raw fragment.withoutIdle
  | _, entry key value => entry key value.withoutIdle
  | _, function name distinct arguments => function name distinct arguments.withoutIdle
  | _, starFunction name => starFunction name
  | _, choice subject branches default =>
      choice subject.withoutIdle branches.withoutIdle default.withoutIdle
  | _, branch condition result => branch condition.withoutIdle result.withoutIdle
  | _, comprehension member source filter result =>
      comprehension member source.withoutIdle filter.withoutIdle result.withoutIdle
  /- Patterns. -/
  | _, node binder labels properties predicate => node binder labels properties.withoutIdle
        predicate.withoutIdle
  | _, relationship binder types direction length properties predicate =>
      relationship binder types direction length properties.withoutIdle predicate.withoutIdle
  | _, hop edge target => hop edge.withoutIdle target.withoutIdle
  | _, pattern start hops => pattern start.withoutIdle hops.withoutIdle
  | _, once body => once body.withoutIdle
  | _, repeated body quantifier => repeated body.withoutIdle quantifier
  | _, path binder first rest => path binder first.withoutIdle rest.withoutIdle
  /- Columns and their order. -/
  | _, column value => column value.withoutIdle
  | _, renamed value newName => renamed value.withoutIdle newName
  | _, projection star columns => projection star columns.withoutIdle
  | _, sortKey key direction => sortKey key.withoutIdle direction
  | _, rowOrder keys skip limit => rowOrder keys.withoutIdle skip.withoutIdle limit.withoutIdle
  /- Changes to the graph. -/
  | _, assign target value => assign target.withoutIdle value.withoutIdle
  | _, extend target value => extend target value.withoutIdle
  | _, addLabels target labels => addLabels target labels
  | _, removeProperty target => removeProperty target.withoutIdle
  | _, removeLabels target labels => removeLabels target labels
  | _, set first rest => set first.withoutIdle rest.withoutIdle
  | _, remove first rest => remove first.withoutIdle rest.withoutIdle
  | _, deletion detach targets => deletion detach targets.withoutIdle
  /- Clauses. -/
  | _, matching optional selector first rest filter updates deleted =>
      matching optional selector first.withoutIdle rest.withoutIdle
        filter.withoutIdle updates.withoutIdle deleted.withoutIdle
  | _, creating first rest updates =>
      creating first.withoutIdle rest.withoutIdle updates.withoutIdle
  | _, merging target onCreate onMatch updates =>
      merging target.withoutIdle onCreate.withoutIdle onMatch.withoutIdle updates.withoutIdle
  | _, passing distinct columns order filter =>
      passing distinct columns.withoutIdle order.withoutIdle filter.withoutIdle
  | _, returning distinct columns order =>
      returning distinct columns.withoutIdle order.withoutIdle
  | _, unwinding source member updates deleted =>
      unwinding source.withoutIdle member updates.withoutIdle deleted.withoutIdle
  | _, calling imports body transactions =>
      calling imports.withoutIdle body.withoutIdle transactions.withoutIdle
  | _, procedure name arguments yields filter => procedure name arguments.withoutIdle yields
        filter.withoutIdle
  | _, iterating member source body => iterating member source.withoutIdle body.withoutIdle
  | _, union all queries => union all queries.withoutIdle
  | _, deleting deleted => deleting deleted.withoutIdle
  | _, finish => finish
  | _, rawClause fragment => rawClause fragment.withoutIdle
  | _, last clause => last clause.withoutIdle
  | _, link clause rest =>
      if clause.isIdle then rest.withoutIdle else link clause.withoutIdle rest.withoutIdle
  /- Fragments. -/
  | _, verbatim content => verbatim content
  | _, computed pieces => computed pieces.withoutIdle
  | _, textPiece content => textPiece content
  | _, labelPiece name => labelPiece name
  | _, phrasePiece content => phrasePiece content.withoutIdle
  | _, unwrittenPiece content => unwrittenPiece content.withoutIdle
  | _, failure message => failure message

theorem isConnective_withoutIdle (operand : Expression) :
    operand.withoutIdle.isConnective = operand.isConnective := by
  cases operand <;> rfl

theorem withoutIdle_link_of_isIdle {clause : Clause} (idle : clause.isIdle) (rest : Chain) :
    (link clause rest).withoutIdle = rest.withoutIdle :=
  if_pos idle

theorem withoutIdle_link_of_not_isIdle {clause : Clause} (busy : ¬ clause.isIdle) (rest : Chain) :
    (link clause rest).withoutIdle = link clause.withoutIdle rest.withoutIdle :=
  if_neg busy

theorem withoutIdle_ofList (phrases : List (Phrase category)) :
    (ofList phrases).withoutIdle = ofList (phrases.map withoutIdle) := by
  induction phrases with
  | nil => rfl
  | cons head tail induction => exact congrArg (cons head.withoutIdle) induction

/-- What deletes nothing in front of another clause has no part in the layout. -/
theorem layout_withoutIdle (phrase : Phrase category) :
    phrase.withoutIdle.layout = phrase.layout := by
  induction phrase with
  | negation operand induction =>
      simp only [withoutIdle, layout, isConnective_withoutIdle, induction]
  | link clause rest clauseInduction restInduction =>
      by_cases idle : clause.isIdle
      · rw [withoutIdle_link_of_isIdle idle, restInduction]
        rcases isIdle_iff.mp idle with ⟨detach, rfl⟩
        rfl
      · rw [withoutIdle_link_of_not_isIdle idle, layout, layout, clauseInduction, restInduction]
  | _ => simp only [withoutIdle, layout, *]

/-- Phrases that are the same apart from deletions of nothing have the same layout. -/
theorem layout_eq_of_withoutIdle_eq {first second : Phrase category}
    (same : first.withoutIdle = second.withoutIdle) : first.layout = second.layout := by
  rw [← layout_withoutIdle, same, layout_withoutIdle]

end Phrase

end Cypher
