import Cypher.Proofs.Idling
import Cypher.Proofs.Linkage
import Cypher.Proofs.Silence

/-! A clause that deletes nothing, put into a chain. In front of another clause nothing changes. At
the end of the chain the clause above has written a line break already, and nothing takes it back.
It goes unnoticed only where it is dropped with other line breaks. -/

namespace Cypher

/-! ## Putting a clause into a chain -/

namespace Chain

/-- The chain with one clause more, in front of the clause at `position` or behind the last one. -/
def insert (inserted : Clause) : Nat → Chain → Chain
  | 0, chain => .link inserted chain
  | _ + 1, .last clause => .link clause (.last inserted)
  | position + 1, .link clause rest => .link clause (insert inserted position rest)

theorem clauses_insert (inserted : Clause) : ∀ {position : Nat} {chain : Chain},
    position ≤ chain.length →
      (insert inserted position chain).clauses = chain.clauses.insertIdx position inserted
  | 0, _, _ => rfl
  | position + 1, .last clause, within => by
      cases Nat.le_zero.mp (Nat.le_of_succ_le_succ within)
      rfl
  | position + 1, .link clause rest, within =>
      congrArg (List.cons clause) (clauses_insert inserted (Nat.le_of_succ_le_succ within))

theorem clauses_insert_last (inserted : Clause) (chain : Chain) :
    (chain.insert inserted chain.length).clauses = chain.clauses ++ [inserted] := by
  rw [clauses_insert inserted le_rfl, length_eq]
  exact List.insertIdx_length_self

/-- Behind the last clause, if that one can be continued, is where a chain grows. -/
theorem attempt_last {cursor : Cursor} (chainable : cursor.current.kind.isChainable)
    (atEnd : cursor.following = []) (added : Clause) :
    cursor.attempt (.last added) = (.ok (), cursor.chain.insert added cursor.chain.length) := by
  rcases Cursor.attempt_cases chainable (.last added) with
    ⟨-, longer, grown, clauses⟩ | ⟨existing, behind, more, -⟩
  · rw [grown, clauses_inj (clauses.trans (clauses_insert_last added cursor.chain).symm)]
  · rw [atEnd] at more
    cases more

/-- In front of another clause, a deletion of nothing makes no difference. -/
theorem withoutIdle_insert (detach : Bool) : ∀ {position : Nat} {chain : Chain},
    position < chain.length →
      (insert (Clause.delete detach []) position chain).withoutIdle = chain.withoutIdle
  | 0, chain, _ => Phrase.withoutIdle_link_of_isIdle rfl chain
  | position + 1, .last clause, within =>
      absurd (Nat.lt_of_succ_lt_succ within) position.not_lt_zero
  | position + 1, .link clause rest, within => by
      have induction := withoutIdle_insert detach (Nat.lt_of_succ_lt_succ within)
      rw [insert]
      by_cases idle : clause.isIdle
      · rw [Phrase.withoutIdle_link_of_isIdle idle, Phrase.withoutIdle_link_of_isIdle idle,
          induction]
      · rw [Phrase.withoutIdle_link_of_not_isIdle idle, Phrase.withoutIdle_link_of_not_isIdle idle,
          induction]

end Chain

/-! ## Line breaks behind a chain -/

theorem Block.dropBreaks_append_break (text : String) :
    dropBreaks (text ++ "\n") = if dropBreaks text = "" then "" else dropBreaks text ++ "\n" := by
  rw [← String.toList_inj]
  by_cases onlyBreaks : dropBreaks text = ""
  · have none : text.toList.dropWhile (· == '\n') = [] := by
      rw [← toList_dropBreaks, onlyBreaks, String.toList_empty]
    rw [if_pos onlyBreaks, toList_dropBreaks, String.toList_append, List.dropWhile_append, none]
    rfl
  · have some : (text.toList.dropWhile (· == '\n')).isEmpty = false := by
      rw [← toList_dropBreaks, List.isEmpty_eq_false_iff, ne_eq, String.toList_eq_nil_iff]
      exact onlyBreaks
    rw [if_neg onlyBreaks, toList_dropBreaks, String.toList_append, String.toList_append,
      toList_dropBreaks, List.dropWhile_append, some]
    rfl

namespace Clause

/-- Only text that is taken as it stands and deletions of nothing have no line for certain. -/
theorem line_or_idle_or_raw (clause : Clause) :
    (∃ content, clause.layout = .line content) ∨ (∃ detach, clause = delete detach []) ∨
      ∃ fragment, clause = .rawClause fragment := by
  by_cases keyword : clause.hasKeyword
  · rcases exists_line keyword with ⟨content, line, -⟩
    exact .inl ⟨content, line⟩
  · cases clause with
    | rawClause fragment => exact .inr (.inr ⟨fragment, rfl⟩)
    | union all queries => exact .inl ⟨_, rfl⟩
    | deleting deleted =>
        cases deleted with
        | deletion detach targets =>
            cases targets with
            | nil => exact .inr (.inl ⟨detach, rfl⟩)
            | cons head tail => exact absurd rfl keyword
    | _ => exact absurd rfl keyword

variable {clause : Clause} {environment between : Environment} {text : String}

/-- A clause deletes nothing, or it is text that is taken as it stands and is empty, or its line
ends with a line break in front of the rest of the chain. -/
theorem followedBy_cases (rendered : clause.whole.render environment = .ok text between) :
    (∃ detach, clause = delete detach []) ∨ (∃ fragment, clause = .rawClause fragment ∧ text = "") ∨
      ((∀ after, ¬ Chain.Silent environment [clause] after) ∧
        ∀ rest : Layout, (clause.layout.followedBy rest).render environment =
          ((text ++ "\n" ++ ·) <$> rest.render) between) := by
  rcases clause.line_or_idle_or_raw with ⟨content, line⟩ | idle | ⟨fragment, rfl⟩
  · refine .inr (.inr ⟨?_, fun rest => ?_⟩)
    · rintro after (_ | ⟨empty, others⟩ | ⟨detach, others⟩) <;> cases line
    · have written : content.render environment = .ok text between := by
        rwa [Phrase.whole, line] at rendered
      have ended : ((content ++ "\n" : Layout)).render environment = .ok (text ++ "\n") between :=
        Layout.bind_ok written
      rw [line]
      exact Layout.bind_ok ended
  · exact .inl idle
  · by_cases noText : text = ""
    · exact .inr (.inl ⟨fragment, rfl, noText⟩)
    · refine .inr (.inr ⟨?_, ClauseLayout.render_followedBy rendered noText⟩)
      rintro after (_ | ⟨empty, others⟩)
      exact noText (EStateM.Result.ok.inj (rendered.symm.trans empty)).1

end Clause

namespace Chain

/-- A line break behind the chain is not written. Either no line ends there, or the line break is
dropped together with all the text that stands behind an empty text. -/
inductive TakesNoBreak : Environment → Chain → Prop where
  | last {clause : Clause} {environment after : Environment}
      (silent : Silent environment [clause] after) : TakesNoBreak environment (.last clause)
  | breaks {fragment : Fragment} {rest : Chain} {environment between after : Environment}
      {text : String} (empty : fragment.whole.render environment = .ok "" between)
      (rendered : rest.whole.render between = .ok text after)
      (onlyBreaks : Block.dropBreaks text = "") :
      TakesNoBreak environment (.link (.rawClause fragment) rest)
  | behind {clause : Clause} {rest : Chain} {environment between : Environment} {text : String}
      (rendered : clause.whole.render environment = .ok text between)
      (takesNone : TakesNoBreak between rest) : TakesNoBreak environment (.link clause rest)

variable {fragment : Fragment} {clause : Clause} {rest : Chain} {environment between : Environment}

/-- Behind a clause that writes its line break, a line break is written if the rest writes it. -/
theorem takesNoBreak_link_iff {text : String}
    (rendered : clause.whole.render environment = .ok text between)
    (written : ∀ after, ¬ Silent environment [clause] after) :
    TakesNoBreak environment (.link clause rest) ↔ TakesNoBreak between rest := by
  constructor
  · rintro (_ | ⟨empty, -, -⟩ | ⟨again, takesNone⟩)
    · exact absurd (.raw empty (.nil _)) (written _)
    · rcases rendered.symm.trans again with ⟨⟩
      exact takesNone
  · exact .behind rendered

theorem takesNoBreak_link_idle_iff {detach : Bool} :
    TakesNoBreak environment (.link (Clause.delete detach []) rest) ↔
      TakesNoBreak environment rest := by
  constructor
  · rintro (_ | _ | ⟨⟨⟩, takesNone⟩)
    exact takesNone
  · have nothing : (Clause.delete detach []).whole.render environment = .ok "" environment := rfl
    exact .behind nothing

/-- What an empty text makes of a line break behind the rest of its chain. -/
theorem takesNoBreak_link_empty_iff {text : String} {after : Environment}
    (empty : fragment.whole.render environment = .ok "" between)
    (rendered : rest.whole.render between = .ok text after) :
    TakesNoBreak environment (.link (.rawClause fragment) rest) ↔
      Block.dropBreaks text = "" ∨ TakesNoBreak between rest := by
  constructor
  · rintro (_ | ⟨again, renderedAgain, onlyBreaks⟩ | ⟨again, takesNone⟩)
    · rcases empty.symm.trans again with ⟨⟩
      rcases rendered.symm.trans renderedAgain with ⟨⟩
      exact .inl onlyBreaks
    · rcases empty.symm.trans again with ⟨⟩
      exact .inr takesNone
  · rintro (onlyBreaks | takesNone)
    · exact .breaks empty rendered onlyBreaks
    · exact .behind empty takesNone

/-- Rendering another chain gives the same, or the same text with a line break behind it. -/
def EndsLike (unbroken : Prop) (closed chain : Chain) (environment : Environment) : Prop :=
  unbroken ∧ closed.whole.render environment = chain.whole.render environment ∨
    ¬ unbroken ∧
      closed.whole.render environment = ((· ++ "\n") <$> chain.whole.render) environment

theorem EndsLike.of_error {unbroken : Prop} {closed chain : Chain} {error : RenderError}
    {left : Environment} (closedFailed : closed.whole.render environment = .error error left)
    (failed : chain.whole.render environment = .error error left) :
    EndsLike unbroken closed chain environment := by
  by_cases isUnbroken : unbroken
  · exact .inl ⟨isUnbroken, closedFailed.trans failed.symm⟩
  · exact .inr ⟨isUnbroken, closedFailed.trans (Layout.map_error _ failed).symm⟩

theorem EndsLike.error {unbroken : Prop} {closed chain : Chain} {error : RenderError}
    {left : Environment} (endsLike : EndsLike unbroken closed chain environment)
    (failed : chain.whole.render environment = .error error left) :
    closed.whole.render environment = .error error left := by
  rcases endsLike with ⟨-, same⟩ | ⟨-, more⟩
  · exact same.trans failed
  · exact more.trans (Layout.map_error _ failed)

theorem EndsLike.ok {unbroken : Prop} {closed chain : Chain} {text : String} {after : Environment}
    (endsLike : EndsLike unbroken closed chain environment)
    (rendered : chain.whole.render environment = .ok text after) :
    unbroken ∧ closed.whole.render environment = .ok text after ∨
      ¬ unbroken ∧ closed.whole.render environment = .ok (text ++ "\n") after := by
  rcases endsLike with ⟨isUnbroken, same⟩ | ⟨isBroken, more⟩
  · exact .inl ⟨isUnbroken, same.trans rendered⟩
  · exact .inr ⟨isBroken, more.trans (Layout.map_ok _ rendered)⟩

theorem endsLike_last (detach : Bool) (clause : Clause) (environment : Environment) :
    EndsLike (TakesNoBreak environment (.last clause))
      (.link clause (.last (Clause.delete detach []))) (.last clause) environment := by
  cases rendered : clause.whole.render environment with
  | error error left =>
      exact .of_error (ClauseLayout.render_followedBy_error rendered _) rendered
  | ok text between =>
      rcases Clause.followedBy_cases rendered with
        ⟨other, rfl⟩ | ⟨fragment, rfl, rfl⟩ | ⟨written, follows⟩
      · exact .inl ⟨.last (.idle other (.nil environment)), rfl⟩
      · exact .inl ⟨.last (.raw rendered (.nil between)),
          (render_link_empty rendered _).trans rendered.symm⟩
      · refine .inr ⟨?_, (follows Layout.empty).trans ?_⟩
        · rintro ⟨silent⟩
          exact written _ silent
        · have below : Layout.empty.render between = .ok "" between := rfl
          have above : (Phrase.last clause).whole.render environment = .ok text between :=
            rendered
          rw [Layout.map_ok _ below, Layout.map_ok _ above, String.append_empty]

/-- An empty text drops the line break only together with all the text behind it. -/
theorem endsLike_link_empty {closed rest : Chain}
    (below : EndsLike (TakesNoBreak between rest) closed rest between)
    (empty : fragment.whole.render environment = .ok "" between) :
    EndsLike (TakesNoBreak environment (.link (.rawClause fragment) rest))
      (.link (.rawClause fragment) closed) (.link (.rawClause fragment) rest) environment := by
  have renderedRest := render_link_empty empty rest
  have renderedClosed := render_link_empty empty closed
  cases rendered : rest.whole.render between with
  | error error left =>
      exact .of_error (renderedClosed.trans (Layout.map_error _ (below.error rendered)))
        (renderedRest.trans (Layout.map_error _ rendered))
  | ok text after =>
      rw [EndsLike, takesNoBreak_link_empty_iff empty rendered]
      rcases below with ⟨takesNone, same⟩ | ⟨takesOne, more⟩
      · exact .inl ⟨.inr takesNone,
          renderedClosed.trans ((Layout.map_eq_of_eq _ same).trans renderedRest.symm)⟩
      · rw [Layout.map_ok _ rendered] at more renderedRest
        rw [Layout.map_ok _ more, Block.dropBreaks_append_break] at renderedClosed
        -- Behind line breaks only, the one more is dropped with them.
        by_cases onlyBreaks : Block.dropBreaks text = ""
        · rw [if_pos onlyBreaks] at renderedClosed
          rw [onlyBreaks] at renderedRest
          exact .inl ⟨.inl onlyBreaks, renderedClosed.trans renderedRest.symm⟩
        · rw [if_neg onlyBreaks] at renderedClosed
          have ended := Layout.map_ok (· ++ "\n") renderedRest
          exact .inr ⟨fun either => either.elim onlyBreaks takesOne,
            renderedClosed.trans ended.symm⟩

/-- What holds at the end of the rest holds at the end of the chain. -/
theorem endsLike_link {closed rest : Chain}
    (below : ∀ between, EndsLike (TakesNoBreak between rest) closed rest between)
    (clause : Clause) (environment : Environment) :
    EndsLike (TakesNoBreak environment (.link clause rest)) (.link clause closed)
      (.link clause rest) environment := by
  cases rendered : clause.whole.render environment with
  | error error left =>
      exact .of_error (ClauseLayout.render_followedBy_error rendered _)
        (ClauseLayout.render_followedBy_error rendered _)
  | ok text between =>
      rcases Clause.followedBy_cases rendered with
        ⟨other, rfl⟩ | ⟨fragment, rfl, rfl⟩ | ⟨written, follows⟩
      · rw [takesNoBreak_link_idle_iff]
        exact below environment
      · exact endsLike_link_empty (below between) rendered
      · rw [takesNoBreak_link_iff rendered written]
        rcases below between with ⟨takesNone, same⟩ | ⟨takesOne, more⟩
        · refine .inl ⟨takesNone, ?_⟩
          exact (follows closed.layout).trans
            ((Layout.map_eq_of_eq _ same).trans (follows rest.layout).symm)
        -- The text above is put in front, and the line break behind, in either order.
        · refine .inr ⟨takesOne, (follows closed.layout).trans ?_⟩
          have commute : (text ++ "\n" ++ ·) ∘ (· ++ "\n") = (· ++ "\n") ∘ (text ++ "\n" ++ ·) :=
            funext fun _ => String.append_assoc.symm
          have behind := Layout.map_of_map (follows rest.layout) (· ++ "\n")
          rw [← commute] at behind
          exact (Layout.map_of_map more _).trans behind.symm

/-- A deletion of nothing at the end of the chain writes the line break in front of it, unless that
line break is not written. -/
theorem endsLike_insert_last (detach : Bool) : ∀ (chain : Chain) (environment : Environment),
    EndsLike (TakesNoBreak environment chain)
      (chain.insert (Clause.delete detach []) chain.length) chain environment
  | .last clause, environment => endsLike_last detach clause environment
  | .link clause rest, environment =>
      endsLike_link (endsLike_insert_last detach rest) clause environment

end Chain

end Cypher
