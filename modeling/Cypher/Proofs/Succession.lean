import Cypher.Chain
import Cypher.Proofs.Turns

/-! The clauses of a chain in turn. A chain is rendered clause by clause, each clause in the
environment that the clauses before it left, and the texts stand below each other. Only a
clause without text is an exception, because it takes no line. -/

namespace Cypher

/-! ## One clause and the rest of its chain -/

namespace ClauseLayout

variable {clause : ClauseLayout} {environment between : Environment}

/-- A clause with text stands on the lines above the rest of its chain, which is rendered
in the environment that the clause left. -/
theorem render_followedBy {text : String}
    (rendered : clause.alone.render environment = .ok text between) (written : text ≠ "")
    (rest : Layout) :
    (clause.followedBy rest).render environment =
      ((text ++ "\n" ++ ·) <$> rest.render) between := by
  cases clause with
  | line content =>
      have first : ((content ++ "\n" : Layout)).render environment =
          .ok (text ++ "\n") between :=
        Layout.bind_ok rendered
      exact Layout.bind_ok first
  | skipped =>
      cases rendered
      exact absurd rfl written
  | verbatim content =>
      have hasText : text.isEmpty = false := by
        simpa [String.isEmpty_iff] using written
      refine (Layout.bind_ok rendered).trans ?_
      simp only [hasText]
      rfl

/-- A clause that fails takes the rest of its chain with it. -/
theorem render_followedBy_error {error : RenderError}
    (failed : clause.alone.render environment = .error error between) (rest : Layout) :
    (clause.followedBy rest).render environment = .error error between := by
  cases clause with
  | line content => exact Layout.bind_error (Layout.bind_error failed)
  | skipped => cases failed
  | verbatim content => exact Layout.bind_error failed

end ClauseLayout

/-! ## All clauses -/

namespace Chain

/-- The texts of several clauses, each of them without the clauses behind it. A clause is
rendered in the environment that the one before it left, and the first fault is the end. -/
def renderInTurn (clauses : List Clause) : Layout.Rendering (List String) :=
  clauses.mapM fun clause => clause.whole.render

variable {environment between left : Environment}

theorem renderInTurn_cons {clause : Clause} {text : String}
    (rendered : clause.whole.render environment = .ok text between) (rest : List Clause) :
    renderInTurn (clause :: rest) environment = ((text :: ·) <$> renderInTurn rest) between := by
  rw [renderInTurn, List.mapM_cons]
  exact Layout.bind_ok rendered

theorem renderInTurn_cons_error {clause : Clause} {error : RenderError}
    (failed : clause.whole.render environment = .error error left) (rest : List Clause) :
    renderInTurn (clause :: rest) environment = .error error left := by
  rw [renderInTurn, List.mapM_cons]
  exact Layout.bind_error failed

/-- The first fault is met in the environment that the clauses in front of it left. -/
theorem renderInTurn_error {before : List Clause} {clause : Clause} {texts : List String}
    {error : RenderError} (rendered : renderInTurn before environment = .ok texts between)
    (failed : clause.whole.render between = .error error left) (after : List Clause) :
    renderInTurn (before ++ clause :: after) environment = .error error left := by
  rw [renderInTurn, List.mapM_append]
  exact (Layout.bind_ok rendered).trans
    (Layout.bind_error (renderInTurn_cons_error failed after))

/-- No clause is skipped or repeated. -/
theorem length_of_renderInTurn {clauses : List Clause} {texts : List String}
    (rendered : renderInTurn clauses environment = .ok texts left) :
    texts.length = clauses.length :=
  Layout.length_of_mapM rendered

/-- Every clause in front of another one has text where it is rendered. -/
def WrittenBeforeLast (environment : Environment) (clauses : List Clause) : Prop :=
  ∀ before clause after texts between, clauses = before ++ clause :: after → after ≠ [] →
    renderInTurn before environment = .ok texts between →
    clause.whole.result between ≠ .ok ""

theorem WrittenBeforeLast.head {clause next : Clause} {rest : List Clause} {text : String}
    (written : WrittenBeforeLast environment (clause :: next :: rest))
    (rendered : clause.whole.render environment = .ok text between) : text ≠ "" := by
  rintro rfl
  refine written [] clause (next :: rest) [] environment rfl (List.cons_ne_nil next rest) rfl ?_
  rw [Layout.result, rendered]

theorem WrittenBeforeLast.tail {clause : Clause} {rest : List Clause} {text : String}
    (written : WrittenBeforeLast environment (clause :: rest))
    (rendered : clause.whole.render environment = .ok text between) :
    WrittenBeforeLast between rest := by
  intro before behind after texts later split more renderedBefore
  refine written (clause :: before) behind after (text :: texts) later
    (congrArg (List.cons clause) split) more ?_
  rw [renderInTurn_cons rendered]
  exact Layout.bind_ok renderedBefore

theorem WrittenBeforeLast.single (environment : Environment) (clause : Clause) :
    WrittenBeforeLast environment [clause] := by
  intro before last after texts between split more
  have lengths := congrArg List.length split
  simp only [List.length_append, List.length_cons, List.length_nil] at lengths
  exact absurd (List.eq_nil_of_length_eq_zero (by omega)) more

theorem WrittenBeforeLast.cons {clause : Clause} {rest : List Clause} {text : String}
    (rendered : clause.whole.render environment = .ok text between) (hasText : text ≠ "")
    (written : WrittenBeforeLast between rest) :
    WrittenBeforeLast environment (clause :: rest) := by
  intro before behind after texts later split more renderedBefore
  cases before with
  | nil =>
      cases split
      cases renderedBefore
      rw [Layout.result, rendered]
      exact fun same => hasText (Except.ok.inj same)
  | cons first before =>
      rcases List.cons.inj split with ⟨rfl, splitRest⟩
      rw [renderInTurn_cons rendered] at renderedBefore
      cases others : renderInTurn before between with
      | error error after =>
          rw [Layout.map_error _ others] at renderedBefore
          cases renderedBefore
      | ok restTexts after =>
          rw [Layout.map_ok _ others] at renderedBefore
          cases renderedBefore
          exact written _ _ _ _ _ splitRest more others

/-- The texts of the clauses stand below each other. -/
theorem render_ofClauses {head : Clause} {rest : List Clause}
    (written : WrittenBeforeLast environment (head :: rest)) :
    (ofClauses head rest).whole.render environment =
      ("\n".intercalate <$> renderInTurn (head :: rest)) environment := by
  induction rest generalizing head environment with
  | nil =>
      cases rendered : head.whole.render environment with
      | error error left =>
          rw [Layout.map_error _ (renderInTurn_cons_error rendered [])]
          exact rendered
      | ok text between =>
          rw [Layout.map_ok _ (renderInTurn_cons rendered [])]
          exact rendered
  | cons next rest induction =>
      cases rendered : head.whole.render environment with
      | error error left =>
          rw [Layout.map_error _ (renderInTurn_cons_error rendered (next :: rest))]
          exact ClauseLayout.render_followedBy_error rendered _
      -- The head has text, so its line break stays, and the rest starts where the head ended.
      | ok text between =>
          have below := induction (written.tail rendered)
          refine (ClauseLayout.render_followedBy rendered (written.head rendered)
            (ofClauses next rest).whole).trans ?_
          have inTurn := renderInTurn_cons rendered (next :: rest)
          cases others : renderInTurn (next :: rest) between with
          | error error left =>
              rw [Layout.map_error _ others] at below inTurn
              rw [Layout.map_error _ below, Layout.map_error _ inTurn]
          | ok texts left =>
              rw [Layout.map_ok _ others] at below inTurn
              have more : texts ≠ [] :=
                List.ne_nil_of_length_eq_add_one (length_of_renderInTurn others)
              rw [Layout.map_ok _ below, Layout.map_ok _ inTurn,
                String.intercalate_cons_of_ne_nil more]

/-- A chain is rendered like its clauses, one after the other, with a line break between
them: none of them is left out, repeated or moved. The first fault is the fault of the
chain, and what was named before it stays named. -/
theorem rendered_in_turn {head : Clause} {rest : List Clause}
    (written : WrittenBeforeLast environment (head :: rest)) :
    (ofClauses head rest).clauses = head :: rest ∧
      (ofClauses head rest).length = (head :: rest).length ∧
      (ofClauses head rest).whole.render environment =
        ("\n".intercalate <$> renderInTurn (head :: rest)) environment ∧
      (∀ texts left, renderInTurn (head :: rest) environment = .ok texts left →
        texts.length = (head :: rest).length ∧
          (ofClauses head rest).whole.render environment = .ok ("\n".intercalate texts) left) ∧
      ∀ before clause after texts between error left, head :: rest = before ++ clause :: after →
        renderInTurn before environment = .ok texts between →
        clause.whole.render between = .error error left →
        (ofClauses head rest).whole.render environment = .error error left := by
  have clauses := clauses_ofClauses head rest
  have inTurn := render_ofClauses written
  have lengths := (length_eq _).trans (congrArg List.length clauses)
  refine ⟨clauses, lengths, inTurn, ?_, ?_⟩
  · intro texts left rendered
    refine ⟨length_of_renderInTurn rendered, ?_⟩
    rw [inTurn, Layout.map_ok _ rendered]
  · intro before clause after texts between error left split rendered failed
    rw [inTurn, split, Layout.map_error _ (renderInTurn_error rendered failed after)]

/-- Text that is taken as it stands between two clauses that know the same variable. -/
theorem rendered_in_turn_unwinding :
    let member : Variable := { identity := ⟨0⟩ }
    let head : Clause := .unwinding (.list .nil) member .nil (.deletion false .nil)
    let rest : List Clause := [.rawClause (.verbatim "WITH *"),
      .returning false (.projection false (.cons (.column (.mention member)) .nil))
        (.rowOrder .nil .absent .absent)]
    WrittenBeforeLast (.empty {}) (head :: rest) ∧
      ∃ left, renderInTurn (head :: rest) (.empty {}) =
          .ok ["UNWIND [] AS var0", "WITH *", "RETURN var0"] left ∧
        (ofClauses head rest).whole.render (.empty {}) =
          .ok "UNWIND [] AS var0\nWITH *\nRETURN var0" left := by
  intro member head rest
  have written : WrittenBeforeLast (.empty {}) (head :: rest) :=
    WrittenBeforeLast.cons rfl (by decide)
      (WrittenBeforeLast.cons rfl (by decide) (WrittenBeforeLast.single _ _))
  exact ⟨written, _, rfl, ((rendered_in_turn written).2.2.2.1 _ _ rfl).2⟩

end Chain

end Cypher
