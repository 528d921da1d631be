import Cypher.Proofs.Succession

/-! Clauses without text. Text that is taken as it stands can be empty, and its clause takes no
line then. What follows loses the line breaks in front, not only the one that would stand between
the two clauses. A deletion of nothing takes no line either, and what follows loses nothing. -/

namespace Cypher

/-! ## Line breaks in front of a text -/

namespace Block

/-- The text begins with a line break. -/
def IsBroken (text : String) : Prop :=
  text.toList.head? = some '\n'

@[simp] theorem toList_dropBreaks (text : String) :
    (dropBreaks text).toList = text.toList.dropWhile (· == '\n') :=
  String.toList_ofList

theorem not_isBroken_dropBreaks (text : String) : ¬ IsBroken (dropBreaks text) := by
  rw [IsBroken, toList_dropBreaks]
  intro broken
  have kept := List.head?_dropWhile_not (· == '\n') text.toList
  simp [broken] at kept

theorem dropBreaks_eq_self_iff {text : String} : dropBreaks text = text ↔ ¬ IsBroken text := by
  constructor
  · intro same
    rw [← same]
    exact not_isBroken_dropBreaks text
  · intro unbroken
    rw [← String.toList_inj, toList_dropBreaks]
    cases characters : text.toList with
    | nil => rfl
    | cons head tail =>
        have other : head ≠ '\n' := by
          rintro rfl
          exact unbroken (by rw [IsBroken, characters, List.head?_cons])
        simp [other]

@[simp] theorem dropBreaks_dropBreaks (text : String) :
    dropBreaks (dropBreaks text) = dropBreaks text :=
  dropBreaks_eq_self_iff.mpr (not_isBroken_dropBreaks text)

end Block

/-! ## Keywords in front -/

namespace Layout

/-- All texts of the layout begin with a capital letter. -/
def BeginsWithKeyword (layout : Layout) : Prop :=
  ∀ environment text after, layout.render environment = .ok text after →
    text.toList.head?.any Char.isUpper

theorem beginsWithKeyword_text {content : String}
    (capital : content.toList.head?.any Char.isUpper) :
    (text content).BeginsWithKeyword := by
  rintro environment _ _ ⟨⟩
  exact capital

theorem BeginsWithKeyword.append {first : Layout} (begins : first.BeginsWithKeyword)
    (second : Layout) : (first ++ second).BeginsWithKeyword := by
  intro environment written after rendered
  rw [render_append] at rendered
  rcases ok_of_bind rendered with ⟨firstText, between, firstRendered, others⟩
  rcases ok_of_bind others with ⟨secondText, last, -, put⟩
  cases put
  have capital := begins environment firstText between firstRendered
  cases characters : firstText.toList with
  | nil =>
      rw [characters] at capital
      cases capital
  | cons head tail =>
      rw [characters] at capital
      rw [String.toList_append, characters]
      exact capital

theorem BeginsWithKeyword.lines {first : Layout} (begins : first.BeginsWithKeyword)
    (others : List Layout) : (lines (first :: others)).BeginsWithKeyword := by
  cases others with
  | nil => exact begins
  | cons second others => exact (begins.append "\n").append _

theorem BeginsWithKeyword.not_isBroken {layout : Layout} {environment after : Environment}
    {text : String} (begins : layout.BeginsWithKeyword)
    (rendered : layout.render environment = .ok text after) : ¬ Block.IsBroken text := by
  intro broken
  have capital := begins environment text after rendered
  rw [broken] at capital
  exact absurd capital (by decide)

end Layout

namespace Clause

open Layout (BeginsWithKeyword beginsWithKeyword_text)

/-- The clause writes a keyword of its own, and writes it first. -/
def hasKeyword : Clause → Bool
  | .rawClause _ => false
  | .union _ _ => false
  | .deleting (.deletion _ .nil) => false
  | _ => true

/-- A clause with a keyword has a line of its own. -/
theorem exists_line {clause : Clause} (keyword : clause.hasKeyword) :
    ∃ content : Layout, clause.layout = .line content ∧ content.BeginsWithKeyword := by
  cases clause with
  | matching isOptional selector first rest filter updates deletion =>
      refine ⟨_, rfl, BeginsWithKeyword.lines ?_ _⟩
      cases isOptional <;> exact (beginsWithKeyword_text rfl).append _
  | creating first rest updates =>
      exact ⟨_, rfl, ((beginsWithKeyword_text rfl).append _).lines _⟩
  | merging path onCreate onMatch updates =>
      exact ⟨_, rfl, ((beginsWithKeyword_text rfl).append _).lines _⟩
  | passing distinct projection order filter =>
      exact ⟨_, rfl, ((((beginsWithKeyword_text rfl).append _).append _).append _).lines _⟩
  | returning distinct projection order =>
      exact ⟨_, rfl, ((((beginsWithKeyword_text rfl).append _).append _).append _).lines _⟩
  | unwinding list member updates deletion =>
      exact ⟨_, rfl, ((((beginsWithKeyword_text rfl).append _).append _).append _).lines _⟩
  | calling imports body transactions =>
      exact ⟨_, rfl, ((beginsWithKeyword_text rfl).append _).append _⟩
  | procedure name arguments yields filter =>
      have capital : ("CALL " ++ name ++ "(").toList.head?.any Char.isUpper := by
        simp only [String.toList_append]
        rfl
      exact ⟨_, rfl,
        ((((beginsWithKeyword_text capital).append _).append _).append _).lines _⟩
  | iterating member list body =>
      refine ⟨_, rfl, ?_⟩
      iterate 6 apply BeginsWithKeyword.append
      exact beginsWithKeyword_text rfl
  | union all queries => cases keyword
  | deleting deletion =>
      cases deletion with
      | deletion detach targets =>
          cases targets with
          | nil => cases keyword
          | cons head tail =>
              refine ⟨_, rfl, ?_⟩
              cases detach <;> exact (beginsWithKeyword_text rfl).append _
  | finish => exact ⟨_, rfl, beginsWithKeyword_text rfl⟩
  | rawClause fragment => cases keyword

end Clause

namespace Layout

/-- Renderings that agree where they start are changed alike. -/
theorem map_eq_of_eq {α β : Type} {first second : Rendering α} {environment between : Environment}
    (change : α → β) (same : first environment = second between) :
    (change <$> first) environment = (change <$> second) between := by
  cases rendered : second between with
  | ok value after => rw [map_ok change rendered, map_ok change (same.trans rendered)]
  | error error after => rw [map_error change rendered, map_error change (same.trans rendered)]

/-- Two changes of one rendering are one change. -/
theorem map_of_map {α β γ : Type} {first : Rendering β} {second : Rendering α}
    {environment between : Environment} {inner : α → β}
    (same : first environment = (inner <$> second) between) (outer : β → γ) :
    (outer <$> first) environment = ((outer ∘ inner) <$> second) between := by
  rw [map_eq_of_eq outer same, Functor.map_map]
  rfl

/-- A change does nothing exactly if it does nothing to the text that is rendered. -/
theorem map_eq_self_iff {change : String → String} {rendering : Rendering String}
    {environment : Environment} :
    (change <$> rendering) environment = rendering environment ↔
      ∀ text after, rendering environment = .ok text after → change text = text := by
  cases rendered : rendering environment with
  | ok text after =>
      rw [map_ok change rendered]
      constructor
      · rintro same _ _ ⟨⟩
        exact (EStateM.Result.ok.inj same).1
      · intro same
        rw [same text after rfl]
  | error error after =>
      rw [map_error change rendered]
      refine ⟨?_, fun _ => rfl⟩
      rintro - text left ⟨⟩

end Layout

namespace Chain

theorem beginsWithKeyword_whole {chain : Chain} (keyword : chain.head.hasKeyword) :
    chain.whole.BeginsWithKeyword := by
  rcases Clause.exists_line keyword with ⟨content, line, begins⟩
  cases chain with
  | last clause =>
      change clause.layout.alone.BeginsWithKeyword
      rw [show clause.layout = .line content from line]
      exact begins
  | link clause rest =>
      change (clause.layout.followedBy rest.layout).BeginsWithKeyword
      rw [show clause.layout = .line content from line]
      exact (begins.append "\n").append rest.layout

/-! ## Clauses that take no line -/

/-- Clauses in front of the rest of their chain. -/
def below (clauses : List Clause) (rest : Chain) : Chain :=
  clauses.foldr .link rest

/-- Each of the clauses takes no line, where the clauses before it leave off. -/
inductive Silent : Environment → List Clause → Environment → Prop where
  | nil (environment : Environment) : Silent environment [] environment
  /-- Text that is taken as it stands and turns out to be empty. -/
  | raw {fragment : Fragment} {environment between after : Environment} {rest : List Clause}
      (empty : fragment.whole.render environment = .ok "" between)
      (others : Silent between rest after) : Silent environment (.rawClause fragment :: rest) after
  /-- A deletion of nothing. -/
  | idle (detach : Bool) {environment after : Environment} {rest : List Clause}
      (others : Silent environment rest after) :
      Silent environment (Clause.delete detach [] :: rest) after

variable {fragment : Fragment} {environment between after : Environment}

/-- Behind text that is taken as it stands and is empty, the rest of the chain goes on without the
line breaks in front of it. -/
theorem render_link_empty (empty : fragment.whole.render environment = .ok "" between)
    (rest : Chain) :
    (Phrase.link (.rawClause fragment) rest).whole.render environment =
      (Block.dropBreaks <$> rest.whole.render) between := by
  refine (Layout.bind_ok empty).trans ?_
  rw [map_eq_pure_bind]
  rfl

/-- However many clauses take no line, only line breaks in front of the rest can be lost. -/
theorem render_below_silent {clauses : List Clause} (silent : Silent environment clauses after)
    (rest : Chain) :
    (Block.dropBreaks <$> (below clauses rest).whole.render) environment =
      (Block.dropBreaks <$> rest.whole.render) after := by
  have idempotent : Block.dropBreaks ∘ Block.dropBreaks = Block.dropBreaks :=
    funext Block.dropBreaks_dropBreaks
  induction silent with
  | nil environment => rfl
  -- Dropping line breaks twice is dropping them once, so a run loses no more than one clause does.
  | raw empty others induction =>
      refine (Layout.map_of_map (render_link_empty empty _) Block.dropBreaks).trans ?_
      rw [idempotent]
      exact induction
  | idle detach others induction => exact induction

/-- In front of a keyword there is nothing to lose. -/
theorem render_below_of_keyword {clauses : List Clause} {rest : Chain}
    (keyword : rest.head.hasKeyword) (silent : Silent environment clauses after) :
    (below clauses rest).whole.render environment = rest.whole.render after := by
  induction silent with
  | nil environment => rfl
  | raw empty others _ =>
      refine (render_link_empty empty _).trans ((render_below_silent others rest).trans ?_)
      refine Layout.map_eq_self_iff.mpr fun text left rendered => ?_
      exact Block.dropBreaks_eq_self_iff.mpr
        ((beginsWithKeyword_whole keyword).not_isBroken rendered)
  | idle detach others induction => exact induction

/-- Text that is taken as it stands and is empty takes no line. What is rendered is the rest of the
chain in the environment that the empty text left, with the same fault or the same text up to the
line breaks in front of it: just as it is exactly if no such line break is there, which is so
wherever the next clause that takes a line begins with a keyword. -/
theorem rendered_behind_empty (empty : fragment.whole.render environment = .ok "" between)
    (rest : Chain) :
    (Phrase.link (.rawClause fragment) rest).whole.render environment =
        (Block.dropBreaks <$> rest.whole.render) between ∧
      ((Phrase.link (.rawClause fragment) rest).whole.render environment =
          rest.whole.render between ↔
        ∀ text after, rest.whole.render between = .ok text after → ¬ Block.IsBroken text) ∧
      (∀ content, fragment = .verbatim content → content = "" ∧ between = environment) ∧
      ∀ clauses behind after, rest = below clauses behind → Silent between clauses after →
        (Phrase.link (.rawClause fragment) rest).whole.render environment =
            (Block.dropBreaks <$> behind.whole.render) after ∧
          (behind.head.hasKeyword →
            (Phrase.link (.rawClause fragment) rest).whole.render environment =
                rest.whole.render between ∧
              rest.whole.render between = behind.whole.render after) := by
  have rendered := render_link_empty empty rest
  have untouched :
      (Phrase.link (.rawClause fragment) rest).whole.render environment =
          rest.whole.render between ↔
        ∀ text after, rest.whole.render between = .ok text after → ¬ Block.IsBroken text := by
    rw [rendered, Layout.map_eq_self_iff]
    simp only [Block.dropBreaks_eq_self_iff]
  refine ⟨rendered, untouched, ?_, ?_⟩
  · rintro content rfl
    cases empty
    exact ⟨rfl, rfl⟩
  · rintro clauses behind after rfl silent
    refine ⟨rendered.trans (render_below_silent silent behind), fun keyword => ?_⟩
    have others := render_below_of_keyword keyword silent
    exact ⟨(render_below_of_keyword keyword (.raw empty silent)).trans others.symm, others⟩

/-- Three clauses without text in front of one with a keyword. -/
theorem rendered_behind_empty_finish :
    let fragment : Fragment := .computed .nil
    let clauses : List Clause := [Clause.delete true [], .rawClause (.verbatim "")]
    let rest : Chain := below clauses (.last .finish)
    fragment.whole.render (.empty {}) = .ok "" (.empty {}) ∧
      Silent (.empty {}) clauses (.empty {}) ∧
      (Phrase.link (.rawClause fragment) rest).whole.render (.empty {}) =
        .ok "FINISH" (.empty {}) := by
  intro fragment clauses rest
  have empty : fragment.whole.render (.empty {}) = .ok "" (.empty {}) := rfl
  have silent : Silent (.empty {}) clauses (.empty {}) := .idle true (.raw rfl (.nil _))
  rcases (rendered_behind_empty empty rest).2.2.2 clauses _ _ rfl silent with ⟨-, kept⟩
  exact ⟨empty, silent, (kept rfl).1.trans (kept rfl).2⟩

/-- Empty text can leave a name behind, and what follows counts on from it. -/
example :
    let fragment : Fragment :=
      .computed (.cons (.unwrittenPiece (.mention { identity := ⟨0⟩ })) .nil)
    let rest : Chain :=
      .last (Clause.giveBack
        (.projection false (.cons (.column (.mention { identity := ⟨1⟩ })) .nil)))
    (Phrase.link (.rawClause fragment) rest).whole.result (.empty {}) = .ok "RETURN var1" := by
  rfl

/-- The line break that the second text begins with is not written. -/
theorem break_lost_behind_empty :
    let rest : Chain := .last (.rawClause (.verbatim "\nRETURN 1"))
    rest.whole.result (.empty {}) = .ok "\nRETURN 1" ∧
      (Phrase.link (.rawClause (.verbatim "")) rest).whole.result (.empty {}) = .ok "RETURN 1" := by
  decide

end Chain

end Cypher
