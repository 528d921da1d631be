import Cypher.Chain

/-! How chains grow. A clause can be continued exactly if nothing follows it, so a chain
grows at its end only, and an attempt at any other clause leaves it as it was. -/

namespace Cypher

/-- A chain is known by its clauses. -/
theorem Chain.clauses_inj {first second : Chain} (equal : first.clauses = second.clauses) :
    first = second := by
  rcases first.eq_ofClauses with ⟨rest, isFirst⟩
  rcases second.eq_ofClauses with ⟨otherRest, isSecond⟩
  rw [isFirst, isSecond, clauses_ofClauses, clauses_ofClauses] at equal
  rcases List.cons.inj equal with ⟨sameHead, sameRest⟩
  rw [isFirst, isSecond, sameHead, sameRest]

namespace Cursor

/-! ## Positions -/

/-- The clauses behind the current one. -/
def following (cursor : Cursor) : List Clause :=
  (cursor.after.map Chain.clauses).getD []

theorem clauses_foldl (before : List Clause) (rest : Chain) :
    Chain.clauses (before.foldl (fun rest clause => .link clause rest) rest) =
      before.reverse ++ rest.clauses := by
  induction before generalizing rest with
  | nil => rfl
  | cons nearest earlier induction =>
      rw [List.foldl_cons, induction, Chain.clauses_link, List.reverse_cons,
        List.append_assoc, List.singleton_append]

theorem clauses_chain (cursor : Cursor) :
    cursor.chain.clauses = cursor.before.reverse ++ cursor.current :: cursor.following := by
  rw [chain, clauses_foldl, rest, Chain.clauses_ofHead, following]

/-- Every clause of a chain is the current clause of a cursor. -/
theorem exists_of_clauses {chain : Chain} {before after : List Clause} {current : Clause}
    (split : chain.clauses = before ++ current :: after) :
    ∃ cursor : Cursor, cursor.chain = chain ∧ cursor.before = before.reverse ∧
      cursor.current = current ∧ cursor.following = after := by
  let rest : Option Chain := match after with
    | [] => none
    | next :: behind => some (.ofClauses next behind)
  have follows : (rest.map Chain.clauses).getD [] = after := by
    cases after with
    | nil => rfl
    | cons next behind => exact Chain.clauses_ofClauses next behind
  refine ⟨{ before := before.reverse, current, after := rest }, ?_, rfl, rfl, follows⟩
  apply Chain.clauses_inj
  rw [clauses_chain, split, List.reverse_reverse, following, follows]

/-! ## Attempts -/

/-- The answer to an attempt, and the chain that it leaves. -/
def attempt (cursor : Cursor) (addition : Chain) : Except ConstructionError Unit × Chain :=
  match (extend addition).run cursor with
  | .ok _ next => (.ok (), next.chain)
  | .error error left => (.error error, left.chain)

theorem extend_of_last {cursor : Cursor} (chainable : cursor.current.kind.isChainable)
    (last : cursor.after = none) (addition : Chain) :
    (extend addition).run cursor = .ok () { before := cursor.current :: cursor.before
                                            current := addition.head
                                            after := addition.tail? } := by
  simp only [extend, EStateM.run_bind, EStateM.run_get, chainable, last, if_true, EStateM.run_set]

/-- A refused addition changes nothing. -/
theorem extend_of_continued {cursor : Cursor} (chainable : cursor.current.kind.isChainable)
    {existing : Chain} (continued : cursor.after = some existing) (addition : Chain) :
    (extend addition).run cursor = .error (.clauseAlreadyChained addition.head.kind
      cursor.current.kind existing.head.kind) cursor := by
  simp only [extend, EStateM.run_bind, EStateM.run_get, chainable, continued, if_true,
    EStateM.run_throw]

/-- The clause is the last one and the addition follows it, or another clause follows it and
the addition is refused. -/
theorem attempt_cases {cursor : Cursor} (chainable : cursor.current.kind.isChainable)
    (addition : Chain) :
    (cursor.following = [] ∧ ∃ longer : Chain, cursor.attempt addition = (.ok (), longer) ∧
      longer.clauses = cursor.chain.clauses ++ addition.clauses) ∨
    ∃ existing behind, cursor.following = existing :: behind ∧
      cursor.attempt addition =
        (.error (.clauseAlreadyChained addition.head.kind cursor.current.kind existing.kind),
          cursor.chain) := by
  cases after : cursor.after with
  | none =>
      have last : cursor.following = [] := by rw [following, after]; rfl
      let next : Cursor :=
        { before := cursor.current :: cursor.before
          current := addition.head
          after := addition.tail? }
      have attached := extend_of_last chainable after addition
      refine .inl ⟨last, next.chain, by rw [attempt, attached], ?_⟩
      have new : next.rest = addition := Chain.ofHead_head_tail addition
      rw [chain, clauses_foldl, new, clauses_chain, last, List.reverse_cons]
  | some rest =>
      have follows : cursor.following = rest.clauses := by rw [following, after]; rfl
      rcases rest.eq_ofClauses with ⟨behind, isRest⟩
      have refused := extend_of_continued chainable after addition
      refine .inr ⟨rest.head, behind, follows.trans ?_, by rw [attempt, refused]⟩
      exact (congrArg Chain.clauses isRest).trans (Chain.clauses_ofClauses _ _)

end Cursor

/-! ## Runs of attempts -/

namespace Chain

/-- An addition, and the answer to the attempt to attach it. -/
abbrev Log := List (Chain × Except ConstructionError Unit)

/-- The additions that were attached. -/
def accepted (log : Log) : List Chain :=
  (log.filter (·.2.isOk)).map (·.1)

/-- The chain grew from one clause by attempts at clauses that can be continued, with the
given answers. Whatever was to be attached grew in the same way. -/
inductive Run : Clause → Log → Chain → Prop where
  | start (clause : Clause) : Run clause [] (.last clause)
  | attempt {clause other : Clause} {log otherLog : Log} {cursor : Cursor} {addition : Chain}
      (run : Run clause log cursor.chain) (chainable : cursor.current.kind.isChainable)
      (grown : Run other otherLog addition) :
      Run clause (log ++ [(addition, (cursor.attempt addition).1)])
        (cursor.attempt addition).2

/-- Every clause in front of another one can be continued. -/
def Linked (clauses : List Clause) : Prop :=
  ∀ clause ∈ clauses.dropLast, clause.kind.isChainable

theorem Linked.append {before : List Clause} {current : Clause} {others : List Clause}
    (linked : Linked (before ++ [current])) (chainable : current.kind.isChainable)
    (othersLinked : Linked others) : Linked (before ++ [current] ++ others) := by
  rw [Linked, List.dropLast_concat] at linked
  intro clause member
  cases others with
  | nil =>
      rw [List.append_nil, List.dropLast_concat] at member
      exact linked clause member
  | cons next rest =>
      rw [List.dropLast_append_of_ne_nil (List.cons_ne_nil next rest)] at member
      rcases List.mem_append.mp member with earlier | later
      · rcases List.mem_append.mp earlier with earlier | isCurrent
        · exact linked clause earlier
        · rw [List.mem_singleton.mp isCurrent]
          exact chainable
      · exact othersLinked clause later

theorem Linked.last {before after : List Clause} {clause : Clause}
    (linked : Linked (before ++ clause :: after)) (ending : ¬ clause.kind.isChainable) :
    after = [] := by
  cases after with
  | nil => rfl
  | cons next rest =>
      have member : clause ∈ (before ++ clause :: next :: rest).dropLast := by
        rw [List.dropLast_append_of_ne_nil (List.cons_ne_nil _ _), List.dropLast_cons_cons]
        exact List.mem_append_right _ List.mem_cons_self
      exact absurd (linked clause member) ending

/-- Whatever was tried, all clauses but the last one can be continued. -/
theorem Run.isLinked {clause : Clause} {log : Log} {chain : Chain} (run : Run clause log chain) :
    Linked chain.clauses := by
  -- An addition is the result of a run, too, so there is a second induction hypothesis.
  induction run with
  | start clause => exact fun _ member => absurd member List.not_mem_nil
  | @attempt _ _ _ _ cursor addition _ chainable _ linked additionLinked =>
      rcases cursor.attempt_cases chainable addition with
        ⟨last, longer, attached, clauses⟩ | ⟨existing, behind, -, refused⟩
      · rw [attached, clauses]
        rw [cursor.clauses_chain, last] at linked ⊢
        exact linked.append chainable additionLinked
      · rw [refused]
        exact linked

/-- The clauses are those of the first clause and of all accepted additions. -/
theorem Run.clauses_eq {clause : Clause} {log : Log} {chain : Chain}
    (run : Run clause log chain) :
    chain.clauses = clause :: (accepted log).flatMap clauses := by
  induction run with
  | start clause => rfl
  | @attempt _ _ log _ cursor addition _ chainable _ grown _ =>
      rcases cursor.attempt_cases chainable addition with
        ⟨-, longer, attached, clauses⟩ | ⟨existing, behind, -, refused⟩
      · rw [attached, clauses, grown]
        simp [accepted, Except.isOk, Except.toBool]
      · rw [refused, grown]
        simp [accepted, Except.isOk, Except.toBool]

/-- What holds of a chain after any number of attempts, and what the next one does. -/
theorem Run.single_linkage {clause : Clause} {log : Log} {chain : Chain}
    (run : Run clause log chain) :
    chain.clauses = clause :: (accepted log).flatMap clauses ∧
      chain.length = chain.clauses.length ∧
      (∀ before ending after, chain.clauses = before ++ ending :: after →
        ending.kind ∈ [.returning, .union, .finish] → after = []) ∧
      (∀ before current after, chain.clauses = before ++ current :: after →
        ∃ cursor : Cursor, cursor.chain = chain ∧ cursor.before = before.reverse ∧
          cursor.current = current) ∧
      ∀ (cursor : Cursor) (addition : Chain), cursor.chain = chain →
        cursor.current.kind.isChainable →
        ((cursor.attempt addition).1 = .ok () ↔
          chain.clauses = cursor.before.reverse ++ [cursor.current]) ∧
        ((cursor.attempt addition).1 = .ok () →
          (cursor.attempt addition).2.clauses = chain.clauses ++ addition.clauses ∧
            (cursor.attempt addition).2.length = chain.length + addition.length ∧
            addition.length = addition.clauses.length) ∧
        ∀ error, (cursor.attempt addition).1 = .error error →
          (cursor.attempt addition).2 = chain ∧
            ∃ existing behind,
              chain.clauses = cursor.before.reverse ++ cursor.current :: existing :: behind ∧
                error = .clauseAlreadyChained addition.head.kind cursor.current.kind
                  existing.kind := by
  refine ⟨run.clauses_eq, chain.length_eq, ?_, ?_, ?_⟩
  · intro before ending after split ends
    have linked := run.isLinked
    rw [split] at linked
    refine linked.last fun chainable => ?_
    simp only [List.mem_cons, List.not_mem_nil, or_false] at ends
    rcases ends with kind | kind | kind <;> rw [kind] at chainable <;> cases chainable
  · intro before current after split
    rcases Cursor.exists_of_clauses split with ⟨cursor, whole, isBefore, isCurrent, -⟩
    exact ⟨cursor, whole, isBefore, isCurrent⟩
  · rintro cursor addition rfl chainable
    rcases cursor.attempt_cases chainable addition with
      ⟨last, longer, attached, clauses⟩ | ⟨existing, behind, follows, refused⟩
    · rw [attached]
      refine ⟨?_, fun _ => ⟨clauses, ?_, addition.length_eq⟩, nofun⟩
      · rw [cursor.clauses_chain, last]
        exact ⟨fun _ => rfl, fun _ => rfl⟩
      · rw [length_eq, clauses, List.length_append, length_eq, length_eq]
    · rw [refused]
      refine ⟨⟨nofun, fun last => ?_⟩, nofun, fun error failed => ?_⟩
      · rw [cursor.clauses_chain, follows] at last
        simp at last
      · cases failed
        refine ⟨rfl, existing, behind, ?_, rfl⟩
        rw [cursor.clauses_chain, follows]

/-- A chain of two clauses is attached to a clause, which then refuses a third one. -/
theorem single_linkage_unwinding :
    let member : Variable := { identity := ⟨0⟩ }
    let head : Clause := Clause.unwind (.list .nil) member
    let middle : Clause := Clause.pass Projection.all
    let ending : Clause := Clause.giveBack Projection.all
    let chain : Chain := .link head (.link middle (.last ending))
    let log : Log := [(.link middle (.last ending), .ok ()),
      (.last .finish, .error (.clauseAlreadyChained .finish .unwinding .passing))]
    Run head log chain ∧
      chain.clauses = head :: (accepted log).flatMap clauses ∧
      ∀ addition : Chain,
        (Cursor.attempt { current := head, after := some (.link middle (.last ending)) }
          addition).1 ≠ .ok () := by
  intro member head middle ending chain log
  have new : Run middle [(.last ending, .ok ())] (.link middle (.last ending)) :=
    @Run.attempt _ _ _ _ (.ofClause middle) _ (.start middle) rfl (.start ending)
  have longer : Run head [(.link middle (.last ending), .ok ())] chain :=
    @Run.attempt _ _ _ _ (.ofClause head) _ (.start head) rfl new
  have run : Run head log chain :=
    @Run.attempt _ _ _ _ (.ofChain chain) _ longer rfl (.start .finish)
  rcases run.single_linkage with ⟨clauses, -, -, -, law⟩
  refine ⟨run, clauses, fun addition attached => ?_⟩
  have last := (law { current := head, after := some (.link middle (.last ending)) } addition
    rfl rfl).1.mp attached
  cases last

end Chain

end Cypher
