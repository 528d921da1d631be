import Cypher.Clause

/-! Chains of clauses. A chain has a first clause, and grows at its end only. A
cursor is a clause of a chain together with its surroundings: it is where a
chain is filled and extended. -/

namespace Cypher

/-- The clauses of a chain in order. Other phrases have none. -/
def Phrase.chained : Phrase category → List Clause
  | .last clause => [clause]
  | .link clause rest => clause :: rest.chained
  | _ => []

/-- How many clauses there are from the first clause of a chain to its end. -/
def Phrase.chainLength : Phrase category → Nat
  | .last _ => 1
  | .link _ rest => rest.chainLength + 1
  | _ => 0

namespace Chain

def clauses (chain : Chain) : List Clause :=
  chain.chained

def ofClauses (head : Clause) : List Clause → Chain
  | [] => .last head
  | next :: rest => .link head (ofClauses next rest)

def head : Chain → Clause
  | .last clause => clause
  | .link clause _ => clause

def tail? : Chain → Option Chain
  | .last _ => none
  | .link _ rest => some rest

def length (chain : Chain) : Nat :=
  chain.chainLength

def kinds (chain : Chain) : List ClauseKind :=
  chain.clauses.map Clause.kind

/-- A clause and the rest of its chain. -/
def ofHead (head : Clause) : Option Chain → Chain
  | none => .last head
  | some rest => .link head rest

@[simp] theorem ofHead_head_tail (chain : Chain) : ofHead chain.head chain.tail? = chain := by
  cases chain <;> rfl

/-! ## Chains as lists -/

@[simp] theorem clauses_last (clause : Clause) : clauses (.last clause) = [clause] := rfl

@[simp] theorem clauses_link (clause : Clause) (rest : Chain) :
    clauses (.link clause rest) = clause :: rest.clauses := rfl

@[simp] theorem clauses_ofClauses (head : Clause) (rest : List Clause) :
    (ofClauses head rest).clauses = head :: rest := by
  induction rest generalizing head with
  | nil => rfl
  | cons next rest induction => rw [ofClauses, clauses_link, induction]

theorem length_eq : ∀ chain : Chain, chain.length = chain.clauses.length
  | .last _ => rfl
  | .link _ rest => congrArg (· + 1) (length_eq rest)

/-- A chain is made of its clauses. -/
theorem eq_ofClauses : ∀ chain : Chain, ∃ rest, chain = ofClauses chain.head rest
  | .last _ => ⟨[], rfl⟩
  | .link clause rest => by
      rcases eq_ofClauses rest with ⟨behind, equal⟩
      exact ⟨head rest :: behind, congrArg (Phrase.link clause) equal⟩

@[simp] theorem clauses_ofHead (head : Clause) (rest : Option Chain) :
    (ofHead head rest).clauses = head :: (rest.map clauses).getD [] := by
  cases rest <;> rfl

end Chain

/-- The clauses before the current one are listed from the nearest to the first. -/
structure Cursor where
  before : List Clause := []
  current : Clause
  after : Option Chain := none

namespace Cursor

def ofChain (chain : Chain) : Cursor :=
  { current := chain.head, after := chain.tail? }

def ofClause (clause : Clause) : Cursor :=
  { current := clause }

/-- The chain from the current clause on. -/
def rest (cursor : Cursor) : Chain :=
  Chain.ofHead cursor.current cursor.after

/-- The whole chain. -/
def chain (cursor : Cursor) : Chain :=
  cursor.before.foldl (fun rest clause => .link clause rest) cursor.rest

def isLast (cursor : Cursor) : Bool :=
  cursor.after.isNone

/-- Continue the chain after the current clause, which has to be the last one,
and go on to the first new clause. A refused addition leaves the cursor where
it is. -/
def extend (addition : Chain) : EStateM ConstructionError Cursor Unit := do
  let cursor ← get
  if cursor.current.kind.isChainable then
    match cursor.after with
    | none =>
        set { before := cursor.current :: cursor.before
              current := addition.head
              after := addition.tail? : Cursor }
    | some existing =>
        throw (.clauseAlreadyChained addition.head.kind cursor.current.kind
          existing.head.kind)
  else
    throw (.clauseEndsChain addition.head.kind cursor.current.kind)

/-- The cursor after an addition, or why it was refused. -/
def attach (cursor : Cursor) (addition : Chain) : Except ConstructionError Cursor :=
  match (extend addition).run cursor with
  | .ok _ next => .ok next
  | .error error _ => .error error

/-- The clause before the current one. -/
def back? (cursor : Cursor) : Option Cursor :=
  match cursor.before with
  | [] => none
  | previous :: earlier =>
      some { before := earlier, current := previous, after := some cursor.rest }

/-- Change the current clause, and nothing else. -/
def step? (cursor : Cursor) (step : ClauseStep) : Option Cursor :=
  (cursor.current.step? step).map fun current => { cursor with current }

theorem chain_ofChain (chain : Chain) : (ofChain chain).chain = chain :=
  Chain.ofHead_head_tail chain

theorem chain_back? {cursor previous : Cursor} (moved : cursor.back? = some previous) :
    previous.chain = cursor.chain := by
  unfold back? at moved
  split at moved
  · cases moved
  · next clause earlier before =>
      cases moved
      simp [chain, before, rest, Chain.ofHead]

end Cursor

end Cypher
