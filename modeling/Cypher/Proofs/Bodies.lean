import Cypher.Proofs.Indentation
import Cypher.Proofs.Insertion

/-! Chains that are bodies. The body of a subquery or of a loop is a block of its own, and the last
line of a block needs no line break, so a line break at the end of the body is lost there. A branch
of a union is written as it is. Of what stands around the body, only the imported columns of a
subquery matter for that, which are in one block with it. -/

namespace Cypher

/-! ## Line breaks behind a body -/

namespace Block

theorem append_break_ne (text : String) : text ++ "\n" ≠ text := by
  intro same
  have lengths := congrArg String.length same
  rw [String.length_append] at lengths
  exact absurd lengths (Nat.lt_succ_self text.length).ne'

/-- The last character ends no line. -/
def EndsWithMark (text : String) : Prop :=
  ∃ front mark, IsMark mark ∧ text.toList = front ++ [mark]

theorem endsWithMark_append_iff {text : String} (written : text ≠ "") (front : String) :
    EndsWithMark (front ++ text) ↔ EndsWithMark text := by
  rcases text.toList.eq_nil_or_concat' with empty | ⟨before, last, characters⟩
  · exact absurd (String.toList_eq_nil_iff.mp empty) written
  · simp only [EndsWithMark, String.toList_append, characters, ← List.append_assoc,
      List.append_singleton_inj]
    constructor <;> rintro ⟨-, mark, isMark, -, same⟩
    · exact ⟨before, mark, isMark, rfl, same⟩
    · exact ⟨front.toList ++ before, mark, isMark, rfl, same⟩

/-- A line break is seen behind a character that ends a line, or with more text behind it. -/
theorem shift_append_break_ne (fresh : Bool) (front : List Char) {last : Char}
    {more : List Char} (seen : more ≠ [] ∨ ¬ IsMark last) :
    shift fresh (front ++ last :: '\n' :: more) ≠ shift fresh (front ++ [last]) := by
  fun_induction shiftInside fresh front with
  | case1 fresh =>
      by_cases isFeed : last = '\n'
      · subst isFeed
        simp [shift]
      · by_cases isReturn : last = '\r'
        · subst isReturn
          cases fresh <;> cases more <;> simp [shift, marginBefore, margin]
        · have isMark : IsMark last := ⟨isFeed, isReturn⟩
          have filled := List.isEmpty_eq_false_iff.mpr (seen.resolve_right (absurd isMark))
          rw [List.nil_append, List.nil_append, shift_mark isMark, shift_mark isMark]
          simp [shift, filled]
  | case2 fresh front induction => simpa [shift] using induction
  | case3 fresh front induction => simpa [shift] using induction
  | case4 fresh head front noFeed noReturn induction =>
      -- The last character can be the line feed behind a carriage return.
      by_cases both : head = '\r' ∧ front = [] ∧ last = '\n'
      · rcases both with ⟨rfl, rfl, rfl⟩
        simp [shift]
      · have apart (rest : List Char) : shift fresh (head :: (front ++ last :: rest)) =
            marginBefore fresh ++ head :: shift false (front ++ last :: rest) := by
          apply shift.eq_4
          · exact noFeed
          · intro next isReturn equal
            cases front with
            | nil => exact both ⟨isReturn, rfl, (List.cons.inj equal).1⟩
            | cons second front =>
                exact noReturn front isReturn (by rw [(List.cons.inj equal).1])
        rw [List.cons_append, List.cons_append, apart, apart]
        simpa using induction

/-- The last line of a block needs no line break, and no lines need none, either. -/
theorem indent_append_break_iff (text : String) :
    indent (text ++ "\n") = indent text ↔ EndsWithMark text ∨ text = "" := by
  rw [← String.toList_inj, toList_indent, toList_indent, String.toList_append]
  constructor
  · intro same
    rcases text.toList.eq_nil_or_concat' with empty | ⟨front, last, characters⟩
    · exact .inr (String.toList_eq_nil_iff.mp empty)
    · refine .inl ⟨front, last, ?_, characters⟩
      by_contra noMark
      rw [characters, List.append_assoc] at same
      exact shift_append_break_ne true front (.inr noMark) same
  · rintro (⟨front, mark, isMark, characters⟩ | rfl)
    · rw [characters, List.append_assoc]
      exact (shift_append_mark isMark true front ['\n']).trans
        (shift_append_mark isMark true front []).symm
    · rfl

/-- Below other lines, a line break is seen even if no text stands in front of it. -/
theorem indent_stack_append_break_iff (upper text : String) :
    indent (stack upper (text ++ "\n")) = indent (stack upper text) ↔
      EndsWithMark text ∨ text = "" ∧ upper = "" := by
  have below {lower : String} (noUpper : upper ≠ "") (written : lower ≠ "") :
      stack upper lower = upper ++ "\n" ++ lower := by
    rw [stack, if_neg (by simpa using noUpper), if_neg (by simpa using written)]
  by_cases noUpper : upper = ""
  · subst noUpper
    simpa [stack] using indent_append_break_iff text
  · rw [below noUpper (by simp)]
    by_cases noText : text = ""
    · subst noText
      refine iff_of_false ?_ (by simp [EndsWithMark, noUpper])
      rcases upper.toList.eq_nil_or_concat' with empty | ⟨front, last, characters⟩
      · exact absurd (String.toList_eq_nil_iff.mp empty) noUpper
      · have feed : ['\n'] ≠ [] := List.cons_ne_nil _ _
        have seen := shift_append_break_ne true front (.inl feed : _ ∨ ¬ IsMark last)
        rw [← String.toList_inj]
        simpa [stack, noUpper, characters] using seen
    · rw [below noUpper noText, ← String.append_assoc, indent_append_break_iff,
        endsWithMark_append_iff noText]
      simp [noText, noUpper]

end Block

namespace Layout

/-- Layouts with a separator behind each of them. -/
def followedEach (separator : String) : List Layout → Layout
  | [] => empty
  | head :: tail => head ++ separator ++ followedEach separator tail

/-- Layouts with a separator in front of each of them. -/
def precededEach (separator : String) : List Layout → Layout
  | [] => empty
  | head :: tail => separator ++ head ++ precededEach separator tail

theorem render_joined_cons (separator : String) (body : Layout) (after : List Layout) :
    (joined separator (body :: after)).render = do
      let text ← body.render
      let rest ← (precededEach separator after).render
      return text ++ rest := by
  induction after generalizing body with
  | nil => simp [joined, precededEach, empty, render_text]
  | cons next after induction =>
      rw [joined_cons_cons, render_append, render_append, induction, precededEach, render_append,
        render_append, render_text]
      simp only [bind_assoc, pure_bind, String.append_assoc]

/-- One of several joined layouts, with the others before and after it. -/
theorem render_joined_around (separator : String) (before : List Layout) (body : Layout)
    (after : List Layout) :
    (joined separator (before ++ body :: after)).render = do
      let front ← (followedEach separator before).render
      let text ← body.render
      let rest ← (precededEach separator after).render
      return front ++ text ++ rest := by
  induction before with
  | nil => simpa [followedEach, empty, render_text] using render_joined_cons separator body after
  | cons head before induction =>
      have more : joined separator (head :: before ++ body :: after) =
          head ++ separator ++ joined separator (before ++ body :: after) := by
        cases before <;> rfl
      rw [more, render_append, render_append, induction, followedEach, render_append,
        render_append, render_text]
      simp only [bind_assoc, pure_bind, String.append_assoc]

/-- The imports stand above the body, if there are any. -/
theorem render_subquery (imports : Option Layout) (body : Layout) :
    (subquery imports body).render = do
      let front ← (optional "WITH " imports).render
      let text ← body.render
      return Block.stack front text := by
  cases imports with
  | none => exact (bind_pure body.render).symm
  | some columns => rfl

end Layout

/-- A phrase around a chain, which is its body. -/
inductive Surroundings : Category → Type where
  | calling (imports : Phrase (.maybe .projection))
      (transactions : Phrase (.maybe (.maybe .expression))) : Surroundings .clause
  | iterating (member : Variable) (list : Expression) : Surroundings .clause
  | subquery (kind : SubqueryKind) : Surroundings .expression
  | branch (all : Bool) (before after : List Chain) : Surroundings .clause

namespace Surroundings

def fill (body : Chain) : Surroundings category → Phrase category
  | calling imports transactions => .calling imports body transactions
  | iterating member list => .iterating member list body
  | subquery kind => .chainQuery kind body
  | branch all before after => .union all (.ofList (before ++ body :: after))

theorem withoutIdle_fill (around : Surroundings category) {first second : Chain}
    (same : first.withoutIdle = second.withoutIdle) :
    (around.fill first).withoutIdle = (around.fill second).withoutIdle := by
  cases around with
  | calling imports transactions =>
      exact congrArg (Phrase.calling _ · _) same
  | iterating member list => exact congrArg (Phrase.iterating _ _ ·) same
  | subquery kind => exact congrArg (Phrase.chainQuery kind) same
  | branch all before after =>
      have queries : (Phrase.ofList (before ++ first :: after)).withoutIdle =
          (Phrase.ofList (before ++ second :: after)).withoutIdle := by
        rw [Phrase.withoutIdle_ofList, Phrase.withoutIdle_ofList, List.map_append, List.map_append,
          List.map_cons, List.map_cons, same]
      exact congrArg (Phrase.union all) queries

/-- The body is a block of its own. -/
def isBlock : Surroundings category → Bool
  | branch .. => false
  | _ => true

def separator (all : Bool) : String :=
  if all then "\nUNION ALL\n" else "\nUNION\n"

/-- What is rendered before the body. -/
def opening : Surroundings category → Layout
  | calling imports _ => .optional "WITH " imports.layout
  | iterating member list => "FOREACH (" ++ .mention member ++ " IN " ++ list.layout ++ " |\n"
  | subquery kind => (kind.keyword ++ " ") ++ "\x7b\n"
  | branch all before _ => .followedEach (separator all) (before.map Phrase.layout)

/-- What is rendered after the body. -/
def closing : Surroundings category → Layout
  | calling _ transactions => "\n\x7d" ++ .transactions transactions.layout
  | iterating _ _ => "\n)"
  | subquery _ => "\n\x7d"
  | branch all _ after => .precededEach (separator all) (after.map Phrase.layout)

/-- The text of the whole. -/
def put (front body rest : String) : Surroundings category → String
  | calling _ _ => "CALL \x7b\n" ++ Block.indent (Block.stack front body) ++ rest
  | iterating _ _ => front ++ Block.indent body ++ rest
  | subquery _ => front ++ Block.indent body ++ rest
  | branch _ _ _ => front ++ body ++ rest

theorem render_fill (around : Surroundings category) (body : Chain) :
    (around.fill body).whole.render = do
      let front ← around.opening.render
      let text ← body.whole.render
      let rest ← around.closing.render
      return around.put front text rest := by
  cases around with
  | calling imports transactions =>
      change ("CALL " ++ Layout.block (.subquery imports.layout body.whole) ++
        Layout.transactions transactions.layout).render = _
      simp only [Layout.block, Layout.render_append, Layout.render_text, Layout.render_indent,
        Layout.render_subquery, map_eq_pure_bind, bind_assoc, pure_bind, opening, closing, put,
        String.append_assoc]
      rfl
  | iterating member list =>
      change ((opening (.iterating member list) ++ .indent body.whole) ++
        closing (.iterating member list)).render = _
      simp only [Layout.render_append, Layout.render_indent, map_eq_pure_bind, bind_assoc,
        pure_bind]
      rfl
  | subquery kind =>
      change (((kind.keyword ++ " " : String) : Layout) ++ Layout.block body.whole).render = _
      simp only [Layout.block, Layout.render_append, Layout.render_text, Layout.render_indent,
        map_eq_pure_bind, bind_assoc, pure_bind, opening, closing, put, String.append_assoc]
  | branch all before after =>
      change (Layout.joined (separator all)
        (Phrase.ofList (before ++ body :: after)).layout).render = _
      rw [Phrase.layout_ofList, List.map_append, List.map_cons]
      exact Layout.render_joined_around _ _ _ _

/-- Columns stand above the body, in one block with it. -/
def hasImports : Surroundings category → Bool
  | calling (.present _) _ => true
  | _ => false

/-- A line break behind the body is lost: the body is a block of its own, and its text ends no line
by itself, or there is no text at all in the block. -/
def LosesBreak (around : Surroundings category) (text : String) : Prop :=
  around.isBlock ∧ (Block.EndsWithMark text ∨ text = "" ∧ ¬ around.hasImports)

variable {around : Surroundings category} {environment between : Environment} {front : String}

theorem front_eq_empty_iff {imports : Phrase (.maybe .projection)}
    {transactions : Phrase (.maybe (.maybe .expression))}
    (opened : (calling imports transactions).opening.render environment = .ok front between) :
    front = "" ↔ ¬ (calling imports transactions).hasImports := by
  cases imports with
  | absent =>
      cases opened
      exact iff_of_true rfl (by simp [hasImports])
  | present columns =>
      have lead : (("WITH " : Layout) ++ columns.layout).render environment = .ok front between :=
        opened
      rw [Layout.render_append, Layout.render_text] at lead
      rcases Layout.ok_of_bind lead with ⟨first, _, isLead, others⟩
      rcases Layout.ok_of_bind others with ⟨text, _, _, put⟩
      cases isLead
      cases put
      exact iff_of_false (by simp) (by simp [hasImports])

/-- What stands around the body does not matter otherwise for whether a line break is lost. -/
theorem put_append_break_iff (opened : around.opening.render environment = .ok front between)
    (text rest : String) :
    around.put front (text ++ "\n") rest = around.put front text rest ↔ around.LosesBreak text := by
  cases around with
  | calling imports transactions =>
      rw [put, put, String.append_left_inj, String.append_right_inj,
        Block.indent_stack_append_break_iff, front_eq_empty_iff opened, LosesBreak]
      exact (and_iff_right rfl).symm
  | iterating member list =>
      rw [put, put, String.append_left_inj, String.append_right_inj, Block.indent_append_break_iff]
      simp [LosesBreak, isBlock, hasImports]
  | subquery kind =>
      rw [put, put, String.append_left_inj, String.append_right_inj, Block.indent_append_break_iff]
      simp [LosesBreak, isBlock, hasImports]
  | branch all before after =>
      rw [put, put, String.append_left_inj, String.append_right_inj]
      exact iff_of_false (Block.append_break_ne text) fun loses => nomatch loses.1

/-- The environment in which the body is rendered. -/
def start (around : Surroundings category) (environment : Environment) : Environment :=
  around.opening.environmentAfter environment

theorem start_eq (opened : around.opening.render environment = .ok front between) :
    around.start environment = between := by
  rw [start, Layout.environmentAfter, opened]

/-- What fails goes on to fail. -/
theorem render_fill_insert_last_error (detach : Bool) {body : Chain} {error : RenderError}
    {left : Environment}
    (failed : (around.fill body).whole.render environment = .error error left) :
    (around.fill (body.insert (Clause.delete detach []) body.length)).whole.render environment =
      .error error left := by
  rw [render_fill] at failed ⊢
  cases opened : around.opening.render environment with
  | error => rwa [Layout.bind_error opened] at failed ⊢
  | ok front between =>
      have endsLike := Chain.endsLike_insert_last detach body between
      rw [Layout.bind_ok opened] at failed ⊢
      cases rendered : body.whole.render between with
      | error => rwa [Layout.bind_error rendered, ← Layout.bind_error (endsLike.error rendered)]
          at failed
      | ok text behind =>
          rw [Layout.bind_ok rendered] at failed
          cases closed : around.closing.render behind with
          | ok rest last =>
              rw [Layout.bind_ok closed] at failed
              cases failed
          | error =>
              rw [Layout.bind_error closed] at failed
              rcases endsLike.ok rendered with ⟨-, same⟩ | ⟨-, more⟩
              · rw [Layout.bind_ok same, Layout.bind_error closed, failed]
              · rw [Layout.bind_ok more, Layout.bind_error closed, failed]

/-- What the body writes at its end is lost, or the body writes nothing there. -/
theorem render_fill_insert_last_iff (detach : Bool) {body : Chain} {after : Environment}
    {whole : String} (rendered : (around.fill body).whole.render environment = .ok whole after) :
    (around.fill (body.insert (Clause.delete detach []) body.length)).whole.render environment =
        .ok whole after ↔
      ∀ text behind, body.whole.render (around.start environment) = .ok text behind →
        Chain.TakesNoBreak (around.start environment) body ∨ around.LosesBreak text := by
  rw [render_fill] at rendered ⊢
  rcases Layout.ok_of_bind rendered with ⟨front, between, opened, others⟩
  rcases Layout.ok_of_bind others with ⟨inner, last, isInner, others⟩
  rcases Layout.ok_of_bind others with ⟨rest, _, closed, put⟩
  cases put
  have only (condition : String → Prop) :
      (∀ text behind, body.whole.render between = .ok text behind → condition text) ↔
        condition inner := by
    refine ⟨fun all => all inner last isInner, fun holds text behind again => ?_⟩
    cases isInner.symm.trans again
    exact holds
  rw [start_eq opened, only, Layout.bind_ok opened]
  rcases (Chain.endsLike_insert_last detach body between).ok isInner with
    ⟨takesNone, same⟩ | ⟨takesOne, more⟩
  · rw [Layout.bind_ok same, Layout.bind_ok closed]
    exact iff_of_true rfl (.inl takesNone)
  · rw [Layout.bind_ok more, Layout.bind_ok closed, or_iff_right takesOne,
      ← put_append_break_iff opened inner rest]
    exact ⟨fun same => (EStateM.Result.ok.inj same).1,
      fun same => congrArg (EStateM.Result.ok · after) same⟩

end Surroundings

namespace Chain

/-- A clause that deletes nothing changes nothing in front of another clause: neither at the head of
a chain nor between two clauses, neither in a query nor in a body at any depth, however many of them
there are. At the end of a chain it writes the line break in front of it, unless that line break is
not written, and changes nothing else. In a body, that makes no difference exactly if the line break
is lost: the body is a block of its own, and its text does not end a line by itself, or there is no
text at all in the block. -/
theorem idle_deletion_inserted (detach : Bool) :
    (∀ {category : Category} (first second : Phrase category),
      first.withoutIdle = second.withoutIdle → first.whole.render = second.whole.render) ∧
    ∀ chain : Chain,
      (∀ position < chain.length,
        let inserted := chain.insert (Clause.delete detach []) position
        inserted.clauses = chain.clauses.insertIdx position (Clause.delete detach []) ∧
          inserted.withoutIdle = chain.withoutIdle ∧
          inserted.whole.render = chain.whole.render ∧
          ∀ {category : Category} (around : Surroundings category),
            (around.fill inserted).withoutIdle = (around.fill chain).withoutIdle ∧
              (around.fill inserted).whole.render = (around.fill chain).whole.render) ∧
      let closed := chain.insert (Clause.delete detach []) chain.length
      closed.clauses = chain.clauses ++ [Clause.delete detach []] ∧
        (∀ cursor : Cursor, cursor.chain = chain → cursor.following = [] →
          cursor.current.kind.isChainable →
          cursor.attempt (.last (Clause.delete detach [])) = (.ok (), closed)) ∧
        (∀ environment error left, chain.whole.render environment = .error error left →
          closed.whole.render environment = .error error left) ∧
        (∀ environment text after, chain.whole.render environment = .ok text after →
          (closed.whole.render environment = .ok text after ↔ TakesNoBreak environment chain) ∧
            (¬ TakesNoBreak environment chain →
              closed.whole.render environment = .ok (text ++ "\n") after)) ∧
        ∀ {category : Category} (around : Surroundings category) (environment : Environment),
          (∀ error left, (around.fill chain).whole.render environment = .error error left →
            (around.fill closed).whole.render environment = .error error left) ∧
          ∀ whole after, (around.fill chain).whole.render environment = .ok whole after →
            ((around.fill closed).whole.render environment = .ok whole after ↔
              ∀ text behind, chain.whole.render (around.start environment) = .ok text behind →
                TakesNoBreak (around.start environment) chain ∨ around.LosesBreak text) := by
  have alike {category : Category} {first second : Phrase category}
      (same : first.withoutIdle = second.withoutIdle) :
      first.whole.render = second.whole.render := by
    rw [Phrase.whole, Phrase.whole, Phrase.layout_eq_of_withoutIdle_eq same]
  refine ⟨fun first second => alike, fun chain =>
    ⟨?_, clauses_insert_last _ chain, ?_, ?_, ?_, ?_⟩⟩
  · intro position within
    have same := withoutIdle_insert detach within
    refine ⟨clauses_insert _ within.le, same, alike same, fun around => ?_⟩
    have filled := around.withoutIdle_fill same
    exact ⟨filled, alike filled⟩
  · rintro cursor rfl atEnd chainable
    exact attempt_last chainable atEnd _
  · exact fun environment error left => (endsLike_insert_last detach chain environment).error
  · intro environment text after rendered
    rcases (endsLike_insert_last detach chain environment).ok rendered with
      ⟨takesNone, same⟩ | ⟨takesOne, ended⟩
    · exact ⟨iff_of_true same takesNone, fun takesOne => absurd takesNone takesOne⟩
    · refine ⟨iff_of_false (fun same => ?_) takesOne, fun _ => ended⟩
      exact Block.append_break_ne text (EStateM.Result.ok.inj (ended.symm.trans same)).1
  · intro category around environment
    exact ⟨fun error left => Surroundings.render_fill_insert_last_error detach,
      fun whole after => Surroundings.render_fill_insert_last_iff detach⟩

/-- A third clause between two clauses, or behind them in a subquery. -/
theorem idle_deletion_inserted_unwinding :
    let idle : Clause := Clause.delete true []
    let passing : Clause := .rawClause (.verbatim "WITH *")
    let unwinding : Clause :=
      .unwinding (.list .nil) { identity := ⟨0⟩ } .nil (.deletion false .nil)
    let chain : Chain := .link passing (.last unwinding)
    let between : Chain := .link passing (.link idle (.last unwinding))
    let behind : Chain := .link passing (.link unwinding (.last idle))
    let around : Surroundings .clause := .calling .absent .absent
    1 < chain.length ∧ between.withoutIdle = chain.withoutIdle ∧
      between.whole.render = chain.whole.render ∧
      chain.whole.result (around.start (.empty {})) = .ok "WITH *\nUNWIND [] AS var0" ∧
      (around.fill behind).whole.render (.empty {}) =
        (around.fill chain).whole.render (.empty {}) := by
  intro idle passing unwinding chain between behind around
  rcases idle_deletion_inserted true with ⟨alike, insertions⟩
  rcases insertions chain with ⟨inFront, -, -, -, -, unseen⟩
  have same : between.withoutIdle = chain.withoutIdle := (inFront 1 (Nat.lt_succ_self 1)).2.1
  have written : chain.whole.result (.empty {}) = .ok "WITH *\nUNWIND [] AS var0" := by decide
  refine ⟨Nat.lt_succ_self 1, same, alike _ _ same, written, ?_⟩
  rcases unseen around (.empty {}) with ⟨fails, succeeds⟩
  cases filled : (around.fill chain).whole.render (.empty {}) with
  | error error left => exact fails error left filled
  | ok whole after =>
      apply (succeeds whole after filled).mpr
      intro text behind rendered
      have isText : chain.whole.result (.empty {}) = .ok text := by
        rw [Layout.result, show chain.whole.render (.empty {}) = .ok text behind from rendered]
      cases Except.ok.inj (written.symm.trans isText)
      have ends : Block.EndsWithMark "WITH *\nUNWIND [] AS var0" :=
        ⟨"WITH *\nUNWIND [] AS var".toList, '0', ⟨by decide, by decide⟩, rfl⟩
      exact .inr ⟨rfl, .inl ends⟩

/-- The line break behind the only clause that writes anything. -/
theorem break_left_matching :
    let member : Variable := { identity := ⟨0⟩, kind := .node }
    let matching : Clause :=
      .matching false none
        (.path none (.once (.pattern (.node (some member) [] .absent .absent) .nil)) .nil) .nil
        .absent .nil (.deletion false .nil)
    let chain : Chain := .last matching
    chain.whole.result (.empty {}) = .ok "MATCH (this0)" ∧
      (chain.insert (Clause.delete false []) chain.length).whole.result (.empty {}) =
        .ok "MATCH (this0)\n" := by
  decide

end Chain

end Cypher
