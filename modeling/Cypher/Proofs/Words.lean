import Cypher.Proofs.Indentation
import Cypher.Text.Decimal

/-! Where words and quotations end. If two texts are equal and begin with a word, with a
number or with a quotation each, they begin with the same one. The same holds of sequences
of items that are told apart one by one. -/

namespace Cypher

/-! ## Words -/

/-- The text behind a word does not go on with the word. -/
def Ends (inside : Char → Bool) (rest : List Char) : Prop :=
  ∀ character ∈ rest.head?, inside character = false

theorem not_ends_cons {inside : Char → Bool} {head : Char} {tail : List Char}
    (headInside : inside head) : ¬ Ends inside (head :: tail) := by
  intro ends
  rw [ends head rfl] at headInside
  cases headInside

theorem ends_of_any {inside : Char → Bool} {allowed rest : List Char}
    (outside : allowed.any inside = false)
    (begins : ∀ character ∈ rest.head?, character ∈ allowed) : Ends inside rest := by
  intro character member
  rw [← Bool.not_eq_true]
  exact List.any_eq_false.mp outside character (begins character member)

/-- A word goes on as long as its characters do. -/
theorem word_append_inj {inside : Char → Bool} {first second rest other : List Char}
    (firstInside : ∀ character ∈ first, inside character)
    (secondInside : ∀ character ∈ second, inside character)
    (restEnds : Ends inside rest) (otherEnds : Ends inside other)
    (equal : first ++ rest = second ++ other) : first = second ∧ rest = other := by
  induction first generalizing second with
  | nil =>
      cases second with
      | nil => exact ⟨rfl, equal⟩
      | cons head tail =>
          rw [List.nil_append] at equal
          rw [equal] at restEnds
          exact absurd restEnds (not_ends_cons (secondInside head List.mem_cons_self))
  | cons head tail induction =>
      rw [List.forall_mem_cons] at firstInside
      cases second with
      | nil =>
          rw [List.nil_append] at equal
          rw [← equal] at otherEnds
          exact absurd otherEnds (not_ends_cons firstInside.1)
      | cons otherHead otherTail =>
          rw [List.forall_mem_cons] at secondInside
          rcases List.cons.inj equal with ⟨sameHead, equalTails⟩
          rcases induction firstInside.2 secondInside.2 equalTails with ⟨sameTail, sameRest⟩
          exact ⟨by rw [sameHead, sameTail], sameRest⟩

/-! ## Quotations -/

namespace Block

variable {needsMark : Char → Bool} {mark close : Char}

/-- How a quotation is closed: inside it, the closing character has a mark. Either the
mark is another character, or there is nothing else that has marks, and no second closing
character stands behind the quotation. -/
structure Closes (needsMark : Char → Bool) (mark close : Char) (rest : List Char) : Prop where
  closeMarked : needsMark close
  markMarked : needsMark mark
  alone : mark = close → (∀ character, needsMark character → character = close) ∧
    rest.head? ≠ some close

/-- A quotation that has ended does not begin another one. -/
theorem Closes.ne_escapeWith_cons {rest : List Char}
    (closes : Closes needsMark mark close rest) (head : Char) (tail behind : List Char) :
    close :: rest ≠ escapeWith needsMark mark (head :: tail) ++ behind := by
  intro equal
  rw [escapeWith] at equal
  split at equal
  · next marked =>
      rcases List.cons.inj equal with ⟨isMark, restBegins⟩
      rcases closes.alone isMark.symm with ⟨onlyClose, separate⟩
      rw [restBegins, onlyClose head marked] at separate
      exact separate rfl
  · next unmarked =>
      rw [← (List.cons.inj equal).1] at unmarked
      exact unmarked closes.closeMarked

theorem escapeWith_append_inj {first second rest other : List Char}
    (closes : Closes needsMark mark close rest) (otherCloses : Closes needsMark mark close other)
    (equal : escapeWith needsMark mark first ++ close :: rest =
      escapeWith needsMark mark second ++ close :: other) : first = second ∧ rest = other := by
  induction first generalizing second with
  | nil =>
      cases second with
      | nil => exact ⟨rfl, (List.cons.inj equal).2⟩
      | cons head tail => exact absurd equal (closes.ne_escapeWith_cons head tail _)
  | cons head tail induction =>
      cases second with
      | nil => exact absurd equal.symm (otherCloses.ne_escapeWith_cons head tail _)
      | cons otherHead otherTail =>
          rw [escapeWith, escapeWith] at equal
          split at equal <;> split at equal
          · rcases List.cons.inj (List.cons.inj equal).2 with ⟨sameHead, equalTails⟩
            rcases induction equalTails with ⟨sameTail, sameRest⟩
            exact ⟨by rw [sameHead, sameTail], sameRest⟩
          · next unmarked =>
              rw [← (List.cons.inj equal).1] at unmarked
              exact absurd closes.markMarked unmarked
          · next unmarked _ =>
              rw [(List.cons.inj equal).1] at unmarked
              exact absurd closes.markMarked unmarked
          · rcases List.cons.inj equal with ⟨sameHead, equalTails⟩
            rcases induction equalTails with ⟨sameTail, sameRest⟩
            exact ⟨by rw [sameHead, sameTail], sameRest⟩

end Block

namespace Quoted

/-- A string literal ends at the first double quote without a backslash. -/
theorem escapeCharacters_append_inj {first second rest other : List Char}
    (equal : escapeCharacters first ++ '"' :: rest = escapeCharacters second ++ '"' :: other) :
    first = second ∧ rest = other := by
  rw [Block.escapeCharacters_eq, Block.escapeCharacters_eq] at equal
  have closes : ∀ behind, Block.Closes needsEscape '\\' '"' behind :=
    fun _ => ⟨rfl, rfl, fun same => absurd same (by decide)⟩
  exact Block.escapeWith_append_inj (closes rest) (closes other) equal

end Quoted

namespace Identifier

/-- A quoted name ends at the first backtick that is not doubled. -/
theorem doubleBackticks_append_inj {first second rest other : List Char}
    (separate : rest.head? ≠ some backtick) (otherSeparate : other.head? ≠ some backtick)
    (equal : doubleBackticks first ++ backtick :: rest =
      doubleBackticks second ++ backtick :: other) : first = second ∧ rest = other := by
  rw [Block.doubleBackticks_eq, Block.doubleBackticks_eq] at equal
  exact Block.escapeWith_append_inj
    ⟨rfl, rfl, fun _ => ⟨fun _ => LawfulBEq.eq_of_beq, separate⟩⟩
    ⟨rfl, rfl, fun _ => ⟨fun _ => LawfulBEq.eq_of_beq, otherSeparate⟩⟩ equal

end Identifier

/-! ## Numbers -/

namespace Decimal

theorem natural_inj {first second : Nat} (equal : natural first = natural second) :
    first = second := by
  have digits := String.ofList_inj.mp equal
  have value := congrArg (Nat.ofDigitChars 10 · 0) digits
  simpa using value

theorem isDigit_of_mem_natural {number : Nat} {character : Char}
    (member : character ∈ (natural number).toList) : character.isDigit := by
  rw [natural, String.toList_ofList] at member
  exact Nat.isDigit_of_mem_toDigits (by decide) (by decide) member

/-- Digits, and the sign of a negative number. -/
def isInside (character : Char) : Bool :=
  character.isDigit || character == '-'

theorem isInside_of_mem_integer {number : Int} {character : Char}
    (member : character ∈ (integer number).toList) : isInside character := by
  cases number with
  | ofNat number => simp [isInside, isDigit_of_mem_natural member]
  | negSucc number =>
      rw [integer, String.toList_append] at member
      rcases List.mem_append.mp member with sign | digit
      · rw [List.mem_singleton.mp sign]
        rfl
      · simp [isInside, isDigit_of_mem_natural digit]

/-- A natural number has no sign. -/
theorem natural_ne_negative (number : Nat) (text : String) : natural number ≠ "-" ++ text := by
  intro equal
  have member : '-' ∈ (natural number).toList := by simp [equal]
  exact absurd (isDigit_of_mem_natural member) (by decide)

theorem integer_inj {first second : Int} (equal : integer first = integer second) :
    first = second := by
  cases first with
  | ofNat first =>
      cases second with
      | ofNat second => exact congrArg Int.ofNat (natural_inj equal)
      | negSucc second => exact absurd equal (natural_ne_negative first _)
  | negSucc first =>
      cases second with
      | ofNat second => exact absurd equal.symm (natural_ne_negative second _)
      | negSucc second =>
          have same := natural_inj ((String.append_right_inj _).mp equal)
          exact congrArg Int.negSucc (Nat.succ.inj same)

theorem integer_append_inj {first second : Int} {rest other : List Char}
    (restEnds : Ends isInside rest) (otherEnds : Ends isInside other)
    (equal : (integer first).toList ++ rest = (integer second).toList ++ other) :
    first = second ∧ rest = other := by
  rcases word_append_inj (fun _ => isInside_of_mem_integer) (fun _ => isInside_of_mem_integer)
    restEnds otherEnds equal with ⟨same, sameRest⟩
  exact ⟨integer_inj (String.toList_inj.mp same), sameRest⟩

end Decimal

/-! ## Sequences -/

section Sequences

variable {α β : Type} {spell : α → List Char} {key : α → β} {candidate : α → Prop}
  {follow : List Char → Prop}

/-- No candidate with another key is spelled at the beginning of a text that begins with
`item`, as long as both go on in a way that `follow` allows. -/
def TellsApart (spell : α → List Char) (key : α → β) (candidate : α → Prop)
    (follow : List Char → Prop) (item : α) : Prop :=
  ∀ ⦃other : α⦄ ⦃rest otherRest : List Char⦄, candidate other → follow rest →
    follow otherRest → spell item ++ rest = spell other ++ otherRest →
    key item = key other ∧ rest = otherRest

theorem TellsApart.behind {item : α} (apart : TellsApart spell key candidate follow item)
    (lead : List Char) :
    TellsApart (fun item => lead ++ spell item) key candidate follow item := by
  intro other rest otherRest isCandidate restFollows otherFollows equal
  rw [List.append_assoc, List.append_assoc] at equal
  exact apart isCandidate restFollows otherFollows (List.append_cancel_left equal)

theorem follow_flatMap (follows : ∀ item tail, follow (spell item ++ tail)) (items : List α)
    {rest : List Char} (restFollows : follow rest) : follow (items.flatMap spell ++ rest) := by
  cases items with
  | nil => exact restFollows
  | cons item items =>
      rw [List.flatMap_cons, List.append_assoc]
      exact follows item _

theorem flatMap_append_ne {leads : Char → Bool}
    (begins : ∀ item, ∃ head tail, spell item = head :: tail ∧ leads head)
    (item : α) (items : List α) (behind : List Char) {rest : List Char}
    (restEnds : Ends leads rest) : (item :: items).flatMap spell ++ behind ≠ rest := by
  rintro rfl
  rcases begins item with ⟨head, tail, spelled, headLeads⟩
  rw [List.flatMap_cons, spelled, List.cons_append, List.cons_append] at restEnds
  exact not_ends_cons headLeads restEnds

/-- Every item begins with a leading character, and what stands behind the sequence does
not, so the sequences have the same length. -/
theorem TellsApart.flatMap {leads : Char → Bool}
    (begins : ∀ item, ∃ head tail, spell item = head :: tail ∧ leads head)
    (follows : ∀ item tail, follow (spell item ++ tail))
    {items others : List α} (apart : ∀ item ∈ items, TellsApart spell key candidate follow item)
    (candidates : ∀ other ∈ others, candidate other) {rest otherRest : List Char}
    (restFollows : follow rest) (otherFollows : follow otherRest)
    (restEnds : Ends leads rest) (otherEnds : Ends leads otherRest)
    (equal : items.flatMap spell ++ rest = others.flatMap spell ++ otherRest) :
    items.map key = others.map key ∧ rest = otherRest := by
  induction items generalizing others with
  | nil =>
      cases others with
      | nil => exact ⟨rfl, equal⟩
      | cons other others => exact absurd equal.symm (flatMap_append_ne begins _ _ _ restEnds)
  | cons item items induction =>
      cases others with
      | nil => exact absurd equal (flatMap_append_ne begins _ _ _ otherEnds)
      | cons other others =>
          rw [List.forall_mem_cons] at apart candidates
          rw [List.flatMap_cons, List.flatMap_cons, List.append_assoc,
            List.append_assoc] at equal
          rcases apart.1 candidates.1 (follow_flatMap follows items restFollows)
            (follow_flatMap follows others otherFollows) equal with
            ⟨sameKey, equalTails⟩
          rcases induction apart.2 candidates.2 equalTails with ⟨sameKeys, sameRest⟩
          exact ⟨by rw [List.map_cons, List.map_cons, sameKey, sameKeys], sameRest⟩

theorem intercalate_cons (separator head : List Char) (tail : List (List Char)) :
    separator.intercalate (head :: tail) = head ++ tail.flatMap (separator ++ ·) := by
  induction tail generalizing head with
  | nil => simp
  | cons next rest induction => simp [induction]

variable {mark : Char} {gap : List Char}

/-- Items with a separator between them. The first one has nothing in front of it. -/
theorem TellsApart.separated (follows : ∀ tail, follow (mark :: gap ++ tail))
    {item other : α} {items others : List α}
    (apart : ∀ member ∈ item :: items, TellsApart spell key candidate follow member)
    (candidates : ∀ member ∈ other :: others, candidate member) {rest otherRest : List Char}
    (restFollows : follow rest) (otherFollows : follow otherRest)
    (restEnds : Ends (· == mark) rest) (otherEnds : Ends (· == mark) otherRest)
    (equal : spell item ++ (items.flatMap (mark :: gap ++ spell ·) ++ rest) =
      spell other ++ (others.flatMap (mark :: gap ++ spell ·) ++ otherRest)) :
    (item :: items).map key = (other :: others).map key ∧ rest = otherRest := by
  have begins : ∀ member : α, ∃ head tail,
      mark :: gap ++ spell member = head :: tail ∧ (head == mark) = true :=
    fun member => ⟨mark, gap ++ spell member, rfl, beq_self_eq_true mark⟩
  have marked : ∀ (member : α) (tail : List Char),
      follow (mark :: gap ++ spell member ++ tail) := by
    intro member tail
    rw [List.append_assoc]
    exact follows _
  rw [List.forall_mem_cons] at apart candidates
  rcases apart.1 candidates.1 (follow_flatMap marked items restFollows)
    (follow_flatMap marked others otherFollows) equal with ⟨sameKey, equalTails⟩
  rcases TellsApart.flatMap begins marked (fun member inside => (apart.2 member inside).behind _)
    candidates.2 restFollows otherFollows restEnds otherEnds equalTails with
    ⟨sameKeys, sameRest⟩
  exact ⟨by rw [List.map_cons, List.map_cons, sameKey, sameKeys], sameRest⟩

/-- The sequences may be empty, if no item begins like what stands behind them. -/
theorem TellsApart.intercalate (follows : ∀ tail, follow (mark :: gap ++ tail))
    {items others : List α}
    (apart : ∀ member ∈ items, TellsApart spell key candidate follow member)
    (itemCandidates : ∀ member ∈ items, candidate member)
    (candidates : ∀ member ∈ others, candidate member) {rest otherRest : List Char}
    (restFollows : follow rest) (otherFollows : follow otherRest)
    (restEnds : Ends (· == mark) rest) (otherEnds : Ends (· == mark) otherRest)
    (separate : ∀ member, candidate member → ∀ behind, spell member ++ behind ≠ rest)
    (otherSeparate : ∀ member, candidate member → ∀ behind, spell member ++ behind ≠ otherRest)
    (equal : (mark :: gap).intercalate (items.map spell) ++ rest =
      (mark :: gap).intercalate (others.map spell) ++ otherRest) :
    items.map key = others.map key ∧ rest = otherRest := by
  cases items with
  | nil =>
      cases others with
      | nil => exact ⟨rfl, equal⟩
      | cons other others =>
          rw [List.map_cons, intercalate_cons, List.append_assoc] at equal
          exact absurd equal.symm (separate other (candidates other List.mem_cons_self) _)
  | cons item items =>
      cases others with
      | nil =>
          rw [List.map_cons, intercalate_cons, List.append_assoc] at equal
          exact absurd equal (otherSeparate item (itemCandidates item List.mem_cons_self) _)
      | cons other others =>
          simp only [List.map_cons, intercalate_cons, List.flatMap_map,
            List.append_assoc] at equal
          exact TellsApart.separated follows apart candidates restFollows otherFollows restEnds
            otherEnds equal

end Sequences

end Cypher
