/-! Entries with text keys, kept in the order of their keys. Keys are compared
by code points. -/

namespace Cypher

abbrev Fields (α : Type) := List (String × α)

namespace Fields

def find? (fields : Fields α) (key : String) : Option α :=
  match fields with
  | [] => none
  | (head, value) :: rest => if key = head then some value else find? rest key

/-- A key that is present already gets the new value. -/
def insert (key : String) (value : α) : Fields α → Fields α
  | [] => [(key, value)]
  | (head, old) :: rest =>
      if key = head then (key, value) :: rest
      else if key < head then (key, value) :: (head, old) :: rest
      else (head, old) :: insert key value rest

/-- Of several entries with one key the last one counts. -/
def ofList (entries : List (String × α)) : Fields α :=
  entries.foldl (fun fields (key, value) => fields.insert key value) []

/-- The entries of `upper` take precedence over those of `lower`. -/
def override (lower upper : Fields α) : Fields α :=
  upper.foldl (fun fields (key, value) => fields.insert key value) lower

example : ofList [("b", 1), ("a", 2), ("b", 3)] = [("a", 2), ("b", 3)] := by decide

/-! ## Looking up what was inserted -/

@[simp] theorem find?_nil (key : String) : find? ([] : Fields α) key = none := rfl

@[simp] theorem find?_insert_self (fields : Fields α) (key : String) (value : α) :
    (fields.insert key value).find? key = some value := by
  induction fields with
  | nil => simp [insert, find?]
  | cons entry rest induction =>
      obtain ⟨head, old⟩ := entry
      by_cases equal : key = head
      · simp [insert, find?, equal]
      · by_cases smaller : key < head
        · simp [insert, find?, equal, smaller]
        · simp [insert, find?, equal, smaller, induction]

theorem find?_insert_of_ne (fields : Fields α) {key other : String} (value : α)
    (different : other ≠ key) :
    (fields.insert key value).find? other = fields.find? other := by
  induction fields with
  | nil => simp [insert, find?, different]
  | cons entry rest induction =>
      obtain ⟨head, old⟩ := entry
      by_cases equal : key = head
      · subst equal
        simp [insert, find?, different]
      · by_cases smaller : key < head
        · simp [insert, find?, equal, smaller, different]
        · simp [insert, find?, equal, smaller, induction]

theorem find?_insert (fields : Fields α) (key other : String) (value : α) :
    (fields.insert key value).find? other =
      if other = key then some value else fields.find? other := by
  split
  · next equal => rw [equal, find?_insert_self]
  · next different => exact find?_insert_of_ne fields value different

/-! ## Looking up what was overridden -/

theorem find?_append (first second : Fields α) (key : String) :
    find? (first ++ second) key = (find? first key).or (find? second key) := by
  induction first with
  | nil => rfl
  | cons entry rest induction =>
      obtain ⟨head, value⟩ := entry
      by_cases equal : key = head
      · simp [find?, equal]
      · simpa [find?, equal] using induction

/-- Of several entries with one key, the value of the last one. -/
def last? (entries : List (String × α)) (key : String) : Option α :=
  find? entries.reverse key

theorem last?_cons (key : String) (value : α) (rest : List (String × α)) (other : String) :
    last? ((key, value) :: rest) other =
      (last? rest other).or (if other = key then some value else none) := by
  rw [last?, List.reverse_cons, find?_append]
  rfl

theorem find?_override (lower upper : Fields α) (key : String) :
    (lower.override upper).find? key = (last? upper key).or (lower.find? key) := by
  induction upper generalizing lower with
  | nil => rfl
  | cons entry rest induction =>
      obtain ⟨head, value⟩ := entry
      rw [override, List.foldl_cons]
      refine (induction _).trans ?_
      rw [find?_insert, last?_cons, Option.or_assoc]
      split <;> rfl

theorem find?_ofList (entries : List (String × α)) (key : String) :
    (ofList entries).find? key = last? entries key :=
  (find?_override [] entries key).trans Option.or_none

/-! ## Entries and what is found -/

theorem mem_of_find? {fields : Fields α} {key : String} {value : α}
    (found : fields.find? key = some value) : (key, value) ∈ fields := by
  induction fields with
  | nil => cases found
  | cons entry rest induction =>
      obtain ⟨head, old⟩ := entry
      rw [find?] at found
      split at found
      · next equal =>
          cases found
          rw [equal]
          exact List.mem_cons_self
      · exact List.mem_cons_of_mem _ (induction found)

theorem exists_find?_of_mem {fields : Fields α} {key : String} {value : α}
    (member : (key, value) ∈ fields) : ∃ other, fields.find? key = some other := by
  induction fields with
  | nil => cases member
  | cons entry rest induction =>
      obtain ⟨head, old⟩ := entry
      rw [find?]
      split
      · exact ⟨old, rfl⟩
      · next different =>
          rcases List.mem_cons.mp member with equal | later
          · exact absurd (Prod.mk.inj equal).1 different
          · exact induction later

/-- A value is found if all entries with its key have that value. -/
theorem last?_eq_some {entries : List (String × α)} {key : String} {value : α}
    (member : (key, value) ∈ entries)
    (agree : ∀ other, (key, other) ∈ entries → other = value) :
    last? entries key = some value := by
  rcases exists_find?_of_mem (List.mem_reverse.mpr member) with ⟨other, found⟩
  rw [last?, found, agree other (List.mem_reverse.mp (mem_of_find? found))]

end Fields

end Cypher
