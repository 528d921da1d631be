import Mathlib.Data.List.Induction
import Mathlib.Data.List.Nodup

/-! First occurrences. Of several items with one key only the first is kept, so
the position of an item is the number of other keys that came before it. -/

namespace Cypher

variable {α κ : Type} [DecidableEq κ]

/-- Keep the item unless its key is there already. -/
def keepNew (key : α → κ) (kept : List α) (item : α) : List α :=
  if key item ∈ kept.map key then kept else kept ++ [item]

/-- The items whose key did not occur before. -/
def distinctBy (key : α → κ) (items : List α) : List α :=
  items.foldl (keepNew key) []

theorem distinctBy_concat (key : α → κ) (items : List α) (item : α) :
    distinctBy key (items ++ [item]) = keepNew key (distinctBy key items) item := by
  simp [distinctBy]

theorem mem_map_keepNew (key : α → κ) (kept : List α) (item : α) (wanted : κ) :
    wanted ∈ (keepNew key kept item).map key ↔ wanted ∈ kept.map key ∨ wanted = key item := by
  unfold keepNew
  split
  · next present =>
      exact ⟨Or.inl, fun either => either.elim id fun equal => equal ▸ present⟩
  · simp

theorem mem_map_distinctBy (key : α → κ) (items : List α) (wanted : κ) :
    wanted ∈ (distinctBy key items).map key ↔ wanted ∈ items.map key := by
  induction items using List.reverseRecOn with
  | nil => exact Iff.rfl
  | append_singleton earlier item induction =>
      rw [distinctBy_concat, mem_map_keepNew, induction, List.map_append, List.mem_append,
        List.map_singleton, List.mem_singleton]

theorem nodup_keepNew (key : α → κ) {kept : List α} (nodup : (kept.map key).Nodup)
    (item : α) : ((keepNew key kept item).map key).Nodup := by
  unfold keepNew
  split
  · exact nodup
  · next fresh =>
      rw [List.map_append, List.map_singleton, List.nodup_append]
      refine ⟨nodup, List.nodup_singleton _, ?_⟩
      intro known member other equal
      rw [List.mem_singleton.mp equal]
      exact fun same => fresh (same ▸ member)

theorem nodup_distinctBy (key : α → κ) (items : List α) :
    ((distinctBy key items).map key).Nodup := by
  induction items using List.reverseRecOn with
  | nil => exact List.nodup_nil
  | append_singleton earlier item induction =>
      rw [distinctBy_concat]
      exact nodup_keepNew key induction item

/-- The kept items are some of the given ones. -/
theorem mem_of_mem_distinctBy (key : α → κ) {items : List α} {item : α}
    (kept : item ∈ distinctBy key items) : item ∈ items := by
  induction items using List.reverseRecOn with
  | nil => exact kept
  | append_singleton earlier last induction =>
      rw [distinctBy_concat, keepNew] at kept
      split at kept
      · exact List.mem_append_left _ (induction kept)
      · rcases List.mem_append.mp kept with kept | kept
        · exact List.mem_append_left _ (induction kept)
        · exact List.mem_append_right _ kept

/-- Behind other items, those whose key was there before are left out. -/
theorem distinctBy_append (key : α → κ) (first second : List α) :
    distinctBy key (first ++ second) =
      distinctBy key first ++
        (distinctBy key second).filter fun item => key item ∉ first.map key := by
  induction second using List.reverseRecOn with
  | nil => simp [distinctBy]
  | append_singleton earlier item induction =>
      have listed : key item ∈ (distinctBy key (first ++ earlier)).map key ↔
          key item ∈ first.map key ∨ key item ∈ earlier.map key := by
        rw [mem_map_distinctBy, List.map_append, List.mem_append]
      rw [← List.append_assoc, distinctBy_concat, distinctBy_concat, keepNew, keepNew]
      by_cases early : key item ∈ earlier.map key
      · rw [if_pos (listed.mpr (.inr early)), if_pos ((mem_map_distinctBy key _ _).mpr early),
          induction]
      · rw [if_neg (mt (mem_map_distinctBy key _ _).mp early), List.filter_append,
          List.filter_singleton]
        by_cases known : key item ∈ first.map key
        · rw [if_pos (listed.mpr (.inl known)), induction]
          simp [known]
        · rw [if_neg (mt listed.mp (not_or.mpr ⟨known, early⟩)), induction]
          simp [known]

/-! ## Tables of first occurrences -/

/-- In a table that lists each key once, the entry is found at its place. -/
theorem lookup_mapIdx_of_nodup {β : Type} (key : α → κ) {items : List α}
    (nodup : (items.map key).Nodup) {number : Nat} {item : α} (name : Nat → α → β)
    (listed : items[number]? = some item) :
    (items.mapIdx fun number item => (key item, name number item)).lookup (key item) =
      some (name number item) := by
  induction items generalizing number name with
  | nil => cases listed
  | cons head tail induction =>
      rw [List.map_cons, List.nodup_cons] at nodup
      rw [List.mapIdx_cons, List.lookup_cons]
      cases number with
      | zero =>
          cases listed
          simp
      | succ number =>
          have present : item ∈ tail := List.mem_of_getElem? listed
          have different : key item ≠ key head := fun equal =>
            nodup.1 (equal ▸ List.mem_map_of_mem present)
          rw [beq_false_of_ne different]
          exact induction nodup.2 (fun number => name (number + 1)) listed

theorem lookup_mapIdx_eq_none {β : Type} (key : α → κ) (items : List α)
    (name : Nat → α → β) {wanted : κ} :
    (items.mapIdx fun number item => (key item, name number item)).lookup wanted = none ↔
      wanted ∉ items.map key := by
  induction items generalizing name with
  | nil => simp
  | cons head tail induction =>
      rw [List.mapIdx_cons, List.lookup_cons, List.map_cons, List.mem_cons]
      by_cases equal : wanted = key head
      · simp [equal]
      · rw [beq_false_of_ne equal]
        simpa [equal] using induction fun number => name (number + 1)

end Cypher
