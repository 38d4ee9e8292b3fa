import Mathlib.Data.List.AList

/-! # Updated association lists

Looking up a key after an insertion or an erasure, and the number of keys afterwards, each as one equation.
Mathlib states the lookups by cases, and has no lemma on the number of keys. Erasing keys that were inserted into a
map without them gives back the very map, in whatever order the keys are erased.
-/

namespace AList

open List

variable {α β : Type*} [DecidableEq α]

theorem lookup_insert_eq_ite (map : AList fun _ : α => β) (key other : α) (value : β) :
    (map.insert key value).lookup other = if other = key then some value else map.lookup other := by
  split_ifs with same
  · subst same
    exact lookup_insert map
  · exact lookup_insert_ne same

theorem lookup_erase_eq_ite (map : AList fun _ : α => β) (key other : α) :
    (map.erase key).lookup other = if other = key then none else map.lookup other := by
  split_ifs with same
  · subst same
    exact lookup_erase other map
  · exact lookup_erase_ne same

section Entries

variable {map : AList fun _ : α => β} {key : α} {value : β} {P : α → β → Prop}

/-- What holds of the entries of a map and of a new one holds of all entries after the insertion. -/
theorem forall_lookup_insert (new : P key value) (old : ∀ k v, map.lookup k = some v → P k v) :
    ∀ k v, (map.insert key value).lookup k = some v → P k v := by
  intro k v found
  rw [lookup_insert_eq_ite] at found
  split_ifs at found with same
  · cases found
    exact same ▸ new
  · exact old k v found

theorem forall_lookup_erase (old : ∀ k v, map.lookup k = some v → P k v) :
    ∀ k v, (map.erase key).lookup k = some v → P k v := by
  intro k v found
  rw [lookup_erase_eq_ite] at found
  split_ifs at found
  exact old k v found

end Entries

theorem length_keys_insert (map : AList fun _ : α => β) (key : α) (value : β) :
    (map.insert key value).keys.length = if key ∈ map then map.keys.length else map.keys.length + 1 := by
  rw [keys_insert, length_cons]
  split_ifs with member
  · have positive : 0 < map.keys.length := length_pos_of_mem (mem_keys.mp member)
    rw [length_erase_of_mem (mem_keys.mp member)]
    omega
  · rw [erase_of_not_mem (mt mem_keys.mpr member)]

/-- A map with room for a key stays within its bound. -/
theorem length_keys_insert_le {map : AList fun _ : α => β} {key : α} {bound : ℕ} (value : β)
    (bounded : map.keys.length ≤ bound) (room : key ∈ map ∨ map.keys.length < bound) :
    (map.insert key value).keys.length ≤ bound := by
  rw [length_keys_insert]
  split_ifs with member
  · exact bounded
  · exact room.resolve_left member

theorem length_keys_erase_le (map : AList fun _ : α => β) (key : α) :
    (map.erase key).keys.length ≤ map.keys.length := by
  rw [keys_erase]
  exact length_erase_le

theorem erase_insert {map : AList fun _ : α => β} {key : α} (value : β) (absent : key ∉ map) :
    (map.insert key value).erase key = map := by
  refine ext ?_
  change (map.insert key value).entries.kerase key = map.entries
  rw [entries_insert_of_notMem absent]
  exact kerase_cons_eq rfl

theorem erase_insert_of_ne (map : AList fun _ : α => β) {key other : α} (different : other ≠ key) (value : β) :
    (map.insert key value).erase other = (map.erase other).insert key value := by
  refine ext ?_
  change (map.insert key value).entries.kerase other = ((map.erase other).insert key value).entries
  rw [entries_insert, entries_insert, kerase_cons_ne different, kerase_comm]
  rfl

/-- Insert entries one after the other. -/
def insertAll (map : AList fun _ : α => β) (entries : List (α × β)) : AList fun _ : α => β :=
  entries.foldl (fun map entry => map.insert entry.1 entry.2) map

variable {map : AList fun _ : α => β} {entries : List (α × β)} {key : α} {value : β}

theorem insertAll_cons (map : AList fun _ : α => β) (key : α) (value : β) (rest : List (α × β)) :
    map.insertAll ((key, value) :: rest) = (map.insert key value).insertAll rest := rfl

theorem insertAll_concat (map : AList fun _ : α => β) (entries : List (α × β)) (key : α) (value : β) :
    map.insertAll (entries ++ [(key, value)]) = (map.insertAll entries).insert key value := by
  rw [insertAll, foldl_append]
  rfl

theorem mem_insertAll : key ∈ map.insertAll entries ↔ key ∈ map ∨ key ∈ entries.map Prod.fst := by
  induction entries generalizing map with
  | nil => simp [insertAll]
  | cons entry rest ih =>
    rw [insertAll_cons, ih, mem_insert, map_cons, mem_cons, or_comm (a := key = entry.1), or_assoc]

theorem lookup_insertAll_of_notMem (absent : key ∉ entries.map Prod.fst) :
    (map.insertAll entries).lookup key = map.lookup key := by
  induction entries generalizing map with
  | nil => rfl
  | cons entry rest ih =>
    rw [map_cons, mem_cons, not_or] at absent
    rw [insertAll_cons, ih absent.2, lookup_insert_ne absent.1]

theorem erase_insertAll_of_notMem (absent : key ∉ entries.map Prod.fst) :
    (map.insertAll entries).erase key = (map.erase key).insertAll entries := by
  induction entries generalizing map with
  | nil => rfl
  | cons entry rest ih =>
    rw [map_cons, mem_cons, not_or] at absent
    rw [insertAll_cons, insertAll_cons, ih absent.2, erase_insert_of_ne map absent.1]

/-- Erasing the key that was inserted first leaves the others. -/
theorem erase_insertAll_cons (fresh : key ∉ map) (absent : key ∉ entries.map Prod.fst) :
    (map.insertAll ((key, value) :: entries)).erase key = map.insertAll entries := by
  rw [insertAll_cons, erase_insertAll_of_notMem absent, erase_insert value fresh]

theorem lookup_insertAll_cons (absent : key ∉ entries.map Prod.fst) :
    (map.insertAll ((key, value) :: entries)).lookup key = some value := by
  rw [insertAll_cons, lookup_insertAll_of_notMem absent, lookup_insert]

end AList
