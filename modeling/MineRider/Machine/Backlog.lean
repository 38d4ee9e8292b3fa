import Mathlib.Data.List.DropRight
import MineRider.Machine.InsertionOrder

/-! # What is left of a list of arrivals

Two ways to keep only part of what has arrived. A coalescing map keeps the newest arrival of every key, and a
queue of its keys keeps the order in which they first came: `Coalesces` says that a map and a queue are these
two views of the arrivals. A window keeps the newest arrivals up to its capacity, which is `List.rtake`.
-/

namespace MineRider.Machine

open List

section Newest

variable {α κ : Type} [DecidableEq κ] {keyOf : α → κ} {key : κ} {arrivals : List α} {item : α}

/-- The last arrival with a key. -/
def newest (keyOf : α → κ) (key : κ) (arrivals : List α) : Option α := (arrivals.filter (keyOf · = key)).getLast?

/-- The keys of the arrivals, in the order in which they first came. -/
def firstSeen (keyOf : α → κ) (arrivals : List α) : List κ := (arrivals.map keyOf).eraseDups

/-- The newest arrival of every key. -/
def coalesced (keyOf : α → κ) (arrivals : List α) : List α :=
  (firstSeen keyOf arrivals).filterMap (newest keyOf · arrivals)

theorem newest_snoc_self (arrivals : List α) (item : α) :
    newest keyOf (keyOf item) (arrivals ++ [item]) = some item := by
  simp [newest]

theorem newest_snoc_other (other : keyOf item ≠ key) (arrivals : List α) :
    newest keyOf key (arrivals ++ [item]) = newest keyOf key arrivals := by
  simp [newest, other]

theorem newest_eq_none : newest keyOf key arrivals = none ↔ key ∉ arrivals.map keyOf := by
  simp only [newest, getLast?_eq_none_iff, filter_eq_nil_iff, decide_eq_true_eq, mem_map, not_exists, not_and]

theorem exists_newest (keyOf : α → κ) (member : item ∈ arrivals) :
    ∃ last, newest keyOf (keyOf item) arrivals = some last := by
  rw [← Option.ne_none_iff_exists', Ne, newest_eq_none, not_not]
  exact mem_map_of_mem member

theorem mem_of_newest (last : newest keyOf key arrivals = some item) : item ∈ arrivals ∧ keyOf item = key := by
  have member := mem_of_getLast? last
  rw [mem_filter, decide_eq_true_eq] at member
  exact member

theorem mem_firstSeen : key ∈ firstSeen keyOf arrivals ↔ key ∈ arrivals.map keyOf := mem_eraseDups

theorem firstSeen_snoc_new (new : keyOf item ∉ arrivals.map keyOf) :
    firstSeen keyOf (arrivals ++ [item]) = firstSeen keyOf arrivals ++ [keyOf item] := by
  simp only [firstSeen, map_append, eraseDups_append, map_cons, map_nil]
  rw [List.removeAll, filter_cons_of_pos (by simpa using new)]
  rfl

theorem firstSeen_snoc_old (old : keyOf item ∈ arrivals.map keyOf) :
    firstSeen keyOf (arrivals ++ [item]) = firstSeen keyOf arrivals := by
  simp only [firstSeen, map_append, eraseDups_append, map_cons, map_nil]
  rw [List.removeAll, filter_cons_of_neg (by simpa using old)]
  exact append_nil _

theorem mem_coalesced : item ∈ coalesced keyOf arrivals ↔ newest keyOf (keyOf item) arrivals = some item := by
  rw [coalesced, mem_filterMap]
  constructor
  · rintro ⟨key, -, last⟩
    rw [(mem_of_newest last).2]
    exact last
  · intro last
    exact ⟨keyOf item, mem_firstSeen.mpr (mem_map_of_mem (mem_of_newest last).1), last⟩

end Newest

section Coalescing

variable {α κ : Type} [DecidableEq κ] {keyOf : α → κ} {arrivals : List α} {item : α}
  {order : List κ} {map : AList fun _ : κ => α}

/-- A queue of keys and a map hold what is left of the arrivals. -/
structure Coalesces (keyOf : α → κ) (arrivals : List α) (order : List κ) (map : AList fun _ : κ => α) : Prop where
  seen : order = firstSeen keyOf arrivals
  lookup : ∀ key, map.lookup key = newest keyOf key arrivals
  enumerates : Enumerates order map

theorem Coalesces.ofEmpty (enumerates : Enumerates [] map) : Coalesces keyOf [] [] map where
  seen := rfl
  lookup key := by
    rw [AList.lookup_eq_none.mpr fun member => not_mem_nil ((enumerates.mem_iff key).mpr member)]
    rfl
  enumerates := enumerates

section

variable (coalesces : Coalesces keyOf arrivals order map)

include coalesces

theorem Coalesces.mem_iff {key : κ} :
    key ∈ map ↔ key ∈ arrivals.map keyOf := by
  rw [← coalesces.enumerates.mem_iff, coalesces.seen, mem_firstSeen]

theorem lookup_snoc (item : α) (key : κ) :
    (map.insert (keyOf item) item).lookup key = newest keyOf key (arrivals ++ [item]) := by
  by_cases same : keyOf item = key
  · subst same
    rw [AList.lookup_insert, newest_snoc_self]
  · rw [AList.lookup_insert_ne (Ne.symm same), newest_snoc_other same, coalesces.lookup]

/-- The first arrival of its key. -/
theorem Coalesces.push (new : keyOf item ∉ map) :
    Coalesces keyOf (arrivals ++ [item]) (order ++ [keyOf item]) (map.insert (keyOf item) item) where
  seen := by rw [firstSeen_snoc_new (fun old => new (coalesces.mem_iff.mpr old)), coalesces.seen]
  lookup := lookup_snoc coalesces item
  enumerates := coalesces.enumerates.push new item

/-- A newer arrival of a key. -/
theorem Coalesces.replace (old : keyOf item ∈ map) :
    Coalesces keyOf (arrivals ++ [item]) order (map.insert (keyOf item) item) where
  seen := by rw [firstSeen_snoc_old (coalesces.mem_iff.mp old), coalesces.seen]
  lookup := lookup_snoc coalesces item
  enumerates := coalesces.enumerates.replace old item

theorem Coalesces.values : order.filterMap map.lookup = coalesced keyOf arrivals := by
  rw [coalesced, ← coalesces.seen]
  exact filterMap_congr fun key _ => coalesces.lookup key

end

end Coalescing

section Window

variable {α : Type} {capacity : ℕ} {arrivals : List α}

theorem length_rtake_le (arrivals : List α) (capacity : ℕ) : (arrivals.rtake capacity).length ≤ capacity := by
  rw [List.rtake, length_drop]
  omega

/-- A full window drops its oldest arrival for a new one. -/
theorem rtake_snoc_full (positive : 0 < capacity) (full : capacity ≤ (arrivals.rtake capacity).length) (item : α) :
    (arrivals ++ [item]).rtake capacity = (arrivals.rtake capacity).tail ++ [item] := by
  obtain ⟨rest, rfl⟩ := Nat.exists_eq_succ_of_ne_zero positive.ne'
  rw [rtake_concat_succ, List.rtake, List.rtake, tail_drop]
  rw [List.rtake, length_drop] at full
  congr 2
  omega

theorem rtake_snoc_room (room : (arrivals.rtake capacity).length < capacity) (item : α) :
    (arrivals ++ [item]).rtake capacity = arrivals.rtake capacity ++ [item] := by
  rw [List.rtake, length_drop] at room
  rw [List.rtake, List.rtake, length_append, length_singleton, drop_append_of_le_length (by omega)]
  congr 2
  omega

end Window

end MineRider.Machine
