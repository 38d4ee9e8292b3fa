import Mathlib.Data.List.Perm.Basic
import MineRider.ToMathlib.AListRetain

/-! # A map with a queue of its keys

A bounded map often keeps its keys in a second structure, oldest first. `Enumerates order map` says
that the queue lists exactly the keys of the map, each once. It is kept by every way in which such
a pair is updated: a new key at both ends, a new value for an old key, the oldest key leaving, and
a retain of both.
-/

namespace MineRider.Machine

open List

variable {κ υ : Type}

/-- `order` is a duplicate-free enumeration of exactly the keys of `map`. -/
structure Enumerates (order : List κ) (map : AList fun _ : κ => υ) : Prop where
  nodup : order.Nodup
  mem_iff : ∀ key, key ∈ order ↔ key ∈ map

namespace Enumerates

variable {order : List κ} {map : AList fun _ : κ => υ}

theorem empty : Enumerates ([] : List κ) (∅ : AList fun _ : κ => υ) := ⟨nodup_nil, by simp⟩

/-- Queue and map have the same size. -/
theorem length_eq (enumerates : Enumerates order map) : order.length = map.keys.length := by
  apply List.Perm.length_eq
  rw [perm_ext_iff_of_nodup enumerates.nodup map.keys_nodup]
  intro key
  rw [enumerates.mem_iff, AList.mem_keys]

variable [DecidableEq κ]

theorem push (enumerates : Enumerates order map) {key : κ} (new : key ∉ map) (value : υ) :
    Enumerates (order ++ [key]) (map.insert key value) where
  nodup := by
    rw [nodup_append]
    refine ⟨enumerates.nodup, nodup_singleton key, ?_⟩
    intro old inOrder last inLast same
    rw [mem_singleton] at inLast
    rw [same, inLast, enumerates.mem_iff] at inOrder
    exact new inOrder
  mem_iff other := by
    rw [mem_append, mem_singleton, enumerates.mem_iff, AList.mem_insert, or_comm]

theorem replace (enumerates : Enumerates order map) {key : κ} (old : key ∈ map) (value : υ) :
    Enumerates order (map.insert key value) where
  nodup := enumerates.nodup
  mem_iff other := by
    rw [enumerates.mem_iff, AList.mem_insert]
    constructor
    · exact .inr
    · rintro (rfl | member)
      · exact old
      · exact member

theorem pop {oldest : κ} (enumerates : Enumerates (oldest :: order) map) :
    Enumerates order (map.erase oldest) where
  nodup := (nodup_cons.mp enumerates.nodup).2
  mem_iff other := by
    have notAgain := (nodup_cons.mp enumerates.nodup).1
    rw [AList.mem_erase, ← enumerates.mem_iff, mem_cons]
    constructor
    · intro member
      exact ⟨fun same => notAgain (same ▸ member), .inr member⟩
    · rintro ⟨ne, same | member⟩
      · exact absurd same ne
      · exact member

theorem retain (enumerates : Enumerates order map) (f : ∀ _ : κ, υ → Option υ) :
    Enumerates (order.filter fun key => decide (key ∈ map.retainValues f)) (map.retainValues f) where
  nodup := enumerates.nodup.filter _
  mem_iff other := by
    rw [mem_filter, decide_eq_true_eq, enumerates.mem_iff, and_iff_right_iff_imp]
    intro kept
    exact (map.keys_retainValues_sublist f).subset kept

end Enumerates

end MineRider.Machine
