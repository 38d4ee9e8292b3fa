import Mathlib.Data.List.Basic
import Mathlib.Data.List.Induction
import Mathlib.Data.List.Nodup

/-! # The most recently written keys

`latest` lists the keys of a history of writes with their last values, the most recently written key first;
`recent` is its beginning, what a bounded store should keep. A write of a kept key moves the key to the front.
A write of another key comes to the front as well, and if the store is full the last key leaves.
-/

namespace MineRider.Machine.Recency

open List

variable {κ υ : Type} [DecidableEq κ]

/-- The entries of other keys. -/
def others (key : κ) (entries : List (κ × υ)) : List (κ × υ) := entries.filter fun entry => entry.1 != key

/-- The last value of every key, the most recently written key first. -/
def latest (history : List (κ × υ)) : List (κ × υ) :=
  history.foldl (fun seen entry => entry :: others entry.1 seen) []

/-- What a store with room for `bound` keys should keep. -/
def recent (bound : ℕ) (history : List (κ × υ)) : List (κ × υ) := (latest history).take bound

variable {bound : ℕ} {history : List (κ × υ)} {key : κ} {value : υ}

theorem latest_concat (history : List (κ × υ)) (entry : κ × υ) :
    latest (history ++ [entry]) = entry :: others entry.1 (latest history) := foldl_concat ..

theorem others_of_absent {entries : List (κ × υ)} (absent : key ∉ entries.map Prod.fst) :
    others key entries = entries := by
  refine filter_eq_self.mpr fun entry member => bne_iff_ne.mpr ?_
  rintro rfl
  exact absent (mem_map_of_mem member)

theorem map_others (key : κ) (entries : List (κ × υ)) :
    (others key entries).map Prod.fst = (entries.map Prod.fst).filter fun other => other != key := by
  rw [others, filter_map]
  rfl

theorem latest_nodup (history : List (κ × υ)) : ((latest history).map Prod.fst).Nodup := by
  induction history using List.reverseRecOn with
  | nil => exact nodup_nil
  | append_singleton history entry ih =>
    rw [latest_concat, map_cons, nodup_cons, map_others]
    exact ⟨by simp, ih.filter _⟩

theorem recent_nodup (bound : ℕ) (history : List (κ × υ)) : ((recent bound history).map Prod.fst).Nodup := by
  rw [recent, map_take]
  exact (latest_nodup history).sublist (take_sublist ..)

theorem recent_length_le (bound : ℕ) (history : List (κ × υ)) : (recent bound history).length ≤ bound :=
  length_take_le ..

/-- A kept key has one entry. -/
theorem length_others {entries : List (κ × υ)} (nodup : (entries.map Prod.fst).Nodup)
    (present : key ∈ entries.map Prod.fst) : (others key entries).length = entries.length - 1 := by
  rw [← length_map Prod.fst, map_others, ← nodup.erase_eq_filter, length_erase_of_mem present, length_map]

/-- The key is in front of what is dropped. -/
theorem others_latest_of_present (present : key ∈ (recent bound history).map Prod.fst) :
    others key (latest history) = others key (recent bound history) ++ (latest history).drop bound := by
  have whole := take_append_drop bound (latest history)
  have absent : key ∉ ((latest history).drop bound).map Prod.fst := by
    have nodup := latest_nodup history
    rw [← whole, map_append] at nodup
    exact fun dropped => disjoint_of_nodup_append nodup present dropped
  have split : others key ((latest history).take bound ++ (latest history).drop bound) =
      others key ((latest history).take bound) ++ others key ((latest history).drop bound) := filter_append ..
  rw [whole, others_of_absent absent] at split
  exact split

theorem recent_concat_of_present (present : key ∈ (recent bound history).map Prod.fst) :
    recent bound (history ++ [(key, value)]) = (key, value) :: others key (recent bound history) := by
  have length := length_others (recent_nodup bound history) present
  have atMost := recent_length_le bound history
  have positive : 0 < (recent bound history).length := by
    rw [← length_map Prod.fst]
    exact length_pos_of_mem present
  obtain ⟨room, rfl⟩ : ∃ room, bound = room + 1 := ⟨bound - 1, by omega⟩
  rw [recent, latest_concat, take_succ_cons, others_latest_of_present present]
  congr 1
  by_cases full : (recent (room + 1) history).length = room + 1
  · exact take_left' (by omega)
  · -- Nothing was dropped.
    have short : (latest history).length ≤ room + 1 := by
      have taken : (recent (room + 1) history).length = min (room + 1) (latest history).length := length_take
      omega
    rw [drop_eq_nil_of_le short, append_nil]
    exact take_of_length_le (by omega)

theorem recent_concat_of_room (absent : key ∉ (recent bound history).map Prod.fst)
    (room : (recent bound history).length < bound) :
    recent bound (history ++ [(key, value)]) = (key, value) :: recent bound history := by
  have taken : (recent bound history).length = min bound (latest history).length := length_take
  have whole : recent bound history = latest history := take_of_length_le (by omega)
  rw [whole] at absent room ⊢
  rw [recent, latest_concat, others_of_absent absent]
  exact take_of_length_le room

theorem recent_concat_of_full (absent : key ∉ (recent bound history).map Prod.fst)
    (full : (recent bound history).length = bound) (positive : 0 < bound) :
    recent bound (history ++ [(key, value)]) = (key, value) :: (recent bound history).dropLast := by
  obtain ⟨room, rfl⟩ : ∃ room, bound = room + 1 := ⟨bound - 1, by omega⟩
  have split : others key (latest history) =
      others key (recent (room + 1) history) ++ others key ((latest history).drop (room + 1)) := by
    rw [recent, others, others, others, ← filter_append, take_append_drop]
  have enough : room ≤ (recent (room + 1) history).length := by omega
  rw [recent, latest_concat, take_succ_cons, split, others_of_absent absent, take_append_of_le_length enough,
    dropLast_eq_take, full]
  rfl

/-- A filter only moves entries forward. -/
theorem mem_take_filter {α : Type} {entries : List α} {count : ℕ} {entry : α} {keep : α → Bool}
    (member : entry ∈ entries.take count) (kept : keep entry = true) : entry ∈ (entries.filter keep).take count := by
  have split : entries.filter keep = (entries.take count).filter keep ++ (entries.drop count).filter keep := by
    rw [← filter_append, take_append_drop]
  have short : ((entries.take count).filter keep).length ≤ count :=
    Nat.le_trans (length_filter_le ..) (length_take_le ..)
  rw [split, take_append, take_of_length_le short]
  exact mem_append_left _ (mem_filter.mpr ⟨member, kept⟩)

/-- An entry is kept until as many others have been written as there is room for. -/
theorem mem_recent_of_recent {before after : List (κ × υ)} (unchanged : key ∉ after.map Prod.fst)
    (few : after.length < bound) : (key, value) ∈ recent bound (before ++ (key, value) :: after) := by
  suffices soon : (key, value) ∈ (latest (before ++ (key, value) :: after)).take (after.length + 1) from
    take_subset_take_left _ few soon
  induction after using List.reverseRecOn with
  | nil => simp [latest_concat]
  | append_singleton after entry ih =>
    rw [map_append, mem_append, not_or] at unchanged
    have different : key ≠ entry.1 := fun same => unchanged.2 (by simp [same])
    have earlier := ih unchanged.1 (by simp at few; omega)
    rw [← cons_append, ← append_assoc, latest_concat, length_append, length_singleton, take_succ_cons]
    exact mem_cons_of_mem _ (mem_take_filter earlier (bne_iff_ne.mpr different))

end MineRider.Machine.Recency
