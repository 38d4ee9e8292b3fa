import Mathlib.Data.Set.Card
import MineRider.ToMathlib.AListRetain
import MineRider.ToMathlib.AListUpdate

/-! # The keys that an update changes

The keys at which two association lists differ, and their number: one more than after a change of one key that
stays, and the difference of the lengths where keys are only dropped.
-/

namespace AList

open List

variable {α β : Type*} [DecidableEq α]

/-- The keys whose value differs. -/
def changed (before after : AList fun _ : α => β) : Set α := {key | after.lookup key ≠ before.lookup key}

variable {before between after : AList fun _ : α => β} {key : α}

@[simp] theorem changed_self (map : AList fun _ : α => β) : changed map map = ∅ := by simp [changed]

theorem changed_insert_subset (map : AList fun _ : α => β) (key : α) (value : β) :
    changed map (map.insert key value) ⊆ {key} := by
  intro other differs
  by_contra different
  exact differs (lookup_insert_ne different)

theorem changed_erase_subset (map : AList fun _ : α => β) (key : α) : changed map (map.erase key) ⊆ {key} := by
  intro other differs
  by_contra different
  exact differs (lookup_erase_ne different)

theorem finite_changed (before after : AList fun _ : α => β) : (changed before after).Finite := by
  refine (before.keys ++ after.keys).toFinset.finite_toSet.subset fun key differs => ?_
  rw [Finset.mem_coe, mem_toFinset, mem_append]
  by_contra absent
  rw [not_or, ← mem_keys, ← mem_keys, ← lookup_eq_none, ← lookup_eq_none] at absent
  exact differs (absent.2.trans absent.1.symm)

/-- One key is changed first, and stays as it is. -/
theorem ncard_changed_succ (first : changed before between = {key}) (stays : key ∉ changed between after) :
    (changed before after).ncard = (changed between after).ncard + 1 := by
  have same : changed before after = Insert.insert key (changed between after) := by
    ext other
    have moved := Set.ext_iff.mp first other
    simp only [changed, Set.mem_ofPred_eq, Set.mem_singleton_iff, Set.mem_insert_iff, not_not] at moved stays ⊢
    by_cases chosen : other = key
    · subst chosen
      rw [stays]
      exact iff_of_true (moved.mpr rfl) (.inl rfl)
    · rw [not_not.mp fun differs => chosen (moved.mp differs), or_iff_right chosen]
  rw [same, Set.ncard_insert_of_notMem stays (finite_changed between after)]

/-- Keys are dropped, and those that are kept are as before. -/
theorem ncard_changed_of_dropped (dropped : ∀ key, after.lookup key = before.lookup key ∨ after.lookup key = none) :
    (changed before after).ncard = before.keys.length - after.keys.length := by
  have kept : after.keys.toFinset ⊆ before.keys.toFinset := by
    intro key member
    rw [mem_toFinset, ← mem_keys, ← lookup_isSome] at member ⊢
    obtain same | none_ := dropped key
    · rwa [← same]
    · simp [none_] at member
  have same : changed before after = ↑(before.keys.toFinset \ after.keys.toFinset) := by
    ext key
    simp only [changed, Set.mem_ofPred_eq, Finset.coe_sdiff, Set.mem_sdiff, Finset.mem_coe, mem_toFinset,
      ← mem_keys, ← lookup_isSome]
    obtain same | none_ := dropped key
    · rw [same]
      exact iff_of_false (by simp) (fun both => both.2 both.1)
    · rw [none_, Option.isSome_iff_ne_none, ne_comm]
      exact (and_iff_left (by simp)).symm
  rw [same, Set.ncard_coe_finset, Finset.card_sdiff_of_subset kept, toFinset_card_of_nodup before.keys_nodup,
    toFinset_card_of_nodup after.keys_nodup]

section Retain

variable {f : α → β → Option β} (drops : ∀ key value, f key value = some value ∨ f key value = none)
  (map : AList fun _ : α => β)

include drops

theorem lookup_retain (key : α) : (map.retainValues f).lookup key = map.lookup key ∨
    (map.retainValues f).lookup key = none ∧ ∃ value, map.lookup key = some value ∧ f key value = none := by
  rw [lookup_retainValues]
  cases found : map.lookup key with
  | none => exact .inl rfl
  | some value => exact (drops key value).imp_right fun dropped => ⟨dropped, value, rfl, dropped⟩

theorem dropped_of_changed {key : α} (differs : key ∈ changed map (map.retainValues f)) :
    ∃ value, map.lookup key = some value ∧ f key value = none :=
  ((map.lookup_retain drops key).resolve_left differs).2

theorem ncard_changed_retain :
    (changed map (map.retainValues f)).ncard = map.keys.length - (map.retainValues f).keys.length :=
  ncard_changed_of_dropped fun key => (map.lookup_retain drops key).imp_right And.left

omit [DecidableEq α] in
/-- Where nothing is dropped, nothing changes. -/
theorem retain_eq_self (all : map.keys.length - (map.retainValues f).keys.length = 0) : map.retainValues f = map := by
  have entries : (map.retainValues f).entries = map.entries.filter fun e => (f e.1 e.2).isSome := by
    change map.entries.filterMap _ = _
    rw [← filterMap_eq_filter]
    congr 1
    funext e
    obtain kept | dropped := drops e.1 e.2
    · simp [kept, Option.guard]
    · simp [dropped, Option.guard]
  have kept : (map.retainValues f).entries.Sublist map.entries := by
    rw [entries]
    exact filter_sublist
  refine ext (kept.eq_of_length ?_)
  have size := kept.length_le
  simp only [keys, List.keys, length_map] at all
  omega

end Retain

theorem length_keys_erase_add (map : AList fun _ : α => β) (key : α) :
    map.keys.length - (map.erase key).keys.length = (decide (key ∈ map)).toNat := by
  rw [keys_erase, length_erase]
  by_cases member : key ∈ map
  · have positive := length_pos_of_mem (mem_keys.mp member)
    simp only [mem_keys.mp member, if_true, member, decide_true, Bool.toNat_true]
    omega
  · simp [mt mem_keys.mpr member, member]

theorem ncard_changed_erase (map : AList fun _ : α => β) (key : α) :
    (changed map (map.erase key)).ncard = (decide (key ∈ map)).toNat := by
  rw [← length_keys_erase_add]
  refine ncard_changed_of_dropped fun other => ?_
  rw [lookup_erase_eq_ite]
  split_ifs
  · exact .inr rfl
  · exact .inl rfl

theorem erase_of_notMem {map : AList fun _ : α => β} {key : α} (absent : key ∉ map) : map.erase key = map :=
  ext (kerase_of_notMem_keys absent)

end AList
