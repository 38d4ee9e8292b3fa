import Mathlib.Data.List.Nodup
import Mathlib.Data.List.Perm.Subperm
import Mathlib.Data.List.Range
import Mathlib.Data.Nat.Digits.Defs

/-! # Numbered names

A text with a number after it tells the numbers apart. So a name that is taken can be numbered until it is not,
and the search ends within as many attempts as there are taken names.
-/

namespace MineRider.Machine.Naming

open List

def suffixed (base : String) (n : ℕ) : String := base ++ toString n

theorem toString_toList (n : ℕ) : (toString n).toList = Nat.toDigits 10 n := by
  rw [Nat.toString_eq_ofList_toDigits, String.toList_ofList]

theorem suffixed_injective (base : String) : Function.Injective (suffixed base) := by
  intro i j same
  have texts := congrArg String.toList same
  simp only [suffixed, String.toList_append, toString_toList] at texts
  have values := congrArg (Nat.ofDigitChars 10 · 0) (append_cancel_left texts)
  simpa only [Nat.ofDigitChars_ten_toDigits] using values

theorem suffixed_ne (base : String) (n : ℕ) : suffixed base n ≠ base := by
  intro same
  have lengths := congrArg (fun text => text.toList.length) same
  simp only [suffixed, String.toList_append, length_append, toString_toList] at lengths
  have digits : 0 < (Nat.toDigits 10 n).length := Nat.length_toDigits_pos
  omega

/-- Goes on from `name` to `base` with the numbers from `n` on, as long as the name is taken. -/
def search (taken : List String) (base : String) : String → ℕ → ℕ → String
  | name, _, 0 => name
  | name, n, fuel + 1 => if name ∈ taken then search taken base (suffixed base n) (n + 1) fuel else name

/-- `base`, or else the first of `base2`, `base3` and so on that is not taken. -/
def unused (taken : List String) (base : String) : String := search taken base base 2 taken.length

section Search

variable (base : String)

private def candidate : ℕ → String
  | 0 => base
  | k + 1 => suffixed base (k + 2)

private theorem candidate_injective : Function.Injective (candidate base) := by
  intro i j same
  cases i with
  | zero =>
    cases j with
    | zero => rfl
    | succ j => exact absurd same.symm (suffixed_ne base _)
  | succ i =>
    cases j with
    | zero => exact absurd same (suffixed_ne base _)
    | succ j =>
      have numbers := suffixed_injective base same
      omega

variable (taken : List String)

/-- The search passes over taken candidates only, and stops at one that is free or at its last attempt. -/
private theorem search_spec (k fuel : ℕ) : ∃ j, search taken base (candidate base k) (k + 2) fuel = candidate base j ∧
    k ≤ j ∧ (∀ i, k ≤ i → i < j → candidate base i ∈ taken) ∧ (candidate base j ∉ taken ∨ j = k + fuel) := by
  induction fuel generalizing k with
  | zero => exact ⟨k, rfl, le_refl k, fun i low high => absurd high (not_lt.mpr low), .inr rfl⟩
  | succ fuel ih =>
    by_cases used : candidate base k ∈ taken
    · obtain ⟨j, found, above, passed, stop⟩ := ih (k + 1)
      refine ⟨j, ?_, by omega, ?_, ?_⟩
      · rw [search, if_pos used]
        exact found
      · intro i low high
        obtain rfl | later := low.eq_or_lt
        · exact used
        · exact passed i later high
      · exact stop.imp_right (fun last => by omega)
    · refine ⟨k, ?_, le_refl k, fun i low high => absurd high (not_lt.mpr low), .inl used⟩
      rw [search, if_neg used]

theorem unused_not_mem : unused taken base ∉ taken := by
  obtain ⟨j, found, -, passed, stop⟩ := search_spec base taken 0 taken.length
  change search taken base (candidate base 0) 2 taken.length ∉ taken
  rw [found]
  intro used
  have last : j = taken.length := by
    have ended := stop.resolve_left (not_not.mpr used)
    omega
  -- more candidates than taken names would all be taken
  have nodup : ((List.range (taken.length + 1)).map (candidate base)).Nodup :=
    List.Nodup.map (candidate_injective base) nodup_range
  have inside : (List.range (taken.length + 1)).map (candidate base) ⊆ taken := by
    intro name member
    obtain ⟨i, range, rfl⟩ := mem_map.mp member
    have bound := mem_range.mp range
    obtain rfl | before := (show i ≤ j by omega).eq_or_lt
    · exact used
    · exact passed i (Nat.zero_le i) before
  have count := (nodup.subperm inside).length_le
  rw [length_map, length_range] at count
  omega

end Search

end MineRider.Machine.Naming
