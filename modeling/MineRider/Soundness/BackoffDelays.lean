import Mathlib.Algebra.Order.Field.Power
import Mathlib.Tactic.Linarith
import MineRider.Model.Core.Backoff

/-! # The cap of the delay and its growth

The cap is applied before the jitter is added, and the exponent is a signed number of 32 bits, which is negative for
the attempts after the first half.
-/

namespace MineRider.Soundness.BackoffDelays

open Model.Core Model.Core.Backoff

variable {policy : Backoff} {n m : UInt32}

private theorem base_nonneg (policy : Backoff) (n : UInt32) : 0 ≤ policy.base n :=
  mul_nonneg policy.initialDelay.2 (zpow_nonneg (le_max_right _ _) _)

/-- What the jitter adds, as a share of the delay. -/
def share (policy : Backoff) (attempt : UInt32) : ℚ :=
  match policy.jitter with
  | .none => 0
  | .deterministic fraction => max 0 (min fraction 1) * ((attempt % 5).toNat / 5)

private theorem share_nonneg (policy : Backoff) (n : UInt32) : 0 ≤ share policy n := by
  rw [share]
  split
  · exact le_refl _
  · exact mul_nonneg (le_max_left _ _) (div_nonneg (Nat.cast_nonneg _) (Nat.ofNat_nonneg 5))

private theorem backoffDelay_eq (policy : Backoff) (n : UInt32) :
    policy.backoffDelay n = min (policy.base n) policy.maxDelay * (1 + share policy n) := by
  have capped : 0 ≤ min (policy.base n) (policy.maxDelay : ℚ) := le_min (base_nonneg policy n) policy.maxDelay.2
  have least : max (policy.maxDelay : ℚ) 0 = policy.maxDelay := max_eq_left policy.maxDelay.2
  have nonneg := mul_nonneg capped (add_nonneg zero_le_one (share_nonneg policy n))
  rw [← max_eq_left nonneg, backoffDelay, least, share]
  cases policy.jitter with
  | none => rw [add_zero, mul_one]
  | deterministic fraction =>
    dsimp only
    rw [mul_add, mul_one, mul_assoc]

theorem backoffDelay_le_iff (policy : Backoff) (n : UInt32) : policy.backoffDelay n ≤ policy.maxDelay ↔
    share policy n = 0 ∨ policy.maxDelay = 0 ∨ policy.base n * (1 + share policy n) ≤ policy.maxDelay := by
  rw [backoffDelay_eq]
  rcases le_total (policy.base n) policy.maxDelay with below | above
  · rw [min_eq_left below]
    refine ⟨fun fits => .inr (.inr fits), ?_⟩
    rintro (plain | nothing | fits)
    · rwa [plain, add_zero, mul_one]
    · have zero : policy.base n = 0 := le_antisymm (by rwa [nothing] at below) (base_nonneg policy n)
      rw [zero, zero_mul]
      exact policy.maxDelay.2
    · exact fits
  · rw [min_eq_right above, mul_add, mul_one, add_le_iff_nonpos_right]
    constructor
    · intro nothing
      have zero := nothing.antisymm (mul_nonneg policy.maxDelay.2 (share_nonneg policy n))
      rcases mul_eq_zero.mp zero with empty | plain
      · exact .inr (.inl (NNRat.coe_eq_zero.mp empty))
      · exact .inl plain
    · rintro (plain | nothing | fits)
      · rw [plain, mul_zero]
      · rw [nothing, NNRat.coe_zero, zero_mul]
      · have grown := mul_le_mul_of_nonneg_right above (add_nonneg zero_le_one (share_nonneg policy n))
        linarith

private theorem exponent_toInt (n : UInt32) : (exponent n).toInt =
    if n.toNat ≤ 2 ^ 31 then ((n.toNat - 1 : ℕ) : ℤ) else (n.toNat : ℤ) - 1 - 2 ^ 32 := by
  rw [exponent, ← Int32.toInt_toBitVec, UInt32.toBitVec_toInt32, BitVec.toInt_eq_toNat_cond]
  rw [UInt32.toNat_toBitVec]
  by_cases zero : n = 0
  · subst zero
    rfl
  · have positive : n.toNat ≠ 0 := fun same => zero (UInt32.toNat_inj.mp same)
    have first : (1 : UInt32) ≤ n := UInt32.le_iff_toNat_le.mpr (Nat.pos_of_ne_zero positive)
    rw [if_neg zero, UInt32.toNat_sub_of_le _ _ first, UInt32.toNat_one]
    split_ifs <;> omega

theorem exponent_le_iff (ordered : n ≤ m) :
    (exponent n).toInt ≤ (exponent m).toInt ↔ m.toNat ≤ 2 ^ 31 ∨ 2 ^ 31 < n.toNat := by
  have order := UInt32.le_iff_toNat_le.mp ordered
  have bound := m.toNat_lt
  rw [exponent_toInt, exponent_toInt]
  split_ifs <;> omega

theorem base_le_iff (grows : 1 ≤ policy.multiplier) (ordered : n ≤ m) : policy.base n ≤ policy.base m ↔
    m.toNat ≤ 2 ^ 31 ∨ 2 ^ 31 < n.toNat ∨ policy.initialDelay = 0 ∨ policy.multiplier = 1 := by
  have positive : max policy.multiplier 0 = policy.multiplier := max_eq_left (zero_le_one.trans grows)
  rw [← or_assoc, ← exponent_le_iff ordered, base, base, positive]
  rcases eq_or_ne policy.initialDelay 0 with zero | delayed
  · simp [zero]
  have initial : (0 : ℚ) < policy.initialDelay := NNRat.coe_pos.mpr (pos_iff_ne_zero.mpr delayed)
  rw [mul_le_mul_iff_right₀ initial]
  rcases grows.eq_or_lt with one | more
  · simp [← one]
  · rw [zpow_le_zpow_iff_right₀ more]
    simp [delayed, more.ne']

/-- With a multiplier of at least one, a delay is within the cap exactly if the jitter adds nothing or leaves it
there, and delays without jitter grow exactly if the exponents do not go from positive to negative between the
attempts, or nothing comes of it. -/
theorem backoff_is_capped_and_grows_iff (policy : Backoff) (grows : 1 ≤ policy.multiplier) (n m : UInt32)
    (ordered : n ≤ m) :
    (policy.backoffDelay n ≤ policy.maxDelay ↔
      share policy n = 0 ∨ policy.maxDelay = 0 ∨ policy.base n * (1 + share policy n) ≤ policy.maxDelay) ∧
    (policy.jitter = .none → (policy.backoffDelay n ≤ policy.backoffDelay m ↔
      (m.toNat ≤ 2 ^ 31 ∨ 2 ^ 31 < n.toNat ∨ policy.initialDelay = 0 ∨ policy.multiplier = 1) ∨
        policy.maxDelay ≤ policy.base m)) := by
  refine ⟨backoffDelay_le_iff policy n, fun plain => ?_⟩
  have without : ∀ attempt, policy.backoffDelay attempt = min (policy.base attempt) policy.maxDelay := by
    intro attempt
    rw [backoffDelay_eq, share, plain, add_zero, mul_one]
  rw [without, without, ← base_le_iff grows ordered, le_min_iff, min_le_iff, min_le_iff]
  simp

/-- The default policy. -/
def steady : Backoff := ⟨1, 60, 2, .none⟩

theorem steady_backoff_is_capped_and_grows : 1 ≤ steady.multiplier ∧ (1 : UInt32) ≤ 9 ∧
    steady.backoffDelay 1 ≤ steady.maxDelay ∧ steady.backoffDelay 1 ≤ steady.backoffDelay 9 := by
  have grows : 1 ≤ steady.multiplier := by decide
  obtain ⟨capped, growing⟩ := backoff_is_capped_and_grows_iff steady grows 1 9 (by decide)
  exact ⟨grows, by decide, capped.mpr (.inl rfl), (growing rfl).mpr (.inl (.inl (by decide)))⟩

/-- The same policy with half of the delay as jitter. The ninth retry comes 84 seconds after the failure. -/
def jittered : Backoff := { steady with jitter := .deterministic (1 / 2) }

theorem jittered_backoff_exceeds_the_cap : 1 ≤ jittered.multiplier ∧ ¬ jittered.backoffDelay 9 ≤ jittered.maxDelay := by
  decide +kernel

end MineRider.Soundness.BackoffDelays
