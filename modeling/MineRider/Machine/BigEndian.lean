import Mathlib.Algebra.Order.Ring.Nat
import Mathlib.Tactic.NormNum
import Mathlib.Tactic.Ring

/-! # Fixed-width big-endian byte strings

`toBe width n` writes the low `8 * width` bits of `n`, most significant byte first, and `ofBe`
reads such a string back. The two are inverse on strings of the given width, so a fixed-width
integer has exactly one encoding.
-/

namespace MineRider.Machine

/-- The natural number a big-endian byte string denotes. -/
def ofBe : List UInt8 → ℕ
  | [] => 0
  | byte :: rest => byte.toNat * 256 ^ rest.length + ofBe rest

/-- The low `width` bytes of `n`, most significant first. -/
def toBe : ℕ → ℕ → List UInt8
  | 0, _ => []
  | width + 1, n => UInt8.ofNat (n / 256 ^ width) :: toBe width n

@[simp] theorem toBe_length (width n : ℕ) : (toBe width n).length = width := by
  induction width with
  | zero => rfl
  | succ width ih => simp [toBe, ih]

theorem ofBe_lt (bytes : List UInt8) : ofBe bytes < 256 ^ bytes.length := by
  induction bytes with
  | nil => simp [ofBe]
  | cons byte rest ih =>
    have bound : byte.toNat + 1 ≤ 256 := byte.toNat_lt
    calc byte.toNat * 256 ^ rest.length + ofBe rest
        < (byte.toNat + 1) * 256 ^ rest.length := by rw [Nat.add_mul, Nat.one_mul]; omega
      _ ≤ 256 * 256 ^ rest.length := Nat.mul_le_mul_right _ bound
      _ = 256 ^ (byte :: rest).length := by rw [List.length_cons, pow_succ, mul_comm]

/-- Reading a written number recovers its low bytes. -/
theorem ofBe_toBe (width n : ℕ) : ofBe (toBe width n) = n % 256 ^ width := by
  induction width with
  | zero => simp [toBe, ofBe, Nat.mod_one]
  | succ width ih =>
    have split : n % (256 ^ width * 256) = n % 256 ^ width + 256 ^ width * (n / 256 ^ width % 256) :=
      Nat.mod_mul
    rw [toBe, ofBe, ih, toBe_length, UInt8.toNat_ofNat', pow_succ 256 width, split,
      show (2 : ℕ) ^ 8 = 256 by norm_num]
    ring

theorem ofBe_toBe_of_lt {width n : ℕ} (bound : n < 256 ^ width) : ofBe (toBe width n) = n := by
  rw [ofBe_toBe, Nat.mod_eq_of_lt bound]

/-- Only the low bytes of a number are written. -/
theorem toBe_add_mul (width n k : ℕ) : toBe width (k * 256 ^ width + n) = toBe width n := by
  induction width generalizing k with
  | zero => rfl
  | succ width ih =>
    have shifted : k * 256 ^ (width + 1) + n = k * 256 * 256 ^ width + n := by rw [pow_succ]; ring
    have head : (k * 256 * 256 ^ width + n) / 256 ^ width = k * 256 + n / 256 ^ width := by
      rw [Nat.mul_comm (k * 256), Nat.mul_add_div (Nat.pow_pos (by decide))]
    rw [toBe, toBe, shifted, ih, head]
    congr 1
    apply UInt8.toNat_inj.mp
    rw [UInt8.toNat_ofNat', UInt8.toNat_ofNat']
    omega

/-- Every string of the right width is the encoding of the number it denotes. -/
theorem toBe_ofBe (bytes : List UInt8) : toBe bytes.length (ofBe bytes) = bytes := by
  induction bytes with
  | nil => rfl
  | cons byte rest ih =>
    have head : (byte.toNat * 256 ^ rest.length + ofBe rest) / 256 ^ rest.length = byte.toNat := by
      rw [Nat.mul_comm, Nat.mul_add_div (Nat.pow_pos (by decide)), Nat.div_eq_of_lt (ofBe_lt rest), Nat.add_zero]
    rw [List.length_cons, toBe, ofBe, head, toBe_add_mul, ih, UInt8.ofNat_toNat]

end MineRider.Machine
