import Mathlib.Data.List.Induction
import Mathlib.Data.Nat.Bitwise
import Mathlib.Tactic.LinearCombination
import MineRider.Machine.BigEndian
import MineRider.Model.Auth.ServerHash

/-! # A digest is printed as a number

The bytes of a digest and of its complement add up to a power of two, and the digits of the bytes without the leading
zeros are the numeral of the number they denote.
-/

namespace MineRider.Soundness.ServerHash

open Machine Model.Auth

section Statement

/-- The integer with a two's-complement representation, the most significant byte first. -/
def twosComplement (bytes : List UInt8) : ℤ := Int.bmod (ofBe bytes) (256 ^ bytes.length)

/-- The numeral without leading zeros. -/
def hexNumeral (value : ℤ) : String :=
  (if value < 0 then "-" else "") ++ String.ofList (Nat.toDigits 16 value.natAbs)

end Statement

private theorem complement_byte (byte : UInt8) {carry : UInt16} (small : carry.toNat ≤ 1) :
    let sum := (~~~byte).toUInt16 + carry
    (sum >>> 8).toNat ≤ 1 ∧ (sum >>> 8).toNat * 256 + sum.toUInt8.toNat + byte.toNat = 255 + carry.toNat := by
  have bound := byte.toNat_lt
  have inverted : (~~~byte).toUInt16.toNat = 255 - byte.toNat := by
    rw [UInt8.toNat_toUInt16, UInt8.toNat_not]
    rfl
  have total : ((~~~byte).toUInt16 + carry).toNat = 255 - byte.toNat + carry.toNat := by
    rw [UInt16.toNat_add, inverted]
    omega
  have shifted : (((~~~byte).toUInt16 + carry) >>> 8).toNat = (255 - byte.toNat + carry.toNat) / 256 := by
    rw [UInt16.toNat_shiftRight, total]
    exact Nat.shiftRight_eq_div_pow _ 8
  dsimp only
  rw [shifted, UInt16.toNat_toUInt8, total]
  omega

/-- Bytes and their complement add up to a power of two, which is the carry alone if the bytes are all zero. -/
theorem twoComplement_spec (bytes : List UInt8) :
    (twoComplement bytes).1.length = bytes.length ∧ (twoComplement bytes).2.toNat ≤ 1 ∧
    (twoComplement bytes).2.toNat * 256 ^ bytes.length + ofBe (twoComplement bytes).1 + ofBe bytes =
      256 ^ bytes.length := by
  induction bytes with
  | nil => exact ⟨rfl, le_refl _, rfl⟩
  | cons byte rest ih =>
    obtain ⟨length, small, sum⟩ := ih
    obtain ⟨carries, added⟩ := complement_byte byte small
    refine ⟨congrArg (· + 1) length, carries, ?_⟩
    rw [twoComplement, ofBe, ofBe, length, List.length_cons, pow_succ]
    linear_combination 256 ^ rest.length * added + sum

/-- The digits of the bytes, two for each. -/
def nibbles (bytes : List UInt8) : List ℕ := bytes.flatMap fun byte => [byte.toNat / 16, byte.toNat % 16]

def value (digits : List ℕ) : ℕ := digits.foldl (fun n digit => 16 * n + digit) 0

private theorem hex_eq (bytes : List UInt8) : bytes.flatMap hexByte = (nibbles bytes).map Nat.digitChar := by
  rw [nibbles, List.map_flatMap]
  rfl

private theorem foldl_nibbles (bytes : List UInt8) (n : ℕ) :
    (nibbles bytes).foldl (fun n digit => 16 * n + digit) n = n * 256 ^ bytes.length + ofBe bytes := by
  induction bytes generalizing n with
  | nil => simp [nibbles, ofBe]
  | cons byte rest ih =>
    rw [nibbles] at ih ⊢
    rw [List.flatMap_cons, List.foldl_append, ih, ofBe, List.length_cons, pow_succ]
    simp only [List.foldl_cons, List.foldl_nil]
    rw [show 16 * (16 * n + byte.toNat / 16) + byte.toNat % 16 = n * 256 + byte.toNat by omega]
    ring

/-- Without its leading zeros, a list of digits is the numeral of its value, or empty if the value is zero. -/
theorem trimmed_digits {digits : List ℕ} (small : ∀ digit ∈ digits, digit < 16) :
    (digits.map Nat.digitChar).dropWhile (· == '0') =
      if value digits = 0 then [] else Nat.toDigits 16 (value digits) := by
  induction digits using List.reverseRecOn with
  | nil => rfl
  | append_singleton digits digit ih =>
    have last : digit < 16 := small digit (List.mem_append_right _ (List.mem_singleton_self _))
    have zero : ∀ digit < 16, (Nat.digitChar digit == '0') = (digit == 0) := by decide
    have snoc : value (digits ++ [digit]) = 16 * value digits + digit := by simp [value]
    rw [List.map_append, List.map_singleton, List.dropWhile_append, ih fun other inside =>
      small other (List.mem_append_left _ inside), snoc]
    by_cases empty : value digits = 0
    · rw [if_pos empty, empty, mul_zero, zero_add, List.isEmpty_nil, if_pos rfl, List.dropWhile_cons, zero digit last]
      simp [Nat.toDigits_of_lt_base last]
    · have positive := Nat.pos_of_ne_zero empty
      have nonzero : 16 * value digits + digit ≠ 0 := by omega
      rw [if_neg empty, if_neg nonzero, if_neg (by simp), ← Nat.toDigits_append_toDigits (by decide) positive last,
        Nat.toDigits_of_lt_base last]

/-- The numeral of the bytes, as the digest is printed. -/
theorem printed_bytes (bytes : List UInt8) :
    (let trimmed := (bytes.flatMap hexByte).dropWhile (· == '0')
    if trimmed.isEmpty then ['0'] else trimmed) = Nat.toDigits 16 (ofBe bytes) := by
  have small : ∀ digit ∈ nibbles bytes, digit < 16 := by
    intro digit inside
    obtain ⟨byte, -, half⟩ := List.mem_flatMap.mp inside
    have bound := byte.toNat_lt
    simp only [List.mem_cons, List.not_mem_nil, or_false] at half
    omega
  have same : value (nibbles bytes) = ofBe bytes := by rw [value, foldl_nibbles, zero_mul, zero_add]
  rw [hex_eq, trimmed_digits small, same]
  by_cases zero : ofBe bytes = 0
  · rw [if_pos zero, zero]
    rfl
  · rw [if_neg zero, if_neg (by simp)]

private theorem sign_bit (byte : UInt8) : (byte &&& 0x80 != 0) = decide (128 ≤ byte.toNat) := by
  have bound := byte.toNat_lt
  have bit : (byte &&& 0x80).toNat = (byte.toNat.testBit 7).toNat * 2 ^ 7 := by
    exact Nat.and_two_pow _ 7
  rw [bne, beq_eq_decide, ← decide_not, decide_eq_decide, ← UInt8.toNat_inj, bit, Nat.testBit_eq_decide_div_mod_eq]
  by_cases high : 128 ≤ byte.toNat
  · have one : byte.toNat / 128 % 2 = 1 := by omega
    simp [high, one]
  · have zero : byte.toNat / 128 % 2 = 0 := by omega
    simp [high, zero]

theorem twosComplement_cons (first : UInt8) (rest : List UInt8) : twosComplement (first :: rest) =
    if 128 ≤ first.toNat then (ofBe (first :: rest) : ℤ) - (256 ^ (rest.length + 1) : ℕ) else ofBe (first :: rest) := by
  have bounded := ofBe_lt (first :: rest)
  have others := ofBe_lt rest
  rw [twosComplement, List.length_cons, Int.bmod_def, Int.emod_eq_of_lt (Int.natCast_nonneg _) (mod_cast bounded)]
  have half : (ofBe (first :: rest) : ℤ) < ((256 ^ (rest.length + 1) : ℕ) + 1) / 2 ↔ ¬ 128 ≤ first.toNat := by
    have power : 256 ^ (rest.length + 1) = 128 * 256 ^ rest.length * 2 := by rw [pow_succ]; ring
    rw [power, ofBe, not_le]
    constructor
    · intro below
      by_contra high
      have := Nat.mul_le_mul_right (256 ^ rest.length) (not_lt.mp high)
      omega
    · intro low
      have := Nat.mul_le_mul_right (256 ^ rest.length) (Nat.succ_le_of_lt low)
      rw [Nat.succ_mul] at this
      omega
  simp only [half, ite_not]

/-- A digest is written as the integer that its bytes represent. -/
theorem signed_hex_digest_is_numeral (digest : List UInt8) (nonempty : digest ≠ []) :
    signedHexDigest digest = some (hexNumeral (twosComplement digest)) := by
  obtain ⟨first, rest, rfl⟩ := List.exists_cons_of_ne_nil nonempty
  rw [signedHexDigest, List.head?_cons, Option.bind_eq_bind, Option.bind_some, twosComplement_cons, sign_bit]
  have bounded := ofBe_lt (first :: rest)
  rw [List.length_cons] at bounded
  by_cases negative : 128 ≤ first.toNat
  · have complement : ofBe (twoComplementInPlace (first :: rest)) = 256 ^ (rest.length + 1) - ofBe (first :: rest) := by
      have positive : 0 < ofBe (first :: rest) := Nat.add_pos_left (Nat.mul_pos (by omega) (Nat.pow_pos (by decide))) _
      obtain ⟨-, small, sum⟩ := twoComplement_spec (first :: rest)
      rcases Nat.le_one_iff_eq_zero_or_eq_one.mp small with none | one
      · rw [none, zero_mul, zero_add] at sum
        exact Nat.eq_sub_of_add_eq sum
      · rw [one] at sum
        omega
    have below : (ofBe (first :: rest) : ℤ) - (256 ^ (rest.length + 1) : ℕ) < 0 := by omega
    have size : ((ofBe (first :: rest) : ℤ) - (256 ^ (rest.length + 1) : ℕ)).natAbs =
        256 ^ (rest.length + 1) - ofBe (first :: rest) := by omega
    simp only [negative, decide_true, if_true]
    rw [hexNumeral, if_pos below, size, ← complement, ← printed_bytes]
  · simp only [negative, decide_false, Bool.false_eq_true, if_false]
    have above : ¬ (ofBe (first :: rest) : ℤ) < 0 := by omega
    rw [hexNumeral, if_neg above, Int.natAbs_natCast, ← printed_bytes, String.empty_append]

theorem all_ones_is_minus_one : signedHexDigest [255, 255] = some "-1" := by
  rw [signed_hex_digest_is_numeral [255, 255] (by decide)]
  decide

end MineRider.Soundness.ServerHash
