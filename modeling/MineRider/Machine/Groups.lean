import Mathlib.Tactic.Ring
import MineRider.Machine.Reader

/-! # Words in groups of seven bits

A word is written seven bits at a time, the lowest group first, and every byte but the last carries a
continuation bit. The writer, the size and the bounded reader are loops over words of any width; all
three follow the numeral of the word's number.
-/

namespace MineRider.Machine.Groups

/-- The groups of a number, the lowest first. -/
def numeral (n : ℕ) : List UInt8 :=
  if n < 128 then [UInt8.ofNat n] else (UInt8.ofNat (n % 128) ||| 0x80) :: numeral (n / 128)

variable {w : ℕ} {ε : Type}

theorem toNat_shiftRight_seven (value : BitVec w) : (value >>> 7).toNat = value.toNat / 128 := by
  rw [BitVec.toNat_ushiftRight, Nat.shiftRight_eq_div_pow]

/-- Writes the low group and goes on with the others while one of them is not zero. -/
def write (value : BitVec w) : List UInt8 :=
  let byte := UInt8.ofBitVec ((value &&& 0x7F).setWidth 8)
  let next := value >>> 7
  if next ≠ 0 then (byte ||| 0x80) :: write next else [byte]
termination_by value.toNat
decreasing_by
  have quotient := toNat_shiftRight_seven value
  have nonzero : next.toNat ≠ 0 := fun zero => ‹next ≠ 0› (BitVec.eq_of_toNat_eq zero)
  simp only [next] at nonzero ⊢
  omega

/-- Counts the groups, while a bit above the low one is set. -/
def size (value : BitVec w) : ℕ :=
  if value &&& ~~~0x7F ≠ 0 then size (value >>> 7) + 1 else 1
termination_by value.toNat
decreasing_by
  have quotient := toNat_shiftRight_seven value
  have nonzero : value.toNat ≠ 0 := by
    intro zero
    obtain rfl : value = 0#w := BitVec.eq_of_toNat_eq zero
    exact absurd BitVec.zero_and ‹_›
  omega

/-- The low seven bits of the `i`-th byte enter the result. -/
def accumulate (result : BitVec w) (i : ℕ) (byte : UInt8) : BitVec w :=
  result ||| ((byte &&& 0x7F).toBitVec.setWidth w <<< (i * 7))

/-- Reads at most `left` more groups. -/
def read (getByte : Reader UInt8 ε UInt8) (tooLong : ε) (i : ℕ) (result : BitVec w) :
    ℕ → Reader UInt8 ε (BitVec w)
  | 0 => throw tooLong
  | left + 1 => do
      let byte ← getByte
      let result := accumulate result i byte
      if byte &&& 0x80 = 0 then pure result else read getByte tooLong (i + 1) result left

section Numeral

theorem numeral_ne_nil (n : ℕ) : numeral n ≠ [] := by
  rw [numeral]
  split_ifs <;> simp

theorem numeral_length_le (groups : ℕ) {n : ℕ} (fits : n < 2 ^ (7 * (groups + 1))) :
    (numeral n).length ≤ groups + 1 := by
  induction groups generalizing n with
  | zero =>
    rw [numeral, if_pos (show n < 128 from fits)]
    rfl
  | succ groups ih =>
    rw [numeral]
    split_ifs with small
    · simp
    · have weight : 2 ^ (7 * (groups + 1 + 1)) = 128 * 2 ^ (7 * (groups + 1)) := by ring
      exact Nat.succ_le_succ (ih (by omega))

private theorem group_cases : ∀ group : BitVec 8, group.toNat < 128 →
    group &&& 0x7F = group ∧ group &&& 0x80 = 0 ∧ (group ||| 0x80) &&& 0x7F = group ∧
      (group ||| 0x80) &&& 0x80 ≠ 0 := by decide +kernel

/-- A seven-bit group survives the reader's mask, with and without its continuation bit. -/
theorem group_masks {n : ℕ} (small : n < 128) : let group := UInt8.ofNat n
    group &&& 0x7F = group ∧ group &&& 0x80 = 0 ∧ (group ||| 0x80) &&& 0x7F = group ∧
      (group ||| 0x80) &&& 0x80 ≠ 0 := by
  obtain ⟨keep, stop, strip, more⟩ := group_cases (BitVec.ofNat 8 n) (by rw [BitVec.toNat_ofNat]; omega)
  exact ⟨UInt8.toBitVec_inj.mp keep, UInt8.toBitVec_inj.mp stop, UInt8.toBitVec_inj.mp strip,
    fun zero => more (congrArg UInt8.toBitVec zero)⟩

end Numeral

section Words

variable (wide : 8 ≤ w)
include wide

theorem toNat_and_low (value : BitVec w) : (value &&& 0x7F).toNat = value.toNat % 128 := by
  have mask : (0x7F : BitVec w).toNat = 2 ^ 7 - 1 := by
    have room : 2 ^ 8 ≤ 2 ^ w := Nat.pow_le_pow_right (by decide) wide
    exact (BitVec.toNat_ofNat 127 w).trans (Nat.mod_eq_of_lt (by omega))
  rw [BitVec.toNat_and, mask, Nat.and_two_pow_sub_one_eq_mod]

theorem write_eq_numeral (value : BitVec w) : write value = numeral value.toNat := by
  have low : UInt8.ofBitVec ((value &&& 0x7F).setWidth 8) = UInt8.ofNat (value.toNat % 128) := by
    apply UInt8.toNat_inj.mp
    rw [UInt8.toNat_ofBitVec, BitVec.toNat_setWidth, toNat_and_low wide, UInt8.toNat_ofNat']
  have quotient := toNat_shiftRight_seven value
  have more : value >>> 7 = 0 ↔ value.toNat < 128 := by
    rw [← BitVec.toNat_inj, quotient, BitVec.ofNat_eq_ofNat, BitVec.toNat_ofNat, Nat.zero_mod]
    omega
  rw [write, numeral, low]
  by_cases small : value.toNat < 128
  · simp only [more.mpr small, small, ne_eq, not_true_eq_false, ↓reduceIte, Nat.mod_eq_of_lt]
  · simp only [mt more.mp small, small, ne_eq, not_false_eq_true, ↓reduceIte]
    rw [write_eq_numeral (value >>> 7), quotient]
termination_by value.toNat
decreasing_by omega

theorem size_eq_length (value : BitVec w) : size value = (numeral value.toNat).length := by
  have quotient := toNat_shiftRight_seven value
  have stop : value &&& ~~~0x7F = 0 ↔ value.toNat < 128 := by
    have kept : value &&& ~~~0x7F = 0 ↔ value &&& 0x7F = value := by
      simp only [BitVec.eq_of_getElem_eq_iff, BitVec.getElem_and, BitVec.getElem_not]
      refine forall₂_congr fun i inside => ?_
      cases value[i] <;> simp
    rw [kept, ← BitVec.toNat_inj, toNat_and_low wide]
    omega
  rw [size, numeral]
  by_cases small : value.toNat < 128
  · simp only [stop.mpr small, small, ne_eq, not_true_eq_false, ↓reduceIte, List.length_singleton]
  · simp only [mt stop.mp small, small, ne_eq, not_false_eq_true, ↓reduceIte, List.length_cons]
    rw [size_eq_length (value >>> 7), quotient]
termination_by value.toNat
decreasing_by omega

/-- The groups read so far stay below the next one, so the bitwise or is an addition. -/
theorem accumulate_toNat {result : BitVec w} {i n : ℕ} {byte : UInt8} (low : result.toNat < 2 ^ (7 * i))
    (small : n < 128) (group : byte &&& 0x7F = UInt8.ofNat n) (fits : n * 2 ^ (7 * i) < 2 ^ w) :
    (accumulate result i byte).toNat = result.toNat + n * 2 ^ (7 * i) := by
  have widened : ((UInt8.ofNat n).toBitVec.setWidth w).toNat = n := by
    have room : 2 ^ 8 ≤ 2 ^ w := Nat.pow_le_pow_right (by decide) wide
    rw [BitVec.toNat_setWidth, UInt8.toNat_toBitVec, UInt8.toNat_ofNat', Nat.mod_eq_of_lt (by omega),
      Nat.mod_eq_of_lt (by omega)]
  rw [accumulate, group, BitVec.toNat_or, BitVec.toNat_shiftLeft, widened, Nat.mul_comm i, Nat.mod_eq_of_lt
    (by rwa [Nat.shiftLeft_eq]), Nat.or_comm, ← Nat.shiftLeft_add_eq_or_of_lt low, Nat.shiftLeft_eq, Nat.add_comm]

/-- Reading a numeral adds its number, above the groups already read; the iterations cover the word. -/
theorem read_reads {getByte : Reader UInt8 ε UInt8} (reads : ∀ byte rest, getByte.run (byte :: rest) = .ok (byte, rest))
    (tooLong : ε) {left i n : ℕ} {result : BitVec w} (low : result.toNat < 2 ^ (7 * i))
    (fits : n * 2 ^ (7 * i) < 2 ^ w) (inside : 7 * i < w) (covered : w ≤ 7 * (i + left)) :
    Reader.Reads (read getByte tooLong i result left) (numeral n)
      (BitVec.ofNat w (result.toNat + n * 2 ^ (7 * i))) := by
  induction left generalizing i n result with
  | zero => omega
  | succ left ih =>
    intro suffix
    rw [numeral, read]
    split_ifs with small
    · obtain ⟨keep, stop, _, _⟩ := group_masks small
      rw [List.singleton_append, Reader.run_bind_of_ok (reads ..), if_pos stop, Reader.run_pure,
        ← accumulate_toNat wide low small keep fits, BitVec.ofNat_toNat, BitVec.setWidth_eq]
    · have digit : n % 128 < 128 := Nat.mod_lt n (by decide)
      obtain ⟨_, _, strip, more⟩ := group_masks digit
      have weight : 2 ^ (7 * (i + 1)) = 128 * 2 ^ (7 * i) := by ring
      have total : n * 2 ^ (7 * i) = n / 128 * (128 * 2 ^ (7 * i)) + n % 128 * 2 ^ (7 * i) := by
        rw [← Nat.mul_assoc, ← Nat.add_mul, Nat.div_add_mod']
      have number := accumulate_toNat wide low digit strip (by omega)
      have bounded : n % 128 * 2 ^ (7 * i) ≤ 127 * 2 ^ (7 * i) := Nat.mul_le_mul_right _ (by omega)
      have nonzero : 1 * (128 * 2 ^ (7 * i)) ≤ n / 128 * (128 * 2 ^ (7 * i)) :=
        Nat.mul_le_mul_right _ (by omega)
      have onward := ih (i := i + 1) (n := n / 128) (by rw [number, weight]; omega) (by rw [weight]; omega)
        ((Nat.pow_lt_pow_iff_right Nat.one_lt_two).mp (by rw [weight]; omega)) (by omega) suffix
      rw [List.cons_append, Reader.run_bind_of_ok (reads ..), if_neg more, onward, number, weight, total,
        Nat.add_comm (_ / _ * _), Nat.add_assoc]

/-- A written word is read back when the iterations cover its width. -/
theorem read_write {getByte : Reader UInt8 ε UInt8}
    (reads : ∀ byte rest, getByte.run (byte :: rest) = .ok (byte, rest)) (tooLong : ε) {left : ℕ}
    (covered : w ≤ 7 * left) (value : BitVec w) :
    Reader.Reads (read getByte tooLong 0 0 left) (write value) value := by
  have number : Reader.Reads (read getByte tooLong 0 0 left) (numeral value.toNat)
      (BitVec.ofNat w ((0 : BitVec w).toNat + value.toNat * 2 ^ (7 * 0))) :=
    read_reads wide reads tooLong (by simp) (by simpa using value.isLt) (by omega) (by omega)
  rw [write_eq_numeral wide]
  simpa using number

end Words

end MineRider.Machine.Groups
