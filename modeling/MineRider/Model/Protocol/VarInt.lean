import MineRider.Machine.Groups
import MineRider.Model.Protocol.Buffer

/-! # Variable-length integers

Seven bits per byte, least significant group first; the high bit of a byte marks continuation.
Negative values are written through their two's complement, so a 32-bit value takes at most five
bytes and a 64-bit value at most ten. The writer's loop stops when the remaining value is zero; the
reader's loop is bounded by the largest number of bytes, and drops the bits of its last byte that do
not fit.
-/

namespace MineRider.Model.Protocol

open Machine Machine.Reader PacketReader

def maxVarintBytes : ℕ := 5

/-- The loop of `write_varint` on the unsigned value still to be written. -/
def writeVarintLoop (value : UInt32) : Bytes :=
  let byte := (value &&& 0x7F).toUInt8
  let next := value >>> 7
  if next ≠ 0 then (byte ||| 0x80) :: writeVarintLoop next else [byte]
termination_by value.toNat
decreasing_by
  rename_i more
  have nonzero : next.toNat ≠ 0 := fun zero => more (UInt32.toNat_inj.mp zero)
  simp only [next, UInt32.toNat_shiftRight, UInt32.reduceToNat, Nat.reduceMod, Nat.shiftRight_eq_div_pow] at nonzero ⊢
  omega

/-- The bytes `write_varint` appends. -/
def writeVarint (v : Int32) : Bytes := writeVarintLoop v.toUInt32

/-- One iteration of a VarInt reader: the low seven bits of the `i`-th byte enter the result. -/
def accumulate (result : UInt32) (i : ℕ) (byte : UInt8) : UInt32 :=
  result ||| ((byte &&& 0x7F).toUInt32 <<< UInt32.ofNat (i * 7))

/-- The loop of `read_varint` with `left` iterations to go. -/
def readVarintLoop (i : ℕ) (result : UInt32) : ℕ → PacketReader Int32
  | 0 => throw .varIntTooLong
  | left + 1 => do
      let byte ← getU8
      let result := accumulate result i byte
      if byte &&& 0x80 = 0 then pure result.toInt32
      else readVarintLoop (i + 1) result left

def readVarint : PacketReader Int32 := readVarintLoop 0 0 maxVarintBytes

def varintSize (v : Int32) : ℕ := Groups.size v.toUInt32.toBitVec

/-! The loops of VarLongs are those of VarInts on 64-bit words. -/

def maxVarlongBytes : ℕ := 10

def writeVarlong (v : Int64) : Bytes := Groups.write v.toUInt64.toBitVec

def readVarlong : PacketReader Int64 :=
  (fun bits => (UInt64.ofBitVec bits).toInt64) <$>
    Groups.read getU8 .varLongTooLong 0 0 maxVarlongBytes

def varlongSize (v : Int64) : ℕ := Groups.size v.toUInt64.toBitVec

section Groups

theorem writeVarintLoop_eq_write (value : UInt32) : writeVarintLoop value = Groups.write value.toBitVec := by
  fun_induction writeVarintLoop value with
  | case1 value byte next more ih =>
    have onward : value.toBitVec >>> 7 ≠ 0 := fun zero => more (UInt32.toBitVec_inj.mp zero)
    rw [Groups.write, ih]
    simp only [onward, ne_eq, not_false_eq_true, ↓reduceIte]
    rfl
  | case2 value byte next more =>
    have stop : value.toBitVec >>> 7 = 0 := congrArg UInt32.toBitVec (not_not.mp more)
    rw [Groups.write]
    simp only [stop, ne_eq, not_true_eq_false, ↓reduceIte]
    rfl

/-- The shift stays inside the word as long as the loop runs. -/
theorem accumulate_toBitVec (result : UInt32) {i : ℕ} (inside : i < maxVarintBytes) (byte : UInt8) :
    (accumulate result i byte).toBitVec = Groups.accumulate result.toBitVec i byte := by
  have shift : (UInt32.ofNat (i * 7)).toNat % 32 = i * 7 := by
    rw [UInt32.toNat_ofNat']
    simp only [maxVarintBytes] at inside
    omega
  apply BitVec.eq_of_toNat_eq
  rw [UInt32.toNat_toBitVec, accumulate, UInt32.toNat_or, UInt32.toNat_shiftLeft, shift, Groups.accumulate,
    BitVec.toNat_or, BitVec.toNat_shiftLeft]
  rfl

/-- The number a reader of a VarInt's bits returns. -/
def ofBits (bits : BitVec 32) : Int32 := (UInt32.ofBitVec bits).toInt32

theorem readVarintLoop_eq_read (left : ℕ) {i : ℕ} (result : UInt32) (bound : i + left = maxVarintBytes) :
    readVarintLoop i result left =
      ofBits <$> Groups.read getU8 .varIntTooLong i result.toBitVec left := by
  induction left generalizing i result with
  | zero => rfl
  | succ left ih =>
    rw [readVarintLoop, Groups.read, map_bind]
    refine congrArg _ (funext fun byte => ?_)
    rw [← accumulate_toBitVec result (by omega), apply_ite (ofBits <$> ·), ← ih _ (by omega), map_pure]
    rfl

theorem writeVarint_eq_numeral (v : Int32) : writeVarint v = Groups.numeral v.toUInt32.toNat :=
  (writeVarintLoop_eq_write _).trans (Groups.write_eq_numeral (by decide) _)

theorem writeVarint_ne_nil (v : Int32) : writeVarint v ≠ [] := by
  rw [writeVarint_eq_numeral]
  exact Groups.numeral_ne_nil _

theorem writeVarint_length_le (v : Int32) : (writeVarint v).length ≤ maxVarintBytes := by
  rw [writeVarint_eq_numeral]
  exact Groups.numeral_length_le 4 (v.toUInt32.toNat_lt.trans (by decide))

/-- Reading back a written VarInt returns it and leaves the rest of the input. -/
theorem readVarint_reads (v : Int32) : Reads readVarint (writeVarint v) v := by
  rw [readVarint, readVarintLoop_eq_read maxVarintBytes 0 (by decide), writeVarint, writeVarintLoop_eq_write,
    map_eq_pure_bind]
  exact (Groups.read_write (by decide) getU8_cons _ (by decide) _).map ofBits

end Groups

theorem readVarintLoop_sound (left i : ℕ) (result : UInt32) :
    Sound (readVarintLoop i result left) fun _ _ => True := by
  induction left generalizing i result with
  | zero => exact .throw _ _
  | succ left ih =>
    have next : ∀ byte : UInt8, Sound
        (if byte &&& 0x80 = 0 then pure (accumulate result i byte).toInt32
          else readVarintLoop (i + 1) (accumulate result i byte) left) fun _ _ => True := by
      intro byte
      split_ifs with stop
      · exact (Sound.pure _).mono fun _ _ _ => trivial
      · exact ih _ _
    exact (FixedInt.u8.get_sound.bind fun _ byte _ => next byte).mono fun _ _ _ => trivial

theorem readVarint_sound : Sound readVarint fun _ _ => True := readVarintLoop_sound _ _ _

end MineRider.Model.Protocol
