import MineRider.Machine.BigEndian
import MineRider.Machine.Reader

/-! # Bounds-checked packet buffers

`PacketReader` is a cursor over the unread bytes: a short read stops with `bufferUnderflow`, which
carries the requested and the remaining number of bytes. A writer appends to its output, so each
`put` is the byte string it appends. Fixed-width integers are big-endian and floats travel as
their bit patterns. Every `get` reads back its `put` in front of any suffix, and accepts nothing else.
-/

namespace MineRider.Model.Protocol

open Machine Machine.Reader

abbrev Bytes := List UInt8

/-- The failures of the modelled protocol functions, with the data they carry. -/
inductive ProtocolError where
  | varIntTooLong
  | varLongTooLong
  | bufferUnderflow (needed remaining : ℕ)
  | negativeLength (length : Int32)
  | invalidUtf8
  | invalidString (message : String)
  | invalidIdentifier (message : String)
  | frameTooLarge (length max : ℕ)
  | compression (message : String)
  | invalidNbt (message : String)
  | invalidData (message : String)
deriving DecidableEq, Repr

abbrev PacketReader := Reader UInt8 ProtocolError

/-- Lengths survive their passage through `i32`. -/
theorem length_as_i32 {length : ℕ} (bound : length < 2 ^ 31) :
    ¬ Int32.ofNat length < 0 ∧ (Int32.ofNat length).toNatClampNeg = length := by
  refine ⟨?_, Int32.toNatClampNeg_ofNat_of_lt bound⟩
  rw [Int32.lt_iff_toInt_lt, Int32.toInt_ofNat_of_lt bound]
  simp

namespace PacketReader

def remaining : PacketReader ℕ := do
  let data ← get
  pure data.length

/-- All unread bytes, without consuming them. -/
def rest : PacketReader Bytes := get

/-- Reads exactly `n` bytes; `take::<N>` of the source is the same read at a constant length. -/
def readBytes (n : ℕ) : PacketReader Bytes := do
  let data ← get
  if data.length < n then
    throw (.bufferUnderflow n data.length)
  set (data.drop n)
  pure (data.take n)

theorem remaining_run (input : Bytes) : remaining.run input = .ok (input.length, input) := rfl

theorem readBytes_run (n : ℕ) (input : Bytes) : (readBytes n).run input =
    if input.length < n then .error (.bufferUnderflow n input.length)
    else .ok (input.take n, input.drop n) := by
  by_cases short : input.length < n
  all_goals
    simp [readBytes, short]
    rfl

theorem readBytes_reads (bytes : Bytes) : Reads (readBytes bytes.length) bytes bytes := by
  intro suffix
  rw [readBytes_run, if_neg (by simp), List.take_left, List.drop_left]

theorem readBytes_sound (n : ℕ) :
    Sound (readBytes n) (fun used bytes => used = bytes ∧ bytes.length = n) := by
  intro input bytes rest success
  rw [readBytes_run] at success
  split_ifs at success with short
  cases success
  exact ⟨_, (List.take_append_drop n input).symm, rfl, List.length_take_of_le (not_lt.mp short)⟩

end PacketReader

/-- A fixed-width wire integer: its width in bytes and its identification with the naturals below
`256 ^ width`, so that `from_be_bytes` and `to_be_bytes` are inverse. -/
structure FixedInt (α : Type) where
  width : ℕ
  toNat : α → ℕ
  ofNat : ℕ → α
  toNat_lt : ∀ a, toNat a < 256 ^ width
  ofNat_toNat : ∀ a, ofNat (toNat a) = a
  toNat_ofNat : ∀ n, n < 256 ^ width → toNat (ofNat n) = n

namespace FixedInt

def u8 : FixedInt UInt8 where
  width := 1
  toNat := UInt8.toNat
  ofNat := UInt8.ofNat
  toNat_lt := UInt8.toNat_lt
  ofNat_toNat _ := UInt8.ofNat_toNat
  toNat_ofNat _ := Nat.mod_eq_of_lt

def i8 : FixedInt Int8 where
  width := 1
  toNat v := v.toUInt8.toNat
  ofNat n := (UInt8.ofNat n).toInt8
  toNat_lt v := v.toUInt8.toNat_lt
  ofNat_toNat v := by rw [UInt8.ofNat_toNat, Int8.toInt8_toUInt8]
  toNat_ofNat _ := Nat.mod_eq_of_lt

def u16 : FixedInt UInt16 where
  width := 2
  toNat := UInt16.toNat
  ofNat := UInt16.ofNat
  toNat_lt := UInt16.toNat_lt
  ofNat_toNat _ := UInt16.ofNat_toNat
  toNat_ofNat _ := Nat.mod_eq_of_lt

def i16 : FixedInt Int16 where
  width := 2
  toNat v := v.toUInt16.toNat
  ofNat n := (UInt16.ofNat n).toInt16
  toNat_lt v := v.toUInt16.toNat_lt
  ofNat_toNat v := by rw [UInt16.ofNat_toNat, Int16.toInt16_toUInt16]
  toNat_ofNat _ := Nat.mod_eq_of_lt

/-- Also the wire form of an `f32`, through its bit pattern. -/
def u32 : FixedInt UInt32 where
  width := 4
  toNat := UInt32.toNat
  ofNat := UInt32.ofNat
  toNat_lt := UInt32.toNat_lt
  ofNat_toNat _ := UInt32.ofNat_toNat
  toNat_ofNat _ := Nat.mod_eq_of_lt

def i32 : FixedInt Int32 where
  width := 4
  toNat v := v.toUInt32.toNat
  ofNat n := (UInt32.ofNat n).toInt32
  toNat_lt v := v.toUInt32.toNat_lt
  ofNat_toNat v := by rw [UInt32.ofNat_toNat, Int32.toInt32_toUInt32]
  toNat_ofNat _ := Nat.mod_eq_of_lt

/-- Also the wire form of an `f64`, through its bit pattern. -/
def u64 : FixedInt UInt64 where
  width := 8
  toNat := UInt64.toNat
  ofNat := UInt64.ofNat
  toNat_lt := UInt64.toNat_lt
  ofNat_toNat _ := UInt64.ofNat_toNat
  toNat_ofNat _ := Nat.mod_eq_of_lt

def i64 : FixedInt Int64 where
  width := 8
  toNat v := v.toUInt64.toNat
  ofNat n := (UInt64.ofNat n).toInt64
  toNat_lt v := v.toUInt64.toNat_lt
  ofNat_toNat v := by rw [UInt64.ofNat_toNat, Int64.toInt64_toUInt64]
  toNat_ofNat _ := Nat.mod_eq_of_lt

variable {α : Type} (kind : FixedInt α)

def get : PacketReader α := do
  let bytes ← PacketReader.readBytes kind.width
  pure (kind.ofNat (ofBe bytes))

def put (v : α) : Bytes := toBe kind.width (kind.toNat v)

@[simp] theorem put_length (v : α) : (kind.put v).length = kind.width := toBe_length _ _

theorem get_reads (v : α) : Reads kind.get (kind.put v) v := by
  have bytes := PacketReader.readBytes_reads (kind.put v)
  rw [put_length] at bytes
  have value : kind.ofNat (ofBe (kind.put v)) = v := by
    rw [put, ofBe_toBe_of_lt (kind.toNat_lt v), kind.ofNat_toNat]
  have read := bytes.map (fun bytes => kind.ofNat (ofBe bytes))
  rw [value] at read
  exact read

theorem get_sound : Sound kind.get (fun used v => used = kind.put v) := by
  refine ((PacketReader.readBytes_sound kind.width).bind (fun _ bytes _ => Sound.pure _)).mono ?_
  rintro _ v ⟨bytes, _, _, rfl, ⟨rfl, length⟩, rfl, rfl⟩
  have bound : ofBe bytes < 256 ^ kind.width := length ▸ ofBe_lt bytes
  rw [put, kind.toNat_ofNat _ bound, ← length, toBe_ofBe, List.append_nil]

theorem u8_put (byte : UInt8) : u8.put byte = [byte] := by
  simp [put, u8, toBe]

end FixedInt

namespace PacketReader

abbrev getU8 : PacketReader UInt8 := FixedInt.u8.get
abbrev getI8 : PacketReader Int8 := FixedInt.i8.get
abbrev getU16 : PacketReader UInt16 := FixedInt.u16.get
abbrev getI16 : PacketReader Int16 := FixedInt.i16.get
abbrev getI32 : PacketReader Int32 := FixedInt.i32.get
abbrev getU64 : PacketReader UInt64 := FixedInt.u64.get
abbrev getI64 : PacketReader Int64 := FixedInt.i64.get
/-- A float is read as its bit pattern. -/
abbrev getF32 : PacketReader UInt32 := FixedInt.u32.get
abbrev getF64 : PacketReader UInt64 := FixedInt.u64.get

@[simp] theorem getU8_cons (byte : UInt8) (rest : Bytes) :
    getU8.run (byte :: rest) = .ok (byte, rest) := by
  have read := FixedInt.u8.get_reads byte rest
  rwa [FixedInt.u8_put] at read

end PacketReader

namespace PacketWriter

abbrev putU8 : UInt8 → Bytes := FixedInt.u8.put
abbrev putI8 : Int8 → Bytes := FixedInt.i8.put
abbrev putU16 : UInt16 → Bytes := FixedInt.u16.put
abbrev putI16 : Int16 → Bytes := FixedInt.i16.put
abbrev putI32 : Int32 → Bytes := FixedInt.i32.put
abbrev putI64 : Int64 → Bytes := FixedInt.i64.put
abbrev putF32 : UInt32 → Bytes := FixedInt.u32.put
abbrev putF64 : UInt64 → Bytes := FixedInt.u64.put

end PacketWriter

/-- The block position in an `i64`: 26 bits for `x`, 26 for `z` and 12 for `y`. -/
def packPosition (x y z : Int32) : Int64 :=
  ((x.toInt64 &&& 0x3FFFFFF) <<< 38) ||| ((z.toInt64 &&& 0x3FFFFFF) <<< 12) ||| (y.toInt64 &&& 0xFFF)

def unpackPosition (packed : Int64) : Int32 × Int32 × Int32 :=
  ((packed >>> 38).toInt32, ((packed <<< 52) >>> 52).toInt32, ((packed <<< 26) >>> 38).toInt32)

end MineRider.Model.Protocol
