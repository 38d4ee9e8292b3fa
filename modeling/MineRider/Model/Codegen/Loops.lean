import MineRider.Model.Protocol.Codecs

/-! # Generated lists that carry their own end

An `entityMetadataLoop` ends with a terminator byte in place of an element, a `topBitSetTerminatedArray` with an
element whose top bit is clear. Validation accepts only containers whose first field is a signed or unsigned byte as
their elements; the other fields are one codec here, which may depend on the first. Every iteration of the two loops
reads at least a byte, so that one iteration more than there are bytes is never needed.
-/

namespace MineRider.Model.Codegen

open Machine Machine.Reader Protocol PacketReader

/-- The type of the first field of an element. -/
inductive FirstType where
  | i8
  | u8
deriving DecidableEq, Repr

namespace FirstType

abbrev Value : FirstType → Type
  | i8 => Int8
  | u8 => UInt8

/-- `Encode` and `Decode` of the field. -/
def codec : (t : FirstType) → Codec t.Value
  | i8 => .fixed .i8
  | u8 => .fixed .u8

/-- `self.first as u8` -/
def asU8 : (t : FirstType) → t.Value → UInt8
  | i8, v => v.toUInt8
  | u8, v => v

def outOfRange : (t : FirstType) → t.Value → Bool
  | i8, v => ¬ (0 ≤ v ∧ v ≤ 0x7f)
  | u8, v => v > 0x7f

def strip (raw : UInt8) : (t : FirstType) → t.Value
  | i8 => (raw &&& 0x7f).toInt8
  | u8 => raw &&& 0x7f

end FirstType

section Loops

variable {β : Type} (t : FirstType) (fields : t.Value → Codec β)

/-- `Encode` and `Decode` of an element. -/
def element : Codec (t.Value × β) where
  encode item := do return (← t.codec.encode item.1) ++ (← (fields item.1).encode item.2)
  decode := do
    let first ← t.codec.decode
    let others ← (fields first).decode
    pure (first, others)

/-- One iteration of the metadata loop; `none` is the terminator. -/
def metaItem (endVal : UInt8) : PacketReader (Option (t.Value × β) × Unit) := do
  let rest ← rest
  if rest.head? = some endVal then do
    let _ ← getU8
    pure (none, ())
  else do
    let item ← (element t fields).decode
    pure (some item, ())

def metaLoop (endVal : UInt8) : Codec (List (t.Value × β)) where
  encode items := do return (← (element t fields).encodeAll items) ++ PacketWriter.putU8 endVal
  decode := do
    let remaining ← remaining
    let items ← untilNone (fun _ => metaItem t fields endVal) (.bufferUnderflow 1 0) (remaining + 1) ()
    pure items.1

/-- `(first as u8 & 0x7f) | if more { 0x80 } else { 0 }` -/
def topbitByte (first : UInt8) (more : Bool) : UInt8 := (first &&& 0x7f) ||| if more then 0x80 else 0

def encodeTopbit (ctx : String) (item : t.Value × β) (more : Bool) : Except ProtocolError Bytes :=
  if t.outOfRange item.1 then .error (.invalidData s!"{ctx}: first field out of 7-bit range")
  else do
    let others ← (fields item.1).encode item.2
    return PacketWriter.putU8 (topbitByte (t.asU8 item.1) more) ++ others

def decodeTopbit : PacketReader ((t.Value × β) × Bool) := do
  let firstRaw ← getU8
  let more := firstRaw &&& 0x80 ≠ 0
  let first := t.strip firstRaw
  let others ← (fields first).decode
  pure ((first, others), more)

/-- The encoding loop: `index + 1 < len` holds as long as an element follows. -/
def encodeTopbits (ctx : String) : List (t.Value × β) → Except ProtocolError Bytes
  | [] => .ok []
  | item :: rest => do
      let first ← encodeTopbit t fields ctx item (!rest.isEmpty)
      let later ← encodeTopbits ctx rest
      return first ++ later

def decodeTopbits : ℕ → PacketReader (List (t.Value × β))
  | 0 => throw (.bufferUnderflow 1 0)
  | fuel + 1 => do
      let (item, more) ← decodeTopbit t fields
      if ¬ more then pure [item]
      else do
        let items ← decodeTopbits fuel
        pure (item :: items)

def topbitLoop (ctx : String) : Codec (List (t.Value × β)) where
  encode := encodeTopbits t fields ctx
  decode := do decodeTopbits t fields ((← remaining) + 1)

end Loops

end MineRider.Model.Codegen
