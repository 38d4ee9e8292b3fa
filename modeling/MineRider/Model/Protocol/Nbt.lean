import MineRider.Model.Protocol.Buffer

/-! # Network NBT

A tag byte followed by a payload, without a root name. The reader is hardened against hostile
input: a node budget is threaded through the whole value, the nesting depth is bounded, and every
length is checked against the remaining bytes before anything is read. Floats are kept as their
bit patterns, and strings are Lean's, which are exactly the valid UTF-8 byte sequences.
-/

namespace MineRider.Model.Protocol

open Machine.Reader PacketReader PacketWriter

def maxNbtDepth : ℕ := 64
def maxNbtNodes : ℕ := 1000000

/-- An NBT value; the elements of a list should all carry its `tag`. -/
inductive Nbt where
  | byte (v : Int8)
  | short (v : Int16)
  | int (v : Int32)
  | long (v : Int64)
  | float (bits : UInt32)
  | double (bits : UInt64)
  | byteArray (v : Bytes)
  | string (v : String)
  | list (tag : UInt8) (items : List Nbt)
  | compound (entries : List (String × Nbt))
  | intArray (v : List Int32)
  | longArray (v : List Int64)
deriving Repr

namespace Nbt

def tagEnd : UInt8 := 0

def tagId : Nbt → UInt8
  | .byte _ => 1
  | .short _ => 2
  | .int _ => 3
  | .long _ => 4
  | .float _ => 5
  | .double _ => 6
  | .byteArray _ => 7
  | .string _ => 8
  | .list .. => 9
  | .compound _ => 10
  | .intArray _ => 11
  | .longArray _ => 12

/-- The entry of a compound; the first one of that name counts. -/
def get : Nbt → String → Option Nbt
  | .compound entries, name => (entries.find? (·.1 == name)).map (·.2)
  | _, _ => none

/-- `(TAG_BYTE..=TAG_LONG_ARRAY).contains(&tag)` -/
def validTag (tag : UInt8) : Bool := 1 ≤ tag && tag ≤ 12

section Read

/-- Reads an `i32` length for an array of `elemSize`-byte elements. -/
def readLength (elemSize : ℕ) : PacketReader ℕ := do
  let len ← getI32
  if len < 0 then throw (.invalidNbt s!"negative array length {len}")
  else do
    let remaining ← remaining
    let bytes := len.toNatClampNeg * elemSize
    if bytes > remaining then throw (.bufferUnderflow bytes remaining)
    else pure len.toNatClampNeg

/-- Reads a UTF-8 string behind its `u16` length. -/
def readNbtString : PacketReader String := do
  let len ← getU16
  let bytes ← readBytes len.toNat
  match String.fromUTF8? ⟨bytes.toArray⟩ with
  | some s => pure s
  | none => throw .invalidUtf8

/-- The list case; `item` reads one element of the given tag. -/
def readList (item : UInt8 → ℕ → PacketReader (Nbt × ℕ)) (nodes : ℕ) : PacketReader (Nbt × ℕ) := do
  let elemTag ← getU8
  let count ← getI32
  if count < 0 then throw (.invalidNbt s!"negative list length {count}")
  else if count = 0 then pure (.list elemTag [], nodes)
  else if ¬ validTag elemTag then throw (.invalidNbt s!"list of invalid tag id {elemTag}")
  else do
    let remaining ← remaining
    if count.toNatClampNeg > remaining then throw (.bufferUnderflow count.toNatClampNeg remaining)
    else do
      let (items, nodes) ← collect (item elemTag) count.toNatClampNeg nodes
      pure (.list elemTag items, nodes)

/-- One iteration of the compound loop; `none` is the end tag. -/
def readEntry (payload : UInt8 → ℕ → PacketReader (Nbt × ℕ)) (nodes : ℕ) :
    PacketReader (Option (String × Nbt) × ℕ) := do
  let entryTag ← getU8
  if entryTag = tagEnd then pure (none, nodes)
  else if ¬ validTag entryTag then
    throw (.invalidNbt s!"compound entry with invalid tag id {entryTag}")
  else do
    let name ← readNbtString
    let (value, nodes) ← payload entryTag nodes
    pure (some (name, value), nodes)

/-- The compound loop. Every iteration consumes the entry tag, so that one iteration more than
there are bytes is never needed. -/
def readEntries (payload : UInt8 → ℕ → PacketReader (Nbt × ℕ)) (nodes : ℕ) :
    PacketReader (List (String × Nbt) × ℕ) := do
  let remaining ← remaining
  untilNone (readEntry payload) (.bufferUnderflow 1 0) (remaining + 1) nodes

/-- The `match tag` of `read_payload`, with `payload` for the recursive calls. -/
def readTag (payload : UInt8 → ℕ → PacketReader (Nbt × ℕ)) (nodes : ℕ) : UInt8 → PacketReader (Nbt × ℕ)
  | 1 => do return (.byte (← getI8), nodes)
  | 2 => do return (.short (← getI16), nodes)
  | 3 => do return (.int (← getI32), nodes)
  | 4 => do return (.long (← getI64), nodes)
  | 5 => do return (.float (← getF32), nodes)
  | 6 => do return (.double (← getF64), nodes)
  | 7 => do return (.byteArray (← readLength 1 >>= readBytes), nodes)
  | 8 => do return (.string (← readNbtString), nodes)
  | 9 => readList payload nodes
  | 10 => do
      let (entries, nodes) ← readEntries payload nodes
      return (.compound entries, nodes)
  | 11 => do return (.intArray (← readLength 4 >>= times getI32), nodes)
  | 12 => do return (.longArray (← readLength 8 >>= times getI64), nodes)
  | other => throw (.invalidNbt s!"invalid tag id {other}")

/-- `read_payload` with `levels` nesting levels left: the source's `depth` is
`maxNbtDepth + 1 - levels`, and no level is left exactly when it exceeds `maxNbtDepth`. The node
count enters and leaves as a value. -/
def readPayload : ℕ → UInt8 → ℕ → PacketReader (Nbt × ℕ)
  | 0, _, nodes =>
      if nodes + 1 > maxNbtNodes then throw (.invalidNbt s!"more than {maxNbtNodes} nodes")
      else throw (.invalidNbt s!"nesting deeper than {maxNbtDepth}")
  | levels + 1, tag, nodes =>
      if nodes + 1 > maxNbtNodes then throw (.invalidNbt s!"more than {maxNbtNodes} nodes")
      else readTag (readPayload levels) (nodes + 1) tag

/-- `Nbt::decode` -/
def decode : PacketReader Nbt := do
  let tag ← getU8
  if tag = tagEnd then throw (.invalidNbt "standalone TAG_End is not a valid root")
  else do
    let (value, _) ← readPayload (maxNbtDepth + 1) tag 0
    pure value

end Read

section Write

/-- `s.as_bytes()` -/
def stringBytes (s : String) : Bytes := s.toByteArray.data.toList

def writeNbtString (s : String) : Except ProtocolError Bytes :=
  if (stringBytes s).length > 65535 then
    .error (.invalidNbt s!"string of {(stringBytes s).length} bytes exceeds the NBT u16 length limit")
  else .ok (putU16 (UInt16.ofNat (stringBytes s).length) ++ stringBytes s)

/-- An `i32` length in front of the concatenated elements. -/
def writeArray {α : Type} (put : α → Bytes) (v : List α) : Bytes :=
  putI32 (Int32.ofNat v.length) ++ v.flatMap put

mutual

def writePayload : Nbt → Except ProtocolError Bytes
  | .byte v => pure (putI8 v)
  | .short v => pure (putI16 v)
  | .int v => pure (putI32 v)
  | .long v => pure (putI64 v)
  | .float bits => pure (putF32 bits)
  | .double bits => pure (putF64 bits)
  | .byteArray v => pure (putI32 (Int32.ofNat v.length) ++ v)
  | .string v => writeNbtString v
  | .list tag items =>
    if items.any (fun item => item.tagId ≠ tag) then
      throw (.invalidNbt "list elements do not match the declared tag id")
    else do
      let body ← writeItems items
      pure (putU8 tag ++ (putI32 (Int32.ofNat items.length) ++ body))
  | .compound entries => do
    let body ← writeEntries entries
    pure (body ++ putU8 tagEnd)
  | .intArray v => pure (writeArray putI32 v)
  | .longArray v => pure (writeArray putI64 v)

def writeItems : List Nbt → Except ProtocolError Bytes
  | [] => pure []
  | item :: rest => do
    let payload ← writePayload item
    let later ← writeItems rest
    pure (payload ++ later)

def writeEntries : List (String × Nbt) → Except ProtocolError Bytes
  | [] => pure []
  | (name, value) :: rest => do
    let nameBytes ← writeNbtString name
    let payload ← writePayload value
    let later ← writeEntries rest
    pure (putU8 value.tagId ++ (nameBytes ++ payload) ++ later)

end

/-- `Nbt::encode` -/
def encode (value : Nbt) : Except ProtocolError Bytes := do
  let payload ← value.writePayload
  pure (putU8 value.tagId ++ payload)

end Write

end Nbt

end MineRider.Model.Protocol
