import MineRider.Machine.Words
import MineRider.Model.Protocol.Nbt
import MineRider.Model.Protocol.VarInt

/-! # Strings, identifiers and the codecs of composite values

The length-prefixed reads and writes of the packet buffers, the `Encode` and `Decode` instances of the container
types over an arbitrary element, registry holders, and the two list types of generated code that carry their end in
their elements. An encoder returns the bytes it appends. Where the source adds one to a 32-bit number, `none`
stands for the overflow.
-/

namespace MineRider.Model.Protocol

open Machine Machine.Words PacketReader
open Nbt (stringBytes)

section Strings

def maxStringChars : ℕ := 32767

def stringTooLong (s : String) : ProtocolError :=
  .invalidString s!"string too long: {s.length} chars (max {maxStringChars})"

def putString (s : String) : Except ProtocolError Bytes :=
  if s.length > maxStringChars then .error (stringTooLong s)
  else .ok (writeVarint (Int32.ofNat (stringBytes s).length) ++ stringBytes s)

def readString : PacketReader String := do
  let len ← readVarint
  if ¬ (0 ≤ len ∧ len ≤ Int32.ofNat (maxStringChars * 4)) then
    throw (.invalidString s!"string byte length {len} out of bounds")
  else do
    let bytes ← readBytes len.toNatClampNeg
    match String.fromUTF8? ⟨bytes.toArray⟩ with
    | none => throw .invalidUtf8
    | some s => if s.length > maxStringChars then throw (stringTooLong s) else pure s

end Strings

section Identifiers

/-- `is_ascii_lowercase`, `is_ascii_digit`, `.`, `_` or `-` -/
def namespaceByte (b : UInt8) : Bool :=
  (97 ≤ b && b ≤ 122) || (48 ≤ b && b ≤ 57) || b == 46 || b == 95 || b == 45

def isValidNamespace (s : String) : Bool := s ≠ "" && (stringBytes s).all namespaceByte

def isValidPath (s : String) : Bool := s ≠ "" && (stringBytes s).all fun b => namespaceByte b || b == 47

/-- The checks that reading and writing share. -/
def validateIdentifier (ns path : String) : Except ProtocolError Unit :=
  if ¬ isValidNamespace ns then .error (.invalidIdentifier s!"invalid namespace {ns.quote} (allowed: [a-z0-9._-])")
  else if ¬ isValidPath path then .error (.invalidIdentifier s!"invalid path {path.quote} (allowed: [a-z0-9/._-])")
  else .ok ()

def putIdentifier (ns path : String) : Except ProtocolError Bytes := do
  validateIdentifier ns path
  putString (ns ++ ":" ++ path)

/-- `split_once(':')` -/
def splitOnce (s : String) : Option (String × String) :=
  match s.toList.dropWhile (· != ':') with
  | [] => none
  | _ :: path => some (String.ofList (s.toList.takeWhile (· != ':')), String.ofList path)

def readIdentifier : PacketReader String := do
  let raw ← readString
  let (ns, path) := (splitOnce raw).getD ("minecraft", raw)
  match validateIdentifier ns path with
  | .error e => throw e
  | .ok () => pure (ns ++ ":" ++ path)

end Identifiers

/-- `Encode` and `Decode` of a type. -/
structure Codec (α : Type) where
  encode : α → Except ProtocolError Bytes
  decode : PacketReader α

variable {α β : Type}

section Containers

def putBool (b : Bool) : Bytes := PacketWriter.putU8 (if b then 1 else 0)

def getBool : PacketReader Bool := do return (← getU8) ≠ 0

/-- The elements of a declared count, each of which takes at least a byte. -/
def readCount (read : PacketReader α) (count : ℕ) : PacketReader (List α) := do
  let remaining ← remaining
  if count > remaining then throw (.bufferUnderflow count remaining)
  else Reader.times read count

def readArray (read : PacketReader α) : PacketReader (List α) := do
  let len ← readVarint
  if len < 0 then throw (.negativeLength len)
  else readCount read len.toNatClampNeg

def readOption (read : PacketReader α) : PacketReader (Option α) := do
  if ← getBool then some <$> read else pure none

namespace Codec

/-- The types `impl_fixed` covers. -/
def fixed (kind : FixedInt α) : Codec α where
  encode v := .ok (kind.put v)
  decode := kind.get

/-- The elements of a list, one after the other. -/
def encodeAll (c : Codec α) : List α → Except ProtocolError Bytes
  | [] => .ok []
  | a :: rest => do
      let first ← c.encode a
      let later ← c.encodeAll rest
      return first ++ later

def vec (c : Codec α) : Codec (List α) where
  encode items := do return writeVarint (Int32.ofNat items.length) ++ (← c.encodeAll items)
  decode := readArray c.decode

def option (c : Codec α) : Codec (Option α) where
  encode
    | none => .ok (putBool false)
    | some a => do return putBool true ++ (← c.encode a)
  decode := readOption c.decode

/-- A box holds its value. -/
def box (c : Codec α) : Codec α where
  encode a := c.encode a
  decode := do return (← c.decode)

end Codec

end Containers

section Holders

inductive Holder (α : Type) where
  | reference (id : Int32)
  | inline (value : α)
deriving DecidableEq, Repr

def Holder.encode (c : Codec α) : Holder α → Option (Except ProtocolError Bytes)
  | .reference id =>
    if id < 0 then some (.error (.invalidData s!"holder reference id {id} is negative"))
    else (checked (id.toInt + 1)).map fun n => .ok (writeVarint n)
  | .inline value => some do return writeVarint 0 ++ (← c.encode value)

def Holder.decode (c : Codec α) : PacketReader (Holder α) := do
  let n ← readVarint
  if n < 0 then throw (.negativeLength n)
  else if n = 0 then Holder.inline <$> c.decode
  else pure (.reference (n - 1))

inductive HolderSet where
  | tag (name : String)
  | ids (ids : List Int32)
deriving DecidableEq, Repr

def HolderSet.encode : HolderSet → Option (Except ProtocolError Bytes)
  | .tag name => some do return writeVarint 0 ++ (← putString name)
  | .ids list => (checked ((Int32.ofNat list.length).toInt + 1)).map fun n =>
    .ok (writeVarint n ++ list.flatMap writeVarint)

def HolderSet.decode : PacketReader HolderSet := do
  let n ← readVarint
  if n < 0 then throw (.negativeLength n)
  else if n = 0 then HolderSet.tag <$> readString
  else HolderSet.ids <$> readCount readVarint (n - 1).toNatClampNeg

end Holders

end MineRider.Model.Protocol
