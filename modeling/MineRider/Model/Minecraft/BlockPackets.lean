import MineRider.Model.Codegen.Bitfield
import MineRider.Model.Minecraft.World
import MineRider.Model.Protocol.Codecs

/-! # Block positions on the wire

The generated code of the packed position, and of the packets that carry it. The expressions stand here as
they do in the generated file; that they are what the generator emits for the layout of the protocol
description is checked below. A packed coordinate is read to `none` only where its code does not compile.
-/

namespace MineRider.Model.Minecraft

open Machine.Words Codegen Protocol PacketReader PacketWriter

section Packed

/-- `((self.name as i64 & mask) as u64)` -/
def packedField (name : String) (mask : ℕ) : Expr Var := .cast (.mask (.cast (.var (.self name)) .i64) mask) .u64

/-- `(((masked) as i64) << k >> k) as type` -/
def extendedField (masked : Expr Var) (k : ℕ) (type : IntType) : Expr Var :=
  .cast (.shr (.shl (.cast masked .i64) k) k) type

/-- `Encode` and `Decode` of `Position` in the generated `types.rs`. -/
def positionCode : BitfieldCode where
  fields := [("x", .int .i32), ("z", .int .i32), ("y", .int .i16)]
  backing := .u64
  raw := some (.or (.or (.shl (packedField "x" 0x3ffffff) 38) (.shl (packedField "z" 0x3ffffff) 12))
    (packedField "y" 0xfff))
  exprs := [("x", extendedField (.mask (.shr (.var .raw) 38) 0x3ffffff) 38 .i32),
    ("z", extendedField (.mask (.shr (.var .raw) 12) 0x3ffffff) 38 .i32),
    ("y", extendedField (.mask (.var .raw) 0xfff) 52 .i16)]

/-- The layout of `position` in the protocol description. -/
def positionMembers : List BitfieldMember := [⟨"x", 26, true⟩, ⟨"z", 26, true⟩, ⟨"y", 12, true⟩]

theorem positionCode_emitted : emitBitfield id positionMembers = positionCode := by decide

/-- The integer in a field of a struct. -/
def intField (record : Record) (name : String) : Option ℤ :=
  match record.lookup name with
  | some (.int _ v) => some v
  | _ => none

namespace Position

def record (p : Position) : Record :=
  [("x", .int .i32 p.x.toInt), ("z", .int .i32 p.z.toInt), ("y", .int .i16 p.y.toInt)]

def ofRecord (record : Record) : Option Position := do
  return ⟨.ofInt (← intField record "x"), .ofInt (← intField record "z"), .ofInt (← intField record "y")⟩

def encode (p : Position) : Option Bytes := positionCode.encode p.record

def decode : PacketReader (Option Position) := do
  let fields ← positionCode.decode
  pure (fields.bind ofRecord)

end Position

end Packed

section Serverbound

structure PacketBlockDig where
  status : Int32
  location : Position
  face : Int8
  sequence : Int32
deriving DecidableEq, Repr

def PacketBlockDig.encode (p : PacketBlockDig) : Option Bytes := do
  let location ← p.location.encode
  return writeVarint p.status ++ location ++ putI8 p.face ++ writeVarint p.sequence

def PacketBlockDig.decode : PacketReader (Option PacketBlockDig) := do
  let status ← readVarint
  let location ← Position.decode
  let face ← getI8
  let sequence ← readVarint
  pure (location.map fun location => ⟨status, location, face, sequence⟩)

/-- Cursors are bit patterns. -/
structure PacketBlockPlace where
  hand : Int32
  location : Position
  direction : Int32
  cursorX : UInt32
  cursorY : UInt32
  cursorZ : UInt32
  insideBlock : Bool
  worldBorderHit : Bool
  sequence : Int32
deriving DecidableEq, Repr

def PacketBlockPlace.encode (p : PacketBlockPlace) : Option Bytes := do
  let location ← p.location.encode
  return writeVarint p.hand ++ location ++ writeVarint p.direction ++ putF32 p.cursorX ++
    putF32 p.cursorY ++ putF32 p.cursorZ ++ putBool p.insideBlock ++
    putBool p.worldBorderHit ++ writeVarint p.sequence

def PacketBlockPlace.decode : PacketReader (Option PacketBlockPlace) := do
  let hand ← readVarint
  let location ← Position.decode
  let direction ← readVarint
  let cursorX ← getF32
  let cursorY ← getF32
  let cursorZ ← getF32
  let insideBlock ← getBool
  let worldBorderHit ← getBool
  let sequence ← readVarint
  pure (location.map fun location =>
    ⟨hand, location, direction, cursorX, cursorY, cursorZ, insideBlock, worldBorderHit, sequence⟩)

end Serverbound

end MineRider.Model.Minecraft
