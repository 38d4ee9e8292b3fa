import MineRider.Model.Protocol.NbtEq
import MineRider.Model.Minecraft.Chunk

/-! # Immutable chunk snapshots

A snapshot is everything a client retains of a chunk. The source shares its parts behind further
reference counts, which no operation observes, so the parts are plain values here. Two snapshots
are compared with the derived equality of the source, a partial equivalence. The fingerprint hashes
a canonical byte string of the snapshot; the hash itself is a parameter, with the source's as
`fnv64`.
-/

namespace MineRider.Model.Minecraft

open Model.Core Model.Protocol Machine

structure BlockEntitySnapshot where
  localX : UInt8
  localZ : UInt8
  y : Int16
  kind : Int32
  nbt : Option Nbt
deriving Repr

structure ChunkLight where
  skyMask : List Int64
  blockMask : List Int64
  emptySkyMask : List Int64
  emptyBlockMask : List Int64
  skyArrays : List Bytes
  blockArrays : List Bytes
deriving DecidableEq, Repr

structure ChunkSnapshot where
  x : Int32
  z : Int32
  sections : List ChunkSection
  heightmaps : Nbt
  blockEntities : List BlockEntitySnapshot
  light : ChunkLight
deriving Repr

section Equality

def BlockEntitySnapshot.eq (a b : BlockEntitySnapshot) : Bool :=
  a.localX == b.localX && a.localZ == b.localZ && a.y == b.y && a.kind == b.kind &&
    optionEq Nbt.eq a.nbt b.nbt

/-- The derived `PartialEq` of `ChunkSnapshot`. -/
def ChunkSnapshot.eq (a b : ChunkSnapshot) : Bool :=
  a.x == b.x && a.z == b.z && a.sections == b.sections && a.heightmaps.eq b.heightmaps &&
    a.blockEntities.isEqv b.blockEntities BlockEntitySnapshot.eq && a.light == b.light

theorem BlockEntitySnapshot.eq_partial : PartialEq BlockEntitySnapshot.eq :=
  ((((PartialEq.beq.comap localX).and (PartialEq.beq.comap localZ)).and (PartialEq.beq.comap y)).and
    (PartialEq.beq.comap kind)).and (Nbt.eq_partial.option.comap nbt)

theorem ChunkSnapshot.eq_partial : PartialEq ChunkSnapshot.eq :=
  (((((PartialEq.beq.comap x).and (PartialEq.beq.comap z)).and (PartialEq.beq.comap sections)).and
    (Nbt.eq_partial.comap heightmaps)).and (BlockEntitySnapshot.eq_partial.list.comap blockEntities)).and
    (PartialEq.beq.comap light)

end Equality

section Packets

structure ChunkBlockEntity where
  x : UInt8
  z : UInt8
  y : Int16
  type : Int32
  nbtData : Option Nbt
deriving Repr

structure PacketMapChunk where
  x : Int32
  z : Int32
  heightmaps : Nbt
  chunkData : Bytes
  blockEntities : List ChunkBlockEntity
  light : ChunkLight
deriving Repr

/-- `ChunkSnapshot::decode`; the packet's six light fields arrive as one record. -/
def ChunkSnapshot.decode (packet : PacketMapChunk) (sectionCount : ℕ) :
    Except MineRiderError ChunkSnapshot := do
  let sections ← decodeSections packet.chunkData sectionCount
  pure {
    x := packet.x
    z := packet.z
    sections := sections
    heightmaps := packet.heightmaps
    blockEntities := packet.blockEntities.map fun entity =>
      ⟨entity.x, entity.z, entity.y, entity.type, entity.nbtData⟩
    light := packet.light }

end Packets

section Fingerprint

/-- `to_le_bytes` at the given width. -/
def toLe (width n : ℕ) : Bytes := (toBe width n).reverse

def lenBytes (n : ℕ) : Bytes := toLe 8 n

def containerBytes : PalettedContainer → Bytes
  | .single value => [0] ++ toLe 4 value.toNat
  | .indirect bits palette data =>
    [1, bits] ++ lenBytes palette.length ++ palette.flatMap (fun v => toLe 4 v.toNat) ++
      lenBytes data.length ++ data.flatMap (fun v => toLe 8 v.toNat)
  | .direct bits data => [2, bits] ++ lenBytes data.length ++ data.flatMap (fun v => toLe 8 v.toNat)

def sectionBytes (s : ChunkSection) : Bytes :=
  toLe 2 s.nonAirBlocks.toNat ++ containerBytes s.blockStates ++ containerBytes s.biomes

/-- The encoded value behind its length; an NBT value that cannot be encoded has no fingerprint. -/
def nbtBytes (nbt : Nbt) : Except MineRiderError Bytes :=
  match nbt.encode with
  | .error e => .error (.wire e)
  | .ok encoded => .ok (lenBytes encoded.length ++ encoded)

def entityBytes (entity : BlockEntitySnapshot) : Except MineRiderError Bytes := do
  let position := [entity.localX, entity.localZ] ++ toLe 2 entity.y.toUInt16.toNat ++
    toLe 4 entity.kind.toUInt32.toNat
  match entity.nbt with
  | some nbt => do
    let encoded ← nbtBytes nbt
    pure (position ++ [1] ++ encoded)
  | none => pure (position ++ [0])

def entitiesBytes : List BlockEntitySnapshot → Except MineRiderError Bytes
  | [] => pure []
  | entity :: rest => do
    let first ← entityBytes entity
    let later ← entitiesBytes rest
    pure (first ++ later)

def i64sBytes (values : List Int64) : Bytes :=
  lenBytes values.length ++ values.flatMap (fun v => toLe 8 v.toUInt64.toNat)

def byteArraysBytes (arrays : List Bytes) : Bytes :=
  lenBytes arrays.length ++ arrays.flatMap (fun array => lenBytes array.length ++ array)

def lightBytes (light : ChunkLight) : Bytes :=
  i64sBytes light.skyMask ++ i64sBytes light.blockMask ++ i64sBytes light.emptySkyMask ++
    i64sBytes light.emptyBlockMask ++ byteArraysBytes light.skyArrays ++ byteArraysBytes light.blockArrays

/-- Everything `fingerprint` writes to its hash, in order. -/
def ChunkSnapshot.fingerprintBytes (s : ChunkSnapshot) : Except MineRiderError Bytes := do
  let heightmaps ← nbtBytes s.heightmaps
  let entities ← entitiesBytes s.blockEntities
  pure (toLe 4 s.x.toUInt32.toNat ++ toLe 4 s.z.toUInt32.toNat ++ lenBytes s.sections.length ++
    s.sections.flatMap sectionBytes ++ heightmaps ++ lenBytes s.blockEntities.length ++ entities ++
    lightBytes s.light)

/-- The 64-bit FNV-1a hash. -/
def fnv64 (bytes : Bytes) : UInt64 :=
  bytes.foldl (fun hash byte => (hash ^^^ byte.toUInt64) * 0x100000001b3) 0xcbf29ce484222325

/-- `fingerprint`, with `fnv64` for `hash` in the source. -/
def ChunkSnapshot.fingerprint (hash : Bytes → UInt64) (s : ChunkSnapshot) : Except MineRiderError UInt64 := do
  let bytes ← s.fingerprintBytes
  pure (hash bytes)

end Fingerprint

end MineRider.Model.Minecraft
