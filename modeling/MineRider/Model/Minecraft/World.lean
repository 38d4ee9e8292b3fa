import MineRider.Model.Minecraft.SharedStore

/-! # A client's world

A world holds the loaded chunks of one dimension by position. Every update first computes the next
snapshot of one chunk from the current one, then interns it, if the world is attached to a shared
store, and only then replaces the chunk. Coordinates are 32-bit and wrap as in an optimised build;
the chunk and the local position of a block are the Euclidean quotient and remainder by sixteen.
-/

namespace MineRider.Model.Minecraft

open Model.Core Model.Protocol

/-- The bounds of a dimension; the other fields of `DimensionType` are not read by a world. -/
structure DimensionType where
  minY : Int32
  height : Int32
deriving DecidableEq, Repr

/-- `div_euclid(16)` -/
def chunkCoordinate (x : Int32) : Int32 := Int32.ofInt (x.toInt / 16)

/-- `rem_euclid(16)` -/
def localCoordinate (x : Int32) : ℕ := (x.toInt % 16).toNat

/-- The cast of an `i32` to `usize`, which extends the sign. -/
def asUsize (x : Int32) : ℕ := x.toInt64.toUInt64.toNat

def DimensionType.sectionCount (dimension : DimensionType) : ℕ := asUsize (dimension.height / 16)

/-- The test of `store_registry` on the bounds of a dimension type. -/
def DimensionType.validBounds (dimension : DimensionType) : Bool :=
  !(dimension.height ≤ 0 || dimension.height % 16 != 0 || dimension.minY % 16 != 0 ||
    !(1 ≤ dimension.sectionCount && dimension.sectionCount ≤ 256))

/-- The index of a block inside its section. -/
def blockIndex (x y z : Int32) : ℕ := (localCoordinate y * 16 + localCoordinate z) * 16 + localCoordinate x

abbrev ChunkPosition := Int32 × Int32

/-- `shared` is the scope under which the world is attached to the store, if it is. -/
structure World where
  dimension : DimensionType
  chunks : AList fun _ : ChunkPosition => Arc ChunkSnapshot
  shared : Option WorldScope

section Packets

structure Position where
  x : Int32
  z : Int32
  y : Int16
deriving DecidableEq, Repr

structure PacketUnloadChunk where
  chunkZ : Int32
  chunkX : Int32
deriving DecidableEq, Repr

structure PacketBlockChange where
  location : Position
  type : Int32
deriving DecidableEq, Repr

structure ChunkCoordinates where
  x : Int32
  z : Int32
  y : Int32
deriving DecidableEq, Repr

structure PacketMultiBlockChange where
  chunkCoordinates : ChunkCoordinates
  records : List Int32
deriving DecidableEq, Repr

structure PacketUpdateLight where
  chunkX : Int32
  chunkZ : Int32
  light : ChunkLight
deriving DecidableEq, Repr

structure PacketTileEntityData where
  location : Position
  action : Int32
  nbtData : Option Nbt
deriving Repr

end Packets

namespace World

variable {limits : Limits}

def new (dimension : DimensionType) : World := ⟨dimension, ∅, none⟩

def withSharedStore (dimension : DimensionType) (scope : WorldScope) : World := ⟨dimension, ∅, some scope⟩

section Queries

def hasChunk (world : World) (x z : Int32) : Bool := (world.chunks.lookup (x, z)).isSome

def blockState (world : World) (x y z : Int32) : Option UInt32 :=
  if y < world.dimension.minY ∨ y ≥ world.dimension.minY + world.dimension.height then none
  else do
    let chunk ← world.chunks.lookup (chunkCoordinate x, chunkCoordinate z)
    let sec ← chunk.payload.sections[asUsize (chunkCoordinate (y - world.dimension.minY))]?
    sec.blockStates.get (blockIndex x y z)

end Queries

section Next

/-! What a chunk becomes, before it is interned. -/

def nextBlock (dimension : DimensionType) (current : Option ChunkSnapshot) (x y z : Int32) (state : UInt32) :
    Except MineRiderError ChunkSnapshot :=
  match current with
  | none => .error (.protocol s!"block update for unloaded chunk at {x},{z}")
  | some current =>
    let sectionIndex := chunkCoordinate (y - dimension.minY)
    if sectionIndex < 0 then .error (.protocol s!"block update y {y} outside dimension")
    else
      match current.sections[asUsize sectionIndex]? with
      | none => .error (.protocol s!"block update y {y} outside dimension")
      | some sec => do
        let blockStates ← sec.blockStates.materializeAndSet blocksPerSection (blockIndex x y z) state
        pure { current with sections := current.sections.set (asUsize sectionIndex) { sec with blockStates } }

def nextLight (current : Option ChunkSnapshot) (packet : PacketUpdateLight) : Except MineRiderError ChunkSnapshot :=
  match current with
  | none => .error (.protocol s!"light update for unloaded chunk at {packet.chunkX},{packet.chunkZ}")
  | some current => .ok { current with light := packet.light }

/-- The block entities after an update: one entity at most stands at the updated place first. -/
def nextEntities (entities : List BlockEntitySnapshot) (packet : PacketTileEntityData) : List BlockEntitySnapshot :=
  let localX := UInt8.ofNat (localCoordinate packet.location.x)
  let localZ := UInt8.ofNat (localCoordinate packet.location.z)
  let existing := entities.findIdx? fun entity =>
    entity.localX == localX && entity.localZ == localZ && entity.y == packet.location.y
  match packet.nbtData, existing with
  | some nbt, some index => entities.set index ⟨localX, localZ, packet.location.y, packet.action, some nbt⟩
  | some nbt, none => entities ++ [⟨localX, localZ, packet.location.y, packet.action, some nbt⟩]
  | none, some index => entities.eraseIdx index
  | none, none => entities

def nextBlockEntity (current : Option ChunkSnapshot) (packet : PacketTileEntityData) :
    Except MineRiderError ChunkSnapshot :=
  match current with
  | none => .error (.protocol
      s!"block entity update for unloaded chunk at {packet.location.x},{packet.location.z}")
  | some current => .ok { current with blockEntities := nextEntities current.blockEntities packet }

end Next

section Updates

def intern (hash : Bytes → UInt64) (heap : Heap limits) (world : World) (chunk : ChunkSnapshot) :
    Except MineRiderError (Arc ChunkSnapshot × Heap limits) :=
  match world.shared with
  | some scope => heap.intern hash scope chunk
  | none => .ok (heap.alloc chunk)

/-- A failed update leaves the world and the store as they were. -/
structure Updated (limits : Limits) where
  result : Except MineRiderError Unit
  world : World
  heap : Heap limits

/-- The common end of every update: intern the next snapshot, then replace the chunk. -/
def install (hash : Bytes → UInt64) (heap : Heap limits) (world : World) (position : ChunkPosition)
    (next : Except MineRiderError ChunkSnapshot) : Updated limits :=
  match next.bind (world.intern hash heap) with
  | .error e => ⟨.error e, world, heap⟩
  | .ok (chunk, heap) => ⟨.ok (), { world with chunks := world.chunks.insert position chunk }, heap⟩

/-- The payload stored at a position. -/
def payload (world : World) (position : ChunkPosition) : Option ChunkSnapshot :=
  (world.chunks.lookup position).map Arc.payload

def insertChunk (hash : Bytes → UInt64) (heap : Heap limits) (world : World) (packet : PacketMapChunk) :
    Updated limits :=
  -- the decoded chunk's position is the packet's
  world.install hash heap (packet.x, packet.z) (ChunkSnapshot.decode packet world.dimension.sectionCount)

def unloadChunk (world : World) (packet : PacketUnloadChunk) : World :=
  { world with chunks := world.chunks.erase (packet.chunkX, packet.chunkZ) }

def setBlockState (hash : Bytes → UInt64) (heap : Heap limits) (world : World) (x y z : Int32) (state : UInt32) :
    Updated limits :=
  let position := (chunkCoordinate x, chunkCoordinate z)
  world.install hash heap position (nextBlock world.dimension (world.payload position) x y z state)

def applyBlockChange (hash : Bytes → UInt64) (heap : Heap limits) (world : World) (packet : PacketBlockChange) :
    Updated limits :=
  world.setBlockState hash heap packet.location.x packet.location.y.toInt32 packet.location.z
    packet.type.toUInt32

/-- One turn of the loop of `apply_multi_block_change`. -/
def applyRecord (hash : Bytes → UInt64) (heap : Heap limits) (world : World) (at_ : ChunkCoordinates)
    (record : Int32) : Updated limits :=
  if record < 0 then ⟨.error (.protocol s!"negative multi-block record {record}"), world, heap⟩
  else
    let record := record.toUInt32
    let state := record >>> 12
    let position := record &&& 0xfff
    let localX := (position >>> 8) &&& 0xf
    let localZ := (position >>> 4) &&& 0xf
    let x := at_.x * 16 + localX.toInt32
    let z := at_.z * 16 + localZ.toInt32
    let y := at_.y * 16 + (position &&& 0xf).toInt32
    world.setBlockState hash heap x y z state

/-- The records take effect one after the other; the first failure ends the loop. -/
def applyRecords (hash : Bytes → UInt64) (heap : Heap limits) (world : World) (at_ : ChunkCoordinates) :
    List Int32 → Updated limits
  | [] => ⟨.ok (), world, heap⟩
  | record :: rest =>
    let first := world.applyRecord hash heap at_ record
    match first.result with
    | .error e => ⟨.error e, first.world, first.heap⟩
    | .ok () => applyRecords hash first.heap first.world at_ rest

def applyMultiBlockChange (hash : Bytes → UInt64) (heap : Heap limits) (world : World)
    (packet : PacketMultiBlockChange) : Updated limits :=
  world.applyRecords hash heap packet.chunkCoordinates packet.records

def applyLightUpdate (hash : Bytes → UInt64) (heap : Heap limits) (world : World) (packet : PacketUpdateLight) :
    Updated limits :=
  let position := (packet.chunkX, packet.chunkZ)
  world.install hash heap position (nextLight (world.payload position) packet)

def applyBlockEntityUpdate (hash : Bytes → UInt64) (heap : Heap limits) (world : World)
    (packet : PacketTileEntityData) : Updated limits :=
  let position := (chunkCoordinate packet.location.x, chunkCoordinate packet.location.z)
  world.install hash heap position (nextBlockEntity (world.payload position) packet)

end Updates

end World

end MineRider.Model.Minecraft
