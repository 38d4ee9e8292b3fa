import Mathlib.Logic.Function.Basic
import MineRider.Machine.InsertionOrder
import MineRider.Model.Minecraft.Snapshot

/-! # The bounded weak interning store

Equal snapshots of one server, world and dimension are shared behind one reference count. The store
only holds weak references: an entry whose last owner is gone is dead, and can no longer be handed
out. A fingerprint selects a bucket, and full equality decides inside it. A reference is its
identity together with the payload it was created with, which nothing can change; which identities
are alive is an input of every operation.
-/

namespace MineRider.Model.Minecraft

open Model.Core Model.Protocol

/-- A reference-counted payload; `Arc` and `Weak` of one allocation are the same reference. -/
structure Arc (α : Type) where
  id : ℕ
  payload : α

structure ServerIdentity where
  host : String
  port : UInt16
deriving DecidableEq, Repr

structure WorldIdentity where
  name : String
  hashedSeed : Int64
deriving DecidableEq, Repr

structure DimensionIdentity where
  key : String
  minY : Int32
  height : Int32
  logicalHeight : Int32
  coordinateScaleBits : UInt64
  ultrawarm : Bool
  hasCeiling : Bool
deriving DecidableEq, Repr

structure WorldScope where
  server : ServerIdentity
  world : WorldIdentity
  dimension : DimensionIdentity
deriving DecidableEq, Repr

structure InternKey where
  scope : WorldScope
  x : Int32
  z : Int32
  fingerprint : UInt64
deriving DecidableEq, Repr

abbrev Bucket := List (Arc ChunkSnapshot)

structure StoreShard where
  entries : AList fun _ : InternKey => Bucket
  insertionOrder : List InternKey

/-- The limits are those `with_limits` asserts. -/
structure Limits where
  shards : ℕ
  maxKeysPerShard : ℕ
  maxCollisionsPerKey : ℕ
  shards_pos : 0 < shards
  maxKeysPerShard_pos : 0 < maxKeysPerShard
  maxCollisionsPerKey_pos : 0 < maxCollisionsPerKey

theorem defaultShards_pos : 0 < 16 := by decide

/-- `SharedChunkStore::new` -/
def Limits.default : Limits := ⟨16, 4096, 8, defaultShards_pos, by decide, by decide⟩

structure SharedChunkStore (limits : Limits) where
  shards : Fin limits.shards → StoreShard
  evictions : UInt64
  uncachedCollisionPayloads : UInt64

def rotateLeft (value : UInt64) (by_ : UInt64) : UInt64 := (value <<< by_) ||| (value >>> (64 - by_))

namespace StoreShard

def empty : StoreShard := ⟨∅, []⟩

/-- The eviction loop: while the map is full, the oldest key leaves. Returns the number of keys it
found in the map. -/
def evict (maxKeys : ℕ) (entries : AList fun _ : InternKey => Bucket) :
    List InternKey → StoreShard × UInt64
  | [] => (⟨entries, []⟩, 0)
  | oldest :: rest =>
    if maxKeys ≤ entries.keys.length then
      let (shard, evicted) := evict maxKeys (entries.erase oldest) rest
      (shard, if oldest ∈ entries then evicted + 1 else evicted)
    else (⟨entries, oldest :: rest⟩, 0)

/-- A bucket without its dead references. -/
def liveOnly (live : ℕ → Bool) (bucket : Bucket) : Bucket := bucket.filter fun entry => live entry.id

/-- One shard's part of `prune`. -/
def prune (live : ℕ → Bool) (shard : StoreShard) : StoreShard :=
  let entries := shard.entries.retainValues fun _ bucket =>
    if liveOnly live bucket = [] then none else some (liveOnly live bucket)
  ⟨entries, shard.insertionOrder.filter fun key => decide (key ∈ entries)⟩

end StoreShard

namespace SharedChunkStore

variable {limits : Limits}

def withLimits (limits : Limits) : SharedChunkStore limits := ⟨fun _ => .empty, 0, 0⟩

def shardIndex (limits : Limits) (key : InternKey) : Fin limits.shards :=
  let mixed := key.fingerprint ^^^ rotateLeft key.x.toUInt32.toUInt64 17 ^^^
    rotateLeft key.z.toUInt32.toUInt64 37 ^^^
    rotateLeft key.scope.world.hashedSeed.toUInt64 7 ^^^ key.scope.server.port.toUInt64
  ⟨mixed.toNat % limits.shards, Nat.mod_lt _ limits.shards_pos⟩

def setShard (store : SharedChunkStore limits) (i : Fin limits.shards) (shard : StoreShard) :
    SharedChunkStore limits :=
  { store with shards := Function.update store.shards i shard }

/-- `intern_with_fingerprint`; a payload that is not shared becomes the reference `fresh`. -/
def internWithFingerprint (store : SharedChunkStore limits) (live : ℕ → Bool) (fresh : ℕ)
    (scope : WorldScope) (snapshot : ChunkSnapshot) (fingerprint : UInt64) :
    Arc ChunkSnapshot × SharedChunkStore limits :=
  let key : InternKey := ⟨scope, snapshot.x, snapshot.z, fingerprint⟩
  let i := shardIndex limits key
  let shard := store.shards i
  match shard.entries.lookup key with
  | some bucket =>
    let bucket := StoreShard.liveOnly live bucket
    match bucket.find? fun candidate => candidate.payload.eq snapshot with
    | some candidate =>
      (candidate, store.setShard i { shard with entries := shard.entries.insert key bucket })
    | none =>
      if bucket.length < limits.maxCollisionsPerKey then
        (⟨fresh, snapshot⟩, store.setShard i
          { shard with entries := shard.entries.insert key (bucket ++ [⟨fresh, snapshot⟩]) })
      else
        (⟨fresh, snapshot⟩,
          { store.setShard i { shard with entries := shard.entries.insert key bucket } with
            uncachedCollisionPayloads := store.uncachedCollisionPayloads + 1 })
  | none =>
    let (shard, evicted) := StoreShard.evict limits.maxKeysPerShard shard.entries shard.insertionOrder
    (⟨fresh, snapshot⟩,
      { store.setShard i
          ⟨shard.entries.insert key [⟨fresh, snapshot⟩], shard.insertionOrder ++ [key]⟩ with
        evictions := store.evictions + evicted })

/-- `intern`, with `fnv64` for `hash` in the source. -/
def intern (hash : Bytes → UInt64) (store : SharedChunkStore limits) (live : ℕ → Bool) (fresh : ℕ)
    (scope : WorldScope) (snapshot : ChunkSnapshot) :
    Except MineRiderError (Arc ChunkSnapshot × SharedChunkStore limits) := do
  let fingerprint ← snapshot.fingerprint hash
  pure (store.internWithFingerprint live fresh scope snapshot fingerprint)

def prune (store : SharedChunkStore limits) (live : ℕ → Bool) : SharedChunkStore limits :=
  { store with shards := fun i => (store.shards i).prune live }

end SharedChunkStore

/-- A store together with the reference counts: which payloads still have an owner. Identities from
`fresh` on are unused. -/
structure Heap (limits : Limits) where
  store : SharedChunkStore limits
  live : ℕ → Bool
  fresh : ℕ

namespace Heap

variable {limits : Limits}

def withLimits (limits : Limits) : Heap limits := ⟨.withLimits limits, fun _ => false, 0⟩

/-- Whoever receives a reference is an owner of it. -/
def receive (heap : Heap limits) (arc : Arc ChunkSnapshot) (store : SharedChunkStore limits) :
    Arc ChunkSnapshot × Heap limits :=
  (arc, ⟨store, Function.update heap.live arc.id true, heap.fresh + 1⟩)

/-- `Arc::new` -/
def alloc (heap : Heap limits) (snapshot : ChunkSnapshot) : Arc ChunkSnapshot × Heap limits :=
  heap.receive ⟨heap.fresh, snapshot⟩ heap.store

def intern (hash : Bytes → UInt64) (heap : Heap limits) (scope : WorldScope) (snapshot : ChunkSnapshot) :
    Except MineRiderError (Arc ChunkSnapshot × Heap limits) := do
  let (arc, store) ← heap.store.intern hash heap.live heap.fresh scope snapshot
  pure (heap.receive arc store)

def prune (heap : Heap limits) : Heap limits := { heap with store := heap.store.prune heap.live }

/-- The last owner of a payload goes away. -/
def drop (heap : Heap limits) (id : ℕ) : Heap limits := { heap with live := Function.update heap.live id false }

end Heap

end MineRider.Model.Minecraft
