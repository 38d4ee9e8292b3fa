import MineRider.Model.Minecraft.World
import MineRider.Soundness.NbtCodec
import MineRider.Soundness.SharedStore
import MineRider.ToMathlib.AListUpdate

/-! # Sharing chunks is not observable

Any number of clients share one store. Each takes its packets in order, and everything else is
interleaved freely: other clients run between any two of its packets, and between any two records of
one multi-block change; clients join and leave, payloads lose their owners, the store evicts and
prunes, and fingerprints collide as they like. Against it stands one unshared world per client, which
is fed that client's packets alone.

The two are kept equal under the program's own comparison of snapshots. Only the NBT inside a
snapshot can differ then, and only in the sign of a zero, which no operation of a world reads.
-/

namespace MineRider.Soundness.SharedWorld

open List Model.Core Model.Protocol Model.Minecraft Machine SharedStore BlockEntitySnapshot SharedChunkStore

variable {limits : Limits} {hash : Bytes → UInt64}

section Snapshots

/-- An NBT value that was read from the wire. -/
def Decoded (nbt : Nbt) : Prop := ∃ input rest, Nbt.decode.run input = .ok (nbt, rest)

/-- One that holds no NaN. -/
structure FromWire (nbt : Nbt) : Prop where
  decoded : Decoded nbt
  numeric : nbt.noNan = true

/-- What interning needs of the NBT in a snapshot. -/
structure GoodNbt (nbt : Nbt) : Prop where
  encodes : ∃ bytes, nbt.encode = .ok bytes
  equal : nbt.eq nbt = true

structure Good (s : ChunkSnapshot) : Prop where
  heightmaps : GoodNbt s.heightmaps
  entities : ∀ entity ∈ s.blockEntities, ∀ nbt ∈ entity.nbt, GoodNbt nbt

theorem Decoded.encodes {nbt : Nbt} (decoded : Decoded nbt) : ∃ bytes, nbt.encode = .ok bytes := by
  obtain ⟨input, rest, decoded⟩ := decoded
  obtain ⟨used, -, encoded⟩ := NbtCodec.decode_sound input nbt rest decoded
  exact ⟨used, encoded⟩

theorem FromWire.good {nbt : Nbt} (fromWire : FromWire nbt) : GoodNbt nbt :=
  ⟨fromWire.decoded.encodes, Nbt.eq_self fromWire.numeric⟩

private theorem nbtBytes_ok {nbt : Nbt} (encodes : ∃ bytes, nbt.encode = .ok bytes) :
    ∃ bytes, nbtBytes nbt = .ok bytes := by
  obtain ⟨bytes, encoded⟩ := encodes
  rw [nbtBytes, encoded]
  exact ⟨_, rfl⟩

private theorem entityBytes_ok {entity : BlockEntitySnapshot}
    (encode : ∀ nbt ∈ entity.nbt, ∃ bytes, nbt.encode = .ok bytes) : ∃ bytes, entityBytes entity = .ok bytes := by
  rw [entityBytes]
  cases held : entity.nbt with
  | none => exact ⟨_, rfl⟩
  | some nbt =>
    obtain ⟨bytes, written⟩ := nbtBytes_ok (encode nbt held)
    simp only [written]
    exact ⟨_, rfl⟩

private theorem entitiesBytes_ok {entities : List BlockEntitySnapshot}
    (encode : ∀ entity ∈ entities, ∀ nbt ∈ entity.nbt, ∃ bytes, nbt.encode = .ok bytes) :
    ∃ bytes, entitiesBytes entities = .ok bytes := by
  induction entities with
  | nil => exact ⟨_, rfl⟩
  | cons entity rest ih =>
    obtain ⟨first, written⟩ := entityBytes_ok (encode entity mem_cons_self)
    obtain ⟨later, writtenRest⟩ := ih fun other member => encode other (mem_cons_of_mem _ member)
    rw [entitiesBytes, written, writtenRest]
    exact ⟨_, rfl⟩

/-- A snapshot has a fingerprint if its NBT can be encoded. -/
theorem fingerprint_ok {s : ChunkSnapshot} (heightmaps : ∃ bytes, s.heightmaps.encode = .ok bytes)
    (entities : ∀ entity ∈ s.blockEntities, ∀ nbt ∈ entity.nbt, ∃ bytes, nbt.encode = .ok bytes)
    (hash : Bytes → UInt64) : ∃ fingerprint, s.fingerprint hash = .ok fingerprint := by
  obtain ⟨mapsBytes, writtenMaps⟩ := nbtBytes_ok heightmaps
  obtain ⟨entityBytes, writtenEntities⟩ := entitiesBytes_ok entities
  rw [ChunkSnapshot.fingerprint, ChunkSnapshot.fingerprintBytes, writtenMaps, writtenEntities]
  exact ⟨_, rfl⟩

private theorem entity_eq_self {entity : BlockEntitySnapshot} (good : ∀ nbt ∈ entity.nbt, GoodNbt nbt) :
    entity.eq entity = true := by
  cases held : entity.nbt with
  | none => simp [eq, held, optionEq]
  | some nbt => simp [eq, held, optionEq, (good nbt held).equal]

theorem eq_iff {s t : ChunkSnapshot} : s.eq t = true ↔ s.x = t.x ∧ s.z = t.z ∧ s.sections = t.sections ∧
    s.heightmaps.eq t.heightmaps = true ∧
    s.blockEntities.isEqv t.blockEntities eq = true ∧ s.light = t.light := by
  simp only [ChunkSnapshot.eq, Bool.and_eq_true, beq_iff_eq, and_assoc]

theorem Good.eq_self {s : ChunkSnapshot} (good : Good s) : s.eq s = true :=
  eq_iff.mpr ⟨rfl, rfl, rfl, good.heightmaps.equal,
    isEqv_refl fun entity member => entity_eq_self (good.entities entity member), rfl⟩

end Snapshots

section NextSnapshots

/-- The next snapshots of two equal chunks: the same failure, or equal again. -/
inductive SameNext : Except MineRiderError ChunkSnapshot → Except MineRiderError ChunkSnapshot → Prop
  | error (e : MineRiderError) : SameNext (.error e) (.error e)
  | ok {s t : ChunkSnapshot} (good : Good s) (same : s.eq t = true) : SameNext (.ok s) (.ok t)

/-- The same place in two worlds, one of them shared. -/
inductive SameChunk : Option ChunkSnapshot → Option ChunkSnapshot → Prop
  | none : SameChunk none none
  | some {s t : ChunkSnapshot} (good : Good s) (same : s.eq t = true) : SameChunk (some s) (some t)

variable {a b : Option ChunkSnapshot}

private theorem nextBlock_same (same : SameChunk a b) (dimension : DimensionType) (x y z : Int32) (state : UInt32) :
    SameNext (World.nextBlock dimension a x y z state) (World.nextBlock dimension b x y z state) := by
  cases same with
  | none => exact .error _
  | @some s t good same =>
    obtain ⟨sameX, sameZ, sections, heightmaps, entities, light⟩ := eq_iff.mp same
    simp only [World.nextBlock, ← sections]
    split_ifs
    · exact .error _
    · cases s.sections[asUsize (chunkCoordinate (y - dimension.minY))]? with
      | none => exact .error _
      | some sec =>
        cases changed : sec.blockStates.materializeAndSet blocksPerSection (blockIndex x y z) state with
        | error e =>
          simp only [changed]
          exact .error e
        | ok blockStates =>
          simp only [changed]
          exact .ok ⟨good.heightmaps, good.entities⟩
            (eq_iff.mpr ⟨sameX, sameZ, rfl, heightmaps, entities, light⟩)

private theorem nextLight_same (same : SameChunk a b) (packet : PacketUpdateLight) :
    SameNext (World.nextLight a packet) (World.nextLight b packet) := by
  cases same with
  | none => exact .error _
  | some good same =>
    obtain ⟨sameX, sameZ, sections, heightmaps, entities, -⟩ := eq_iff.mp same
    exact .ok ⟨good.heightmaps, good.entities⟩ (eq_iff.mpr ⟨sameX, sameZ, sections, heightmaps, entities, rfl⟩)

private theorem entity_place {e f : BlockEntitySnapshot} (same : e.eq f = true) (localX localZ : UInt8) (y : Int16) :
    (e.localX == localX && e.localZ == localZ && e.y == y) =
      (f.localX == localX && f.localZ == localZ && f.y == y) := by
  simp only [eq, Bool.and_eq_true, beq_iff_eq] at same
  obtain ⟨⟨⟨⟨sameX, sameZ⟩, sameY⟩, -⟩, -⟩ := same
  rw [sameX, sameZ, sameY]

variable {packet : PacketTileEntityData}

/-- An update finds its entity at the same index in both lists and does the same there. -/
theorem nextEntities_same {xs ys : List BlockEntitySnapshot}
    (wire : ∀ nbt ∈ packet.nbtData, GoodNbt nbt) (same : xs.isEqv ys eq = true) :
    (World.nextEntities xs packet).isEqv (World.nextEntities ys packet) eq = true := by
  have index := findIdx?_of_isEqv (p := fun entity =>
    entity.localX == UInt8.ofNat (localCoordinate packet.location.x) &&
      entity.localZ == UInt8.ofNat (localCoordinate packet.location.z) && entity.y == packet.location.y)
    (fun _ _ equal => entity_place equal _ _ _) same
  rw [World.nextEntities, World.nextEntities, index]
  cases held : packet.nbtData with
  | none =>
    cases ys.findIdx? _ with
    | none => exact same
    | some i => exact isEqv_eraseIdx same i
  | some nbt =>
    have equal : ∀ localX localZ, eq
        ⟨localX, localZ, packet.location.y, packet.action, some nbt⟩
        ⟨localX, localZ, packet.location.y, packet.action, some nbt⟩ = true := by
      intro localX localZ
      apply entity_eq_self
      intro other inside
      cases inside
      exact wire nbt held
    cases ys.findIdx? _ with
    | none => exact isEqv_append same (isEqv_refl (by simpa using equal _ _))
    | some i => exact isEqv_set same i (equal _ _)

/-- What holds of the NBT in a chunk and in an update holds of the NBT in the updated chunk. -/
theorem nextEntities_all {good : Nbt → Prop} {entities : List BlockEntitySnapshot}
    (wire : ∀ nbt ∈ packet.nbtData, good nbt)
    (all : ∀ entity ∈ entities, ∀ nbt ∈ entity.nbt, good nbt) :
    ∀ entity ∈ World.nextEntities entities packet, ∀ nbt ∈ entity.nbt, good nbt := by
  intro entity member nbt inside
  rw [World.nextEntities] at member
  cases held : packet.nbtData with
  | none =>
    rw [held] at member
    cases found : entities.findIdx? _ with
    | none =>
      rw [found] at member
      exact all entity member nbt inside
    | some i =>
      rw [found] at member
      exact all entity (mem_of_mem_eraseIdx member) nbt inside
  | some new =>
    rw [held] at member
    cases found : entities.findIdx? _ with
    | none =>
      rw [found] at member
      rcases mem_concat_iff.mp member with old | rfl
      · exact all entity old nbt inside
      · cases inside
        exact wire _ held
    | some i =>
      rw [found] at member
      rcases mem_or_eq_of_mem_set member with old | rfl
      · exact all entity old nbt inside
      · cases inside
        exact wire _ held

private theorem nextBlockEntity_same (same : SameChunk a b) (wire : ∀ nbt ∈ packet.nbtData, GoodNbt nbt) :
    SameNext (World.nextBlockEntity a packet) (World.nextBlockEntity b packet) := by
  cases same with
  | none => exact .error _
  | some good same =>
    obtain ⟨sameX, sameZ, sections, heightmaps, entities, light⟩ := eq_iff.mp same
    exact .ok ⟨good.heightmaps, nextEntities_all wire good.entities⟩
      (eq_iff.mpr ⟨sameX, sameZ, sections, heightmaps, nextEntities_same wire entities, light⟩)

private theorem decode_same {packet : PacketMapChunk} (heightmaps : GoodNbt packet.heightmaps)
    (entities : ∀ entity ∈ packet.blockEntities, ∀ nbt ∈ entity.nbtData, GoodNbt nbt) (sectionCount : ℕ) :
    SameNext (ChunkSnapshot.decode packet sectionCount) (ChunkSnapshot.decode packet sectionCount) := by
  rw [ChunkSnapshot.decode]
  cases decodeSections packet.chunkData sectionCount with
  | error e => exact .error e
  | ok sections =>
    have good : ∀ entity ∈ packet.blockEntities.map fun entity =>
        (⟨entity.x, entity.z, entity.y, entity.type, entity.nbtData⟩ : BlockEntitySnapshot),
        ∀ nbt ∈ entity.nbt, GoodNbt nbt := by
      intro entity member
      obtain ⟨source, listed, rfl⟩ := mem_map.mp member
      exact entities source listed
    exact .ok ⟨heightmaps, good⟩ (Good.eq_self ⟨heightmaps, good⟩)

end NextSnapshots

section Worlds

/-- A shared world and an unshared one with equal chunks. -/
structure Sim (shared alone : World) : Prop where
  dimension : shared.dimension = alone.dimension
  unshared : alone.shared = none
  chunks : ∀ position, SameChunk (shared.payload position) (alone.payload position)

variable {shared alone : World} {heap heap' : Heap limits}

/-- Interning a snapshot with a fingerprint hands out that snapshot, or an equal one that was interned before. -/
theorem intern_ok {good : ChunkSnapshot → Prop} (world : World) {chunk : ChunkSnapshot}
    (caches : Caches good heap.store) (new : good chunk)
    (fingerprint : ∃ fingerprint, chunk.fingerprint hash = .ok fingerprint) :
    ∃ arc after, world.intern hash heap chunk = .ok (arc, after) ∧ good arc.payload ∧
      (arc.payload = chunk ∨ arc.payload.eq chunk = true) ∧ Caches good after.store := by
  cases attached : world.shared with
  | none =>
    refine ⟨(heap.alloc chunk).1, (heap.alloc chunk).2, ?_, new, .inl rfl, caches⟩
    rw [World.intern, attached]
  | some scope =>
    obtain ⟨fingerprint, hashed⟩ := fingerprint
    obtain ⟨arc, store, result⟩ : ∃ arc store,
        heap.store.internWithFingerprint heap.live heap.fresh scope chunk fingerprint = (arc, store) := ⟨_, _, rfl⟩
    obtain ⟨goodArc, cachesAfter⟩ := internWithFingerprint_caches caches new result
    refine ⟨arc, (heap.receive arc store).2, ?_, goodArc, internWithFingerprint_payload result, cachesAfter⟩
    rw [World.intern, attached]
    simp only [Heap.intern, intern, hashed, bind, Except.bind, pure, Except.pure, result]
    rfl

private theorem intern_good (hash : Bytes → UInt64) (world : World) {chunk : ChunkSnapshot}
    (caches : Caches Good heap.store) (good : Good chunk) :
    ∃ arc after, world.intern hash heap chunk = .ok (arc, after) ∧ Good arc.payload ∧
      arc.payload.eq chunk = true ∧ Caches Good after.store := by
  have fingerprint : ∃ fingerprint, chunk.fingerprint hash = .ok fingerprint :=
    fingerprint_ok good.heightmaps.encodes
      (fun entity member nbt held => (good.entities entity member nbt held).encodes) hash
  obtain ⟨arc, after, interned, goodArc, same | equal, cachesAfter⟩ := intern_ok world caches good fingerprint
  · exact ⟨arc, after, interned, goodArc, same ▸ good.eq_self, cachesAfter⟩
  · exact ⟨arc, after, interned, goodArc, equal, cachesAfter⟩

theorem payload_insert (chunks : AList fun _ : ChunkPosition => Arc ChunkSnapshot) (position other : ChunkPosition)
    (arc : Arc ChunkSnapshot) {world : World} :
    World.payload { world with chunks := chunks.insert position arc } other =
      if other = position then some arc.payload else World.payload { world with chunks } other := by
  rw [World.payload, AList.lookup_insert_eq_ite, apply_ite (Option.map Arc.payload)]
  rfl

theorem payload_unloadChunk (world : World) (packet : PacketUnloadChunk) (position : ChunkPosition) :
    (world.unloadChunk packet).payload position =
      if position = (packet.chunkX, packet.chunkZ) then none else world.payload position := by
  rw [World.payload, World.unloadChunk, AList.lookup_erase_eq_ite, apply_ite (Option.map Arc.payload)]
  rfl

/-- What one operation does to a shared world and to an unshared one. -/
structure SameUpdate (a b : World.Updated limits) : Prop where
  result : a.result = b.result
  sim : Sim a.world b.world
  caches : Caches Good a.heap.store

section

variable (sim : Sim shared alone) (caches : Caches Good heap.store)

include sim caches

theorem Sim.install (position : ChunkPosition)
    {next nextAlone : Except MineRiderError ChunkSnapshot} (same : SameNext next nextAlone) :
    SameUpdate (shared.install hash heap position next) (alone.install hash heap' position nextAlone) := by
  cases same with
  | error e => exact ⟨rfl, sim, caches⟩
  | @ok s t good same =>
    obtain ⟨arc, after, interned, goodArc, equal, cachesAfter⟩ :=
      intern_good hash shared caches good
    have aloneInterned : alone.intern hash heap' t = .ok (heap'.alloc t) := by
      rw [World.intern, sim.unshared]
    simp only [World.install, Except.bind, interned, aloneInterned]
    refine ⟨rfl, ⟨sim.dimension, sim.unshared, ?_⟩, cachesAfter⟩
    intro other
    rw [payload_insert, payload_insert]
    split_ifs
    · exact .some goodArc (ChunkSnapshot.eq_partial.trans equal same)
    · exact sim.chunks other

theorem Sim.setBlockState (x y z : Int32) (state : UInt32) :
    SameUpdate (shared.setBlockState hash heap x y z state) (alone.setBlockState hash heap' x y z state) := by
  rw [World.setBlockState, World.setBlockState, sim.dimension]
  exact sim.install caches _ (nextBlock_same (sim.chunks _) _ x y z state)

theorem Sim.applyRecord (at_ : ChunkCoordinates) (record : Int32) :
    SameUpdate (shared.applyRecord hash heap at_ record) (alone.applyRecord hash heap' at_ record) := by
  rw [World.applyRecord, World.applyRecord]
  split_ifs
  · exact ⟨rfl, sim, caches⟩
  · exact sim.setBlockState caches _ _ _ _

end

theorem Sim.unloadChunk (sim : Sim shared alone) (packet : PacketUnloadChunk) :
    Sim (shared.unloadChunk packet) (alone.unloadChunk packet) := by
  refine ⟨sim.dimension, sim.unshared, ?_⟩
  intro position
  rw [payload_unloadChunk, payload_unloadChunk]
  split_ifs
  · exact .none
  · exact sim.chunks position

private theorem hasChunk_eq (world : World) (x z : Int32) : world.hasChunk x z = (world.payload (x, z)).isSome := by
  rw [World.hasChunk, World.payload, Option.isSome_map]

theorem blockState_eq (world : World) (x y z : Int32) : world.blockState x y z =
    if y < world.dimension.minY ∨ y ≥ world.dimension.minY + world.dimension.height then none
    else (world.payload (chunkCoordinate x, chunkCoordinate z)).bind fun chunk =>
      chunk.sections[asUsize (chunkCoordinate (y - world.dimension.minY))]?.bind fun sec =>
        sec.blockStates.get (blockIndex x y z) := by
  rw [World.blockState, World.payload, Option.bind_map]
  rfl

theorem Sim.hasChunk (sim : Sim shared alone) (x z : Int32) : shared.hasChunk x z = alone.hasChunk x z := by
  rw [hasChunk_eq, hasChunk_eq]
  have same := sim.chunks (x, z)
  generalize shared.payload (x, z) = a, alone.payload (x, z) = b at same ⊢
  cases same with
  | none | some => rfl

theorem Sim.blockState (sim : Sim shared alone) (x y z : Int32) :
    shared.blockState x y z = alone.blockState x y z := by
  rw [blockState_eq, blockState_eq, sim.dimension]
  have same := sim.chunks (chunkCoordinate x, chunkCoordinate z)
  generalize shared.payload _ = a, alone.payload _ = b at same ⊢
  cases same with
  | none => rfl
  | some good same =>
    obtain ⟨-, -, sections, -⟩ := eq_iff.mp same
    simp only [Option.bind_some, sections]

end Worlds

section Clients

inductive Packet where
  | mapChunk (packet : PacketMapChunk)
  | unloadChunk (packet : PacketUnloadChunk)
  | blockChange (packet : PacketBlockChange)
  | multiBlockChange (packet : PacketMultiBlockChange)
  | updateLight (packet : PacketUpdateLight)
  | tileEntityData (packet : PacketTileEntityData)

/-- The NBT values inside a packet. -/
def Packet.nbt : Packet → List Nbt
  | .mapChunk packet => packet.heightmaps :: packet.blockEntities.filterMap ChunkBlockEntity.nbtData
  | .tileEntityData packet => packet.nbtData.toList
  | _ => []

/-- A world handles a whole packet. -/
def apply (hash : Bytes → UInt64) (heap : Heap limits) (world : World) : Packet → World.Updated limits
  | .mapChunk packet => world.insertChunk hash heap packet
  | .unloadChunk packet => ⟨.ok (), world.unloadChunk packet, heap⟩
  | .blockChange packet => world.applyBlockChange hash heap packet
  | .multiBlockChange packet => world.applyMultiBlockChange hash heap packet
  | .updateLight packet => world.applyLightUpdate hash heap packet
  | .tileEntityData packet => world.applyBlockEntityUpdate hash heap packet

/-- An unshared world that nobody else touches, with the results of its operations so far. -/
structure Alone (limits : Limits) where
  world : World
  heap : Heap limits
  results : List (Except MineRiderError Unit)

def Alone.take (hash : Bytes → UInt64) (alone : Alone limits) (packet : Packet) : Alone limits :=
  let updated := apply hash alone.heap alone.world packet
  ⟨updated.world, updated.heap, alone.results ++ [updated.result]⟩

/-- A private world, fed packets one after the other. -/
def feed (hash : Bytes → UInt64) (limits : Limits) (dimension : DimensionType) (packets : List Packet) :
    Alone limits :=
  packets.foldl (Alone.take hash) ⟨World.new dimension, .withLimits limits, []⟩

/-- A client of the shared store: the packets it has taken, the results of those it has finished, and
the records that are left of the multi-block change it is in. -/
structure Client where
  world : World
  todo : Option (ChunkCoordinates × List Int32)
  taken : List Packet
  results : List (Except MineRiderError Unit)

/-- The client takes a packet, unless it is still inside one. -/
def Client.take (hash : Bytes → UInt64) (heap : Heap limits) (client : Client) (packet : Packet) :
    Client × Heap limits :=
  match client.todo, packet with
  | some _, _ => (client, heap)
  | none, .multiBlockChange change =>
    ({ client with
      todo := some (change.chunkCoordinates, change.records)
      taken := client.taken ++ [packet] }, heap)
  | none, packet =>
    let updated := apply hash heap client.world packet
    ({ client with
      world := updated.world
      taken := client.taken ++ [packet]
      results := client.results ++ [updated.result] }, updated.heap)

/-- The client goes on with its multi-block change by one record. -/
def Client.resume (hash : Bytes → UInt64) (heap : Heap limits) (client : Client) : Client × Heap limits :=
  match client.todo with
  | none => (client, heap)
  | some (_, []) => ({ client with todo := none, results := client.results ++ [.ok ()] }, heap)
  | some (at_, record :: rest) =>
    let updated := client.world.applyRecord hash heap at_ record
    match updated.result with
    | .error e =>
      ({ client with world := updated.world, todo := none, results := client.results ++ [.error e] }, updated.heap)
    | .ok () => ({ client with world := updated.world, todo := some (at_, rest) }, updated.heap)

/-- What the unshared world is after the rest of a multi-block change. -/
def Alone.finish (hash : Bytes → UInt64) (alone : Alone limits) : Option (ChunkCoordinates × List Int32) → Alone limits
  | none => alone
  | some (at_, records) =>
    let updated := alone.world.applyRecords hash alone.heap at_ records
    ⟨updated.world, updated.heap, alone.results ++ [updated.result]⟩

/-- The client is where its private counterpart is, or on the way to it. -/
def Tracks (hash : Bytes → UInt64) (limits : Limits) (client : Client) : Prop :=
  ∃ alone : Alone limits, Sim client.world alone.world ∧ client.results = alone.results ∧
    alone.finish hash client.todo = feed hash limits client.world.dimension client.taken

variable {client : Client} {heap : Heap limits}

theorem install_dimension (world : World) (position : ChunkPosition) (next : Except MineRiderError ChunkSnapshot) :
    (world.install hash heap position next).world.dimension = world.dimension := by
  rw [World.install]
  split <;> rfl

private theorem applyRecord_dimension (world : World) (at_ : ChunkCoordinates) (record : Int32) :
    (world.applyRecord hash heap at_ record).world.dimension = world.dimension := by
  rw [World.applyRecord]
  split_ifs
  · rfl
  · exact install_dimension ..

/-- A packet other than a multi-block change is one step of the world. -/
theorem apply_same {packet : Packet} {shared alone : World} {heap' : Heap limits} (sim : Sim shared alone)
    (caches : Caches Good heap.store) (wire : ∀ nbt ∈ packet.nbt, FromWire nbt)
    (single : ∀ change, packet ≠ .multiBlockChange change) :
    SameUpdate (apply hash heap shared packet) (apply hash heap' alone packet) ∧
      (apply hash heap shared packet).world.dimension = shared.dimension := by
  cases packet with
  | mapChunk packet =>
    refine ⟨?_, install_dimension ..⟩
    rw [apply, apply, World.insertChunk, World.insertChunk, sim.dimension]
    apply sim.install caches
    apply decode_same
    · exact (wire _ mem_cons_self).good
    · intro entity member nbt inside
      exact (wire nbt (mem_cons_of_mem _ (mem_filterMap.mpr ⟨entity, member, inside⟩))).good
  | unloadChunk packet => exact ⟨⟨rfl, sim.unloadChunk packet, caches⟩, rfl⟩
  | blockChange packet => exact ⟨sim.setBlockState caches _ _ _ _, install_dimension ..⟩
  | multiBlockChange packet => exact (single packet rfl).elim
  | updateLight packet =>
    exact ⟨sim.install caches _ (nextLight_same (sim.chunks _) packet), install_dimension ..⟩
  | tileEntityData packet =>
    refine ⟨sim.install caches _ (nextBlockEntity_same (sim.chunks _) ?_), install_dimension ..⟩
    intro nbt inside
    exact (wire nbt (Option.mem_toList.mpr inside)).good

theorem feed_append (dimension : DimensionType) (packets : List Packet) (packet : Packet) :
    feed hash limits dimension (packets ++ [packet]) = (feed hash limits dimension packets).take hash packet := by
  rw [feed, foldl_append]
  rfl

private theorem take_tracks {packet : Packet} (tracks : Tracks hash limits client) (caches : Caches Good heap.store)
    (wire : ∀ nbt ∈ packet.nbt, FromWire nbt) :
    Tracks hash limits (client.take hash heap packet).1 ∧ Caches Good (client.take hash heap packet).2.store := by
  obtain ⟨alone, sim, results, finishes⟩ := tracks
  cases busy : client.todo with
  | some rest =>
    simp only [Client.take, busy]
    exact ⟨⟨alone, sim, results, busy ▸ finishes⟩, caches⟩
  | none =>
    rw [busy] at finishes
    by_cases multi : ∃ change, packet = .multiBlockChange change
    · obtain ⟨change, rfl⟩ := multi
      simp only [Client.take, busy]
      refine ⟨⟨alone, sim, results, ?_⟩, caches⟩
      rw [feed_append, ← finishes]
      rfl
    · have single : ∀ change, packet ≠ .multiBlockChange change := fun change same => multi ⟨change, same⟩
      obtain ⟨same, dimension⟩ : SameUpdate (apply hash heap client.world packet)
            (apply hash alone.heap alone.world packet) ∧
          (apply hash heap client.world packet).world.dimension = client.world.dimension :=
        apply_same sim caches wire single
      have taken : client.take hash heap packet =
          ({ client with
              world := (apply hash heap client.world packet).world
              taken := client.taken ++ [packet]
              results := client.results ++ [(apply hash heap client.world packet).result] },
            (apply hash heap client.world packet).heap) := by
        cases packet <;> first | exact (single _ rfl).elim | simp only [Client.take, busy]
      rw [taken]
      refine ⟨⟨alone.take hash packet, same.sim, ?_, ?_⟩, same.caches⟩
      · rw [results, same.result]
        rfl
      · simp only [busy, dimension]
        rw [feed_append, ← finishes]
        rfl

section

variable {alone : Alone limits} {at_ : ChunkCoordinates} {record : Int32} (rest : List Int32)

include rest

private theorem finish_of_error
    {e : MineRiderError} (failed : (alone.world.applyRecord hash alone.heap at_ record).result = .error e) :
    alone.finish hash (some (at_, record :: rest)) =
      ⟨(alone.world.applyRecord hash alone.heap at_ record).world,
        (alone.world.applyRecord hash alone.heap at_ record).heap, alone.results ++ [.error e]⟩ := by
  simp only [Alone.finish, World.applyRecords, failed]

private theorem finish_of_ok (success : (alone.world.applyRecord hash alone.heap at_ record).result = .ok ()) :
    alone.finish hash (some (at_, record :: rest)) =
      Alone.finish hash ⟨(alone.world.applyRecord hash alone.heap at_ record).world,
        (alone.world.applyRecord hash alone.heap at_ record).heap, alone.results⟩ (some (at_, rest)) := by
  simp only [Alone.finish, World.applyRecords, success]

end

private theorem resume_tracks (tracks : Tracks hash limits client) (caches : Caches Good heap.store) :
    Tracks hash limits (client.resume hash heap).1 ∧ Caches Good (client.resume hash heap).2.store := by
  obtain ⟨alone, sim, results, finishes⟩ := tracks
  rcases busy : client.todo with _ | ⟨at_, _ | ⟨record, rest⟩⟩
  · simp only [Client.resume, busy]
    exact ⟨⟨alone, sim, results, busy ▸ finishes⟩, caches⟩
  · simp only [Client.resume, busy]
    rw [busy] at finishes
    exact ⟨⟨⟨alone.world, alone.heap, alone.results ++ [.ok ()]⟩, sim, by rw [results], finishes⟩, caches⟩
  · rw [busy] at finishes
    have same : SameUpdate (client.world.applyRecord hash heap at_ record)
        (alone.world.applyRecord hash alone.heap at_ record) := sim.applyRecord caches at_ record
    have dimension : (client.world.applyRecord hash heap at_ record).world.dimension = client.world.dimension :=
      applyRecord_dimension ..
    cases outcome : (client.world.applyRecord hash heap at_ record).result with
    | error e =>
      rw [finish_of_error rest (same.result ▸ outcome)] at finishes
      simp only [Client.resume, busy, outcome]
      refine ⟨⟨_, same.sim, ?_, dimension ▸ finishes⟩, same.caches⟩
      rw [results]
    | ok done =>
      rw [finish_of_ok rest (same.result ▸ outcome)] at finishes
      simp only [Client.resume, busy, outcome]
      exact ⟨⟨⟨_, _, alone.results⟩, same.sim, results, dimension ▸ finishes⟩, same.caches⟩

end Clients

section System

/-- All clients of one store. -/
structure System (limits : Limits) where
  heap : Heap limits
  clients : AList fun _ : ℕ => Client

/-- A payload may lose its last owner at any time: which payloads die when a client unloads a chunk or
leaves depends on every other client. -/
inductive Event where
  | join (client : ℕ) (dimension : DimensionType) (scope : WorldScope)
  | packet (client : ℕ) (packet : Packet)
  | resume (client : ℕ)
  | leave (client : ℕ)
  | drop (id : ℕ)
  | prune

def Event.nbt : Event → List Nbt
  | .packet _ taken => taken.nbt
  | _ => []

/-- One client acts on its own state and on the store. -/
def System.act (system : System limits) (id : ℕ) (action : Client → Heap limits → Client × Heap limits) :
    System limits :=
  match system.clients.lookup id with
  | none => system
  | some client =>
    let (client, heap) := action client system.heap
    ⟨heap, system.clients.insert id client⟩

def System.step (hash : Bytes → UInt64) (system : System limits) : Event → System limits
  | .join id dimension scope =>
    { system with clients := system.clients.insert id ⟨World.withSharedStore dimension scope, none, [], []⟩ }
  | .packet id packet => system.act id fun client heap => client.take hash heap packet
  | .resume id => system.act id fun client heap => client.resume hash heap
  | .leave id => { system with clients := system.clients.erase id }
  | .drop id => { system with heap := system.heap.drop id }
  | .prune => { system with heap := system.heap.prune }

def System.run (hash : Bytes → UInt64) (limits : Limits) (events : List Event) : System limits :=
  events.foldl (System.step hash) ⟨.withLimits limits, ∅⟩

/-- The store holds good payloads, and every client stands well with it. -/
structure Inv (good : ChunkSnapshot → Prop) (own : Client → Heap limits → Prop) (system : System limits) : Prop where
  caches : Caches good system.heap.store
  clients : ∀ id client, system.clients.lookup id = some client → own client system.heap

/-- What a client has to show of its own events for all of them to keep standing well. -/
structure Stands (hash : Bytes → UInt64) (good : ChunkSnapshot → Prop) (own : Client → Heap limits → Prop)
    (allowed : Event → Prop) : Prop where
  others {client : Client} {heap after : Heap limits} : own client heap → Caches good after.store → own client after
  join {id : ℕ} {dimension : DimensionType} {scope : WorldScope} {heap : Heap limits} :
    allowed (.join id dimension scope) → Caches good heap.store →
      own ⟨World.withSharedStore dimension scope, none, [], []⟩ heap
  take {id : ℕ} {packet : Packet} {client : Client} {heap : Heap limits} :
    allowed (.packet id packet) → Caches good heap.store → own client heap →
      own (client.take hash heap packet).1 (client.take hash heap packet).2 ∧
        Caches good (client.take hash heap packet).2.store
  resume {client : Client} {heap : Heap limits} : Caches good heap.store → own client heap →
    own (client.resume hash heap).1 (client.resume hash heap).2 ∧ Caches good (client.resume hash heap).2.store

section Invariants

variable {system : System limits} {good : ChunkSnapshot → Prop} {own : Client → Heap limits → Prop}
  {allowed : Event → Prop}

section

variable (inv : Inv good own system) (stands : Stands hash good own allowed)

include inv stands

theorem Inv.insert (id : ℕ) {client : Client}
    {after : Heap limits} (new : own client after) (caches : Caches good after.store) :
    Inv good own ⟨after, system.clients.insert id client⟩ := by
  exact ⟨caches, AList.forall_lookup_insert new fun other listed found =>
    stands.others (inv.clients other listed found) caches⟩

theorem Inv.act (id : ℕ) {action : Client → Heap limits → Client × Heap limits}
    (keeps : ∀ client, own client system.heap →
      own (action client system.heap).1 (action client system.heap).2 ∧
        Caches good (action client system.heap).2.store) : Inv good own (system.act id action) := by
  rw [System.act]
  cases found : system.clients.lookup id with
  | none => exact inv
  | some client =>
    obtain ⟨new, caches⟩ := keeps client (inv.clients id client found)
    exact inv.insert stands id new caches

theorem Inv.step {event : Event} (allows : allowed event) : Inv good own (system.step hash event) := by
  cases event with
  | join id dimension scope => exact inv.insert stands id (stands.join allows inv.caches) inv.caches
  | packet id packet =>
    rw [System.step]
    exact inv.act stands id fun client => stands.take allows inv.caches
  | resume id =>
    rw [System.step]
    exact inv.act stands id fun client => stands.resume inv.caches
  | leave id => exact ⟨inv.caches, AList.forall_lookup_erase inv.clients⟩
  | drop id => exact ⟨inv.caches, fun other client found => stands.others (inv.clients other client found) inv.caches⟩
  | prune =>
    have pruned := prune_caches inv.caches system.heap.live
    exact ⟨pruned, fun other client found => stands.others (inv.clients other client found) pruned⟩

end

theorem caches_withLimits (good : ChunkSnapshot → Prop) (limits : Limits) :
    Caches good (Heap.withLimits limits).store := by
  intro i key bucket found
  simp [Heap.withLimits, withLimits, StoreShard.empty] at found

theorem Stands.run (stands : Stands hash good own allowed) {events : List Event}
    (all : ∀ event ∈ events, allowed event) : Inv good own (System.run hash limits events) := by
  apply List.foldlRecOn events (System.step hash) (motive := Inv good own)
  · refine ⟨caches_withLimits good limits, ?_⟩
    intro id client found
    simp at found
  · intro system inv event member
    exact inv.step stands (all event member)

end Invariants

private theorem new_tracks (dimension : DimensionType) (scope : WorldScope) :
    Tracks hash limits ⟨World.withSharedStore dimension scope, none, [], []⟩ := by
  refine ⟨⟨World.new dimension, .withLimits limits, []⟩, ⟨rfl, rfl, ?_⟩, rfl, rfl⟩
  intro position
  exact .none

private theorem tracks_stands : Stands hash Good (fun client (_ : Heap limits) => Tracks hash limits client)
    fun event => ∀ nbt ∈ event.nbt, FromWire nbt where
  others tracks _ := tracks
  join _ _ := new_tracks ..
  take wire caches tracks := take_tracks tracks caches wire
  resume caches tracks := resume_tracks tracks caches

/-- After any events, a client that is between two packets has had the results, and sees the chunks, blocks and
light, that a private world fed its packets has had and would see. Whole payloads agree by the program's own `==`:
the NBT in them, which no operation of a world reads, may differ in the signs of zeros. -/
theorem sharing_is_not_observable (limits : Limits) (hash : Bytes → UInt64) (events : List Event)
    (wire : ∀ event ∈ events, ∀ nbt ∈ event.nbt, FromWire nbt) (id : ℕ) (client : Client)
    (found : (System.run hash limits events).clients.lookup id = some client) (between : client.todo = none) :
    let alone := feed hash limits client.world.dimension client.taken
    client.results = alone.results ∧
      (∀ x z, client.world.hasChunk x z = alone.world.hasChunk x z) ∧
      (∀ x y z, client.world.blockState x y z = alone.world.blockState x y z) ∧
      (∀ position, (client.world.payload position).map (fun chunk => (chunk.sections, chunk.light)) =
        (alone.world.payload position).map (fun chunk => (chunk.sections, chunk.light))) ∧
      ∀ position, optionEq ChunkSnapshot.eq (client.world.payload position) (alone.world.payload position) = true := by
  obtain ⟨alone, sim, results, finishes⟩ := (tracks_stands.run wire).clients id client found
  rw [between] at finishes
  change alone = _ at finishes
  rw [← finishes]
  refine ⟨results, sim.hasChunk, sim.blockState, ?_⟩
  rw [← forall_and]
  intro position
  have same := sim.chunks position
  generalize client.world.payload position = a, alone.world.payload position = b at same ⊢
  cases same with
  | none => exact ⟨rfl, rfl⟩
  | some good same =>
    obtain ⟨-, -, sections, -, -, light⟩ := eq_iff.mp same
    exact ⟨by simp only [Option.map_some, sections, light], same⟩

/-- Two clients load the same chunk and share it; then the second one's light changes while the first
is inside a multi-block change that fails. -/
theorem sharing_is_not_observable_two_clients :
    let dimension : DimensionType := ⟨0, 16⟩
    let scope : WorldScope := ⟨⟨"localhost", 25565⟩, ⟨"overworld", 7⟩, ⟨"overworld", 0, 16, 16, 0, false, false⟩⟩
    let chunk : Packet := .mapChunk ⟨1, -2, .compound [], [0, 0, 0, 5, 0, 0, 0, 0], [], ⟨[], [], [], [], [], []⟩⟩
    let change : Packet := .multiBlockChange ⟨⟨1, -2, 0⟩, [-1]⟩
    let light : Packet := .updateLight ⟨1, -2, ⟨[1], [], [], [], [], []⟩⟩
    let events : List Event := [.join 0 dimension scope, .join 1 dimension scope, .packet 0 chunk,
      .packet 1 chunk, .packet 0 change, .packet 1 light, .resume 0]
    ∃ client, (System.run fnv64 .default events).clients.lookup 0 = some client ∧
      client.results = (feed fnv64 .default client.world.dimension client.taken).results ∧
      client.world.blockState 16 3 (-32) =
        (feed fnv64 .default client.world.dimension client.taken).world.blockState 16 3 (-32) := by
  intro dimension scope chunk change light events
  have wire : ∀ event ∈ events, ∀ nbt ∈ event.nbt, FromWire nbt := by
    have decoded : FromWire (.compound []) := ⟨⟨[10, 0], [], rfl⟩, rfl⟩
    simp [events, Event.nbt, Packet.nbt, chunk, change, light, decoded]
  have present : ((System.run fnv64 .default events).clients.lookup 0).isSome = true := by decide +kernel
  have idle : ((System.run fnv64 .default events).clients.lookup 0).bind Client.todo = none := by decide +kernel
  obtain ⟨client, found⟩ := Option.isSome_iff_exists.mp present
  rw [found] at idle
  obtain ⟨results, -, blocks, -⟩ :=
    sharing_is_not_observable .default fnv64 events wire 0 client found idle
  exact ⟨client, found, results, blocks 16 3 (-32)⟩

end System

end MineRider.Soundness.SharedWorld
