import MineRider.Soundness.Palettes
import MineRider.Soundness.SharedWorld

/-! # Block updates

`set_block_state` replaces one section of one chunk. Read back through `block_state`, the position has the
new state and every other position of every chunk what it had; a failed update changes nothing.

Positions are told apart by chunk, section and index also where the subtraction of `min_y` wraps. Reading
compares `y` with `min_y + height` first, and that sum may wrap too: then nothing is readable in the
dimension, though blocks can still be written.
-/

namespace MineRider.Soundness.BlockUpdates

open List Model.Core Model.Protocol Model.Minecraft Machine SharedStore Palettes
open SharedWorld (Decoded)

section Positions

private theorem localCoordinate_lt (x : Int32) : localCoordinate x < 16 := by
  unfold localCoordinate
  omega

theorem blockIndex_lt (x y z : Int32) : blockIndex x y z < blocksPerSection := by
  have first := localCoordinate_lt x
  have second := localCoordinate_lt y
  have third := localCoordinate_lt z
  unfold blockIndex blocksPerSection
  omega

theorem chunkCoordinate_toInt (x : Int32) : (chunkCoordinate x).toInt = x.toInt / 16 := by
  have lower := x.le_toInt
  have upper := x.toInt_lt
  rw [chunkCoordinate, Int32.toInt_ofInt_of_le (by omega) (by omega)]

private theorem coordinate_injective {a b : Int32} (chunk : chunkCoordinate a = chunkCoordinate b)
    (inside : localCoordinate a = localCoordinate b) : a = b := by
  have quotient := congrArg Int32.toInt chunk
  rw [chunkCoordinate_toInt, chunkCoordinate_toInt] at quotient
  unfold localCoordinate at inside
  exact Int32.toInt_inj.mp (by omega)

/-- Subtraction wraps by whole chunks, so a height inside its section and the section determine it. -/
theorem sub_toInt (y base : Int32) : ∃ k : ℤ, (y - base).toInt = y.toInt - base.toInt + k * 2 ^ 32 := by
  refine ⟨-Int.bdiv (y.toInt - base.toInt) (2 ^ 32), ?_⟩
  rw [Int32.toInt_sub, Int.bmod_eq_self_sub_bdiv_mul]
  omega

private theorem height_injective {y other base : Int32}
    (sec : chunkCoordinate (y - base) = chunkCoordinate (other - base))
    (inside : localCoordinate y = localCoordinate other) : y = other := by
  have quotient := congrArg Int32.toInt sec
  rw [chunkCoordinate_toInt, chunkCoordinate_toInt] at quotient
  obtain ⟨k, difference⟩ := sub_toInt y base
  obtain ⟨l, otherDifference⟩ := sub_toInt other base
  unfold localCoordinate at inside
  have same : (y - base).toInt = (other - base).toInt := by omega
  have equal := Int32.toInt_inj.mp same
  simpa using congrArg (· + base) equal

/-- Inside one section of one chunk the index determines the position. -/
theorem blockIndex_eq_iff {x y z x' y' z' base : Int32} (sameX : chunkCoordinate x' = chunkCoordinate x)
    (sameZ : chunkCoordinate z' = chunkCoordinate z)
    (sec : chunkCoordinate (y' - base) = chunkCoordinate (y - base)) :
    blockIndex x' y' z' = blockIndex x y z ↔ (x', y', z') = (x, y, z) := by
  constructor
  · intro same
    have bounds := And.intro (localCoordinate_lt x) (And.intro (localCoordinate_lt y) (localCoordinate_lt z))
    have bounds' := And.intro (localCoordinate_lt x') (And.intro (localCoordinate_lt y') (localCoordinate_lt z'))
    unfold blockIndex at same
    rw [coordinate_injective sameX (by omega), height_injective sec (by omega), coordinate_injective sameZ (by omega)]
  · intro same
    cases same
    rfl

private theorem asUsize_injective {a b : Int32} (same : asUsize a = asUsize b) : a = b := by
  have unsigned := UInt64.toNat_inj.mp same
  have signed := congrArg UInt64.toInt64 unsigned
  rw [Int64.toInt64_toUInt64, Int64.toInt64_toUInt64] at signed
  have number := congrArg Int64.toInt signed
  rw [Int32.toInt_toInt64, Int32.toInt_toInt64] at number
  exact Int32.toInt_inj.mp number

theorem asUsize_of_nonneg {a : Int32} (nonneg : 0 ≤ a.toInt) : (asUsize a : ℤ) = a.toInt := by
  have positive : (0 : Int64) ≤ a.toInt64 := by
    rw [Int64.le_iff_toInt_le, Int32.toInt_toInt64]
    exact nonneg
  rw [asUsize, Int64.toNat_toUInt64_of_le positive, Int64.toNatClampNeg, Int32.toInt_toInt64]
  exact Int.toNat_of_nonneg nonneg

end Positions

section Updates

variable {limits : Limits} {hash : Bytes → UInt64} {heap : Heap limits} {world : World}

/-- The block of a chunk at a position, whatever the bounds of the dimension. -/
def blockOf (dimension : DimensionType) (chunk : ChunkSnapshot) (x y z : Int32) : Option UInt32 :=
  chunk.sections[asUsize (chunkCoordinate (y - dimension.minY))]?.bind fun sec => sec.blockStates.get (blockIndex x y z)

/-- `block_state` looks at nothing outside these bounds. -/
def Outside (dimension : DimensionType) (y : Int32) : Prop := y < dimension.minY ∨ y ≥ dimension.minY + dimension.height

instance (dimension : DimensionType) (y : Int32) : Decidable (Outside dimension y) :=
  inferInstanceAs (Decidable (_ ∨ _))

theorem blockState_blockOf (world : World) (x y z : Int32) : world.blockState x y z =
    if Outside world.dimension y then none
    else (world.payload (chunkCoordinate x, chunkCoordinate z)).bind fun chunk =>
      blockOf world.dimension chunk x y z := SharedWorld.blockState_eq world x y z

/-- The section can be updated: it is there, and all its entries can be read. -/
def Updatable (world : World) (x y z : Int32) : Prop :=
  ∃ chunk sec, world.payload (chunkCoordinate x, chunkCoordinate z) = some chunk ∧
    0 ≤ chunkCoordinate (y - world.dimension.minY) ∧
    chunk.sections[asUsize (chunkCoordinate (y - world.dimension.minY))]? = some sec ∧
    ∀ i < blocksPerSection, (sec.blockStates.get i).isSome = true

variable {x y z : Int32} {state : UInt32}

/-- What a successful `nextBlock` does to a chunk. -/
theorem nextBlock_ok {dimension : DimensionType} {current : Option ChunkSnapshot} {next : ChunkSnapshot}
    (changed : World.nextBlock dimension current x y z state = .ok next) :
    ∃ chunk sec blockStates, current = some chunk ∧ 0 ≤ chunkCoordinate (y - dimension.minY) ∧
      chunk.sections[asUsize (chunkCoordinate (y - dimension.minY))]? = some sec ∧
      sec.blockStates.materializeAndSet blocksPerSection (blockIndex x y z) state = .ok blockStates ∧
      next = { chunk with sections :=
        chunk.sections.set (asUsize (chunkCoordinate (y - dimension.minY))) { sec with blockStates } } := by
  unfold World.nextBlock at changed
  cases current with
  | none => cases changed
  | some chunk =>
    simp only at changed
    by_cases negative : chunkCoordinate (y - dimension.minY) < 0
    · rw [if_pos negative] at changed
      cases changed
    rw [if_neg negative] at changed
    cases found : chunk.sections[asUsize (chunkCoordinate (y - dimension.minY))]? with
    | none =>
      rw [found] at changed
      cases changed
    | some sec =>
      rw [found] at changed
      cases packed : sec.blockStates.materializeAndSet blocksPerSection (blockIndex x y z) state with
      | error e =>
        simp only [packed] at changed
        cases changed
      | ok blockStates =>
        simp only [packed] at changed
        cases changed
        exact ⟨chunk, sec, blockStates, rfl, Int32.not_lt.mp negative, found, packed, rfl⟩

/-- The blocks of a chunk after an update. -/
theorem blockOf_nextBlock {dimension : DimensionType} {chunk next : ChunkSnapshot}
    (changed : World.nextBlock dimension (some chunk) x y z state = .ok next) {x' y' z' : Int32}
    (sameX : chunkCoordinate x' = chunkCoordinate x) (sameZ : chunkCoordinate z' = chunkCoordinate z) :
    blockOf dimension next x' y' z' =
      if (x', y', z') = (x, y, z) then some state else blockOf dimension chunk x' y' z' := by
  obtain ⟨_, sec, blockStates, same, _, found, packed, rfl⟩ := nextBlock_ok changed
  cases same
  have entry := fun i (below : i < blocksPerSection) =>
    (materializeAndSet_get (blockIndex_lt x y z) packed below).2
  unfold blockOf
  rw [getElem?_set]
  by_cases here : chunkCoordinate (y - dimension.minY) = chunkCoordinate (y' - dimension.minY)
  · rw [here] at found
    obtain ⟨present, _⟩ := List.getElem?_eq_some_iff.mp found
    rw [if_pos (congrArg asUsize here), here, if_pos present, found, Option.bind_some, Option.bind_some,
      entry _ (blockIndex_lt x' y' z')]
    simp only [blockIndex_eq_iff sameX sameZ here.symm]
  · have elsewhere : asUsize (chunkCoordinate (y - dimension.minY)) ≠ asUsize (chunkCoordinate (y' - dimension.minY)) :=
      fun same => here (asUsize_injective same)
    have different : (x', y', z') ≠ (x, y, z) := by
      intro same
      cases same
      exact here rfl
    rw [if_neg elsewhere, if_neg different]

/-- What is handed out for a snapshot has its sections. -/
theorem intern_sections {chunk : ChunkSnapshot} {arc : Arc ChunkSnapshot} {after : Heap limits}
    (interned : world.intern hash heap chunk = .ok (arc, after)) : arc.payload.sections = chunk.sections := by
  unfold World.intern at interned
  cases attached : world.shared with
  | none =>
    rw [attached] at interned
    cases interned
    rfl
  | some scope =>
    rw [attached] at interned
    simp only [Heap.intern, SharedChunkStore.intern, bind, Except.bind, pure, Except.pure] at interned
    cases hashed : chunk.fingerprint hash with
    | error e =>
      simp only [hashed] at interned
      cases interned
    | ok fingerprint =>
      simp only [hashed] at interned
      cases interned
      rcases internWithFingerprint_payload rfl with same | equal
      · exact congrArg ChunkSnapshot.sections same
      · exact (SharedWorld.eq_iff.mp equal).2.2.1

/-- How an update ends: it fails and changes nothing, or one chunk is replaced by one with the new blocks. -/
theorem setBlockState_cases (hash : Bytes → UInt64) (heap : Heap limits) (world : World) (x y z : Int32)
    (state : UInt32) :
    (∃ e, (world.setBlockState hash heap x y z state).result = .error e ∧
      (world.setBlockState hash heap x y z state).world = world) ∨
    ∃ next arc, World.nextBlock world.dimension (world.payload (chunkCoordinate x, chunkCoordinate z)) x y z state =
        .ok next ∧ arc.payload.sections = next.sections ∧
      (world.setBlockState hash heap x y z state).result = .ok () ∧
      (world.setBlockState hash heap x y z state).world =
        { world with chunks := world.chunks.insert (chunkCoordinate x, chunkCoordinate z) arc } := by
  unfold World.setBlockState World.install
  simp only
  cases changed :
      World.nextBlock world.dimension (world.payload (chunkCoordinate x, chunkCoordinate z)) x y z state with
  | error e => exact .inl ⟨e, rfl, rfl⟩
  | ok next =>
    simp only [Except.bind]
    cases interned : world.intern hash heap next with
    | error e => exact .inl ⟨e, rfl, rfl⟩
    | ok result =>
      obtain ⟨arc, after⟩ := result
      exact .inr ⟨next, arc, rfl, intern_sections interned, rfl, rfl⟩

/-- Every block after a successful update. -/
theorem blockState_updated (done : (world.setBlockState hash heap x y z state).result = .ok ()) (x' y' z' : Int32) :
    (world.setBlockState hash heap x y z state).world.blockState x' y' z' =
      if (x', y', z') = (x, y, z) then if Outside world.dimension y then none else some state
      else world.blockState x' y' z' := by
  obtain ⟨e, failed, _⟩ | ⟨next, arc, changed, sections, _, after⟩ := setBlockState_cases hash heap world x y z state
  · rw [failed] at done
    cases done
  · rw [after, blockState_blockOf, blockState_blockOf, SharedWorld.payload_insert]
    obtain ⟨chunk, _, _, found, _⟩ := nextBlock_ok changed
    rw [found] at changed
    have same : ∀ x y z, blockOf world.dimension arc.payload x y z = blockOf world.dimension next x y z := by
      intro x y z
      unfold blockOf
      rw [sections]
    by_cases outside : Outside world.dimension y'
    · simp only [outside, ↓reduceIte]
      by_cases here : (x', y', z') = (x, y, z)
      · cases here
        rw [if_pos rfl, if_pos outside]
      · rw [if_neg here]
    · simp only [outside, ↓reduceIte]
      by_cases there : (chunkCoordinate x', chunkCoordinate z') = (chunkCoordinate x, chunkCoordinate z)
      · obtain ⟨sameX, sameZ⟩ := Prod.mk.inj there
        rw [if_pos there, Option.bind_some, same, blockOf_nextBlock changed sameX sameZ, there, found]
        split_ifs with here inside
        · cases here
          exact absurd inside outside
        · rfl
        · rfl
      · rw [if_neg there]
        have elsewhere : (x', y', z') ≠ (x, y, z) := by
          intro here
          cases here
          exact there rfl
        rw [if_neg elsewhere]

end Updates

section Bounds

/-- The dimension ends below the largest coordinate. -/
def Bounded (dimension : DimensionType) : Prop := dimension.minY.toInt + dimension.height.toInt < 2 ^ 31

variable {dimension : DimensionType}

theorem height_pos (valid : dimension.validBounds = true) : 0 < dimension.height.toInt := by
  unfold DimensionType.validBounds at valid
  simp only [Bool.not_eq_true', Bool.or_eq_false_iff, decide_eq_false_iff_not] at valid
  have positive := valid.1.1.1
  rwa [Int32.not_le, Int32.lt_iff_toInt_lt] at positive

theorem sectionCount_eq (positive : 0 < dimension.height.toInt) :
    (dimension.sectionCount : ℤ) = dimension.height.toInt / 16 := by
  have quotient : (dimension.height / 16).toInt = dimension.height.toInt / 16 := by
    rw [Int32.toInt_div_of_ne_right _ _ (by decide)]
    exact Int.tdiv_eq_ediv_of_nonneg positive.le
  rw [DimensionType.sectionCount, asUsize_of_nonneg (by omega), quotient]

private theorem add_toInt (a b : Int32) : ∃ k : ℤ, (a + b).toInt = a.toInt + b.toInt + k * 2 ^ 32 := by
  refine ⟨-Int.bdiv (a.toInt + b.toInt) (2 ^ 32), ?_⟩
  rw [Int32.toInt_add, Int.bmod_eq_self_sub_bdiv_mul]
  omega

/-- Where a section is, the bounds of the dimension are, unless their sum wraps. -/
theorem outside_iff (positive : 0 < dimension.height.toInt) {y : Int32}
    (nonneg : 0 ≤ chunkCoordinate (y - dimension.minY))
    (below : asUsize (chunkCoordinate (y - dimension.minY)) < dimension.sectionCount) :
    Outside dimension y ↔ ¬ Bounded dimension := by
  have count := sectionCount_eq positive
  have quotient := chunkCoordinate_toInt (y - dimension.minY)
  rw [Int32.le_iff_toInt_le, Int32.toInt_zero] at nonneg
  have number := asUsize_of_nonneg nonneg
  obtain ⟨k, offset⟩ := sub_toInt y dimension.minY
  obtain ⟨l, top⟩ := add_toInt dimension.minY dimension.height
  have bounds := And.intro y.le_toInt y.toInt_lt
  have base := And.intro dimension.minY.le_toInt dimension.minY.toInt_lt
  have height := dimension.height.toInt_lt
  have sum := And.intro (dimension.minY + dimension.height).le_toInt (dimension.minY + dimension.height).toInt_lt
  unfold Outside Bounded
  rw [ge_iff_le, Int32.lt_iff_toInt_lt, Int32.le_iff_toInt_le]
  omega

end Bounds

section Worlds

variable {limits : Limits} {hash : Bytes → UInt64} {heap : Heap limits} {world : World}

/-- What a fingerprint needs of a snapshot. -/
structure Encodes (s : ChunkSnapshot) : Prop where
  heightmaps : ∃ bytes, s.heightmaps.encode = .ok bytes
  entities : ∀ entity ∈ s.blockEntities, ∀ nbt ∈ entity.nbt, ∃ bytes, nbt.encode = .ok bytes

/-- Worlds whose chunks were accepted from packets. The other clients of a store may do to it what they like
between two steps, as long as what it holds was received as well. -/
inductive Reached (hash : Bytes → UInt64) : World → Heap limits → Prop where
  | unshared {dimension : DimensionType} {heap : Heap limits} (valid : dimension.validBounds = true)
      (caches : Caches Encodes heap.store) : Reached hash (World.new dimension) heap
  | shared {dimension : DimensionType} {heap : Heap limits} (scope : WorldScope)
      (valid : dimension.validBounds = true) (caches : Caches Encodes heap.store) :
      Reached hash (World.withSharedStore dimension scope) heap
  | packet {world : World} {heap : Heap limits} (before : Reached hash world heap) (packet : SharedWorld.Packet)
      (wire : ∀ nbt ∈ packet.nbt, Decoded nbt) :
      Reached hash (SharedWorld.apply hash heap world packet).world (SharedWorld.apply hash heap world packet).heap
  | record {world : World} {heap : Heap limits} (before : Reached hash world heap) (at_ : ChunkCoordinates)
      (record : Int32) :
      Reached hash (world.applyRecord hash heap at_ record).world (world.applyRecord hash heap at_ record).heap
  | others {world : World} {heap after : Heap limits} (before : Reached hash world heap)
      (caches : Caches Encodes after.store) : Reached hash world after

/-- A snapshot of the right height that can be interned. -/
structure Whole (dimension : DimensionType) (s : ChunkSnapshot) : Prop where
  sections : s.sections.length = dimension.sectionCount
  encodes : Encodes s

structure Loaded (world : World) (heap : Heap limits) : Prop where
  valid : world.dimension.validBounds = true
  caches : Caches Encodes heap.store
  chunks : ∀ position chunk, world.payload position = some chunk → Whole world.dimension chunk

theorem Encodes.fingerprint {s : ChunkSnapshot} (encodes : Encodes s) (hash : Bytes → UInt64) :
    ∃ fingerprint, s.fingerprint hash = .ok fingerprint :=
  SharedWorld.fingerprint_ok encodes.heightmaps encodes.entities hash

/-- Replacing one chunk by the next snapshot of it. -/
theorem Loaded.install (loaded : Loaded world heap) (position : ChunkPosition)
    {next : Except MineRiderError ChunkSnapshot} (whole : ∀ s, next = .ok s → Whole world.dimension s) :
    Loaded (world.install hash heap position next).world (world.install hash heap position next).heap := by
  cases next with
  | error e => exact loaded
  | ok s =>
    have new := whole s rfl
    obtain ⟨arc, after, interned, encodes, _, caches⟩ :=
      SharedWorld.intern_ok world loaded.caches new.encodes (new.encodes.fingerprint hash)
    have sections := intern_sections interned
    simp only [World.install, Except.bind, interned]
    refine ⟨loaded.valid, caches, ?_⟩
    intro other chunk found
    rw [SharedWorld.payload_insert] at found
    split_ifs at found with here
    · cases found
      exact ⟨sections ▸ new.sections, encodes⟩
    · exact loaded.chunks other chunk found

theorem times_length {α : Type} {p : ChunkReader α} {count : ℕ} {input rest : Bytes} {items : List α}
    (read : (Reader.times p count).run input = .ok (items, rest)) : items.length = count := by
  induction count generalizing input items with
  | zero =>
    cases read
    rfl
  | succ count ih =>
    obtain ⟨first, middle, _, later⟩ := Reader.run_bind_eq_ok.mp read
    obtain ⟨others, _, more, done⟩ := Reader.run_bind_eq_ok.mp later
    cases done
    rw [length_cons, ih more]

private theorem decode_whole {packet : PacketMapChunk} (heightmaps : Decoded packet.heightmaps)
    (entities : ∀ entity ∈ packet.blockEntities, ∀ nbt ∈ entity.nbtData, Decoded nbt) {dimension : DimensionType}
    {s : ChunkSnapshot} (decoded : ChunkSnapshot.decode packet dimension.sectionCount = .ok s) : Whole dimension s := by
  unfold ChunkSnapshot.decode decodeSections at decoded
  cases read : (Reader.times ChunkSection.decode dimension.sectionCount).run packet.chunkData with
  | error e =>
    simp only [read] at decoded
    cases decoded
  | ok result =>
    simp only [read] at decoded
    split_ifs at decoded
    · cases decoded
    · cases decoded
      refine ⟨times_length read, heightmaps.encodes, ?_⟩
      intro entity member nbt held
      obtain ⟨source, listed, rfl⟩ := mem_map.mp member
      exact (entities source listed nbt held).encodes

theorem Loaded.setBlockState (loaded : Loaded world heap) (x y z : Int32) (state : UInt32) :
    Loaded (world.setBlockState hash heap x y z state).world (world.setBlockState hash heap x y z state).heap := by
  apply loaded.install
  intro s changed
  obtain ⟨chunk, _, _, found, _, _, _, rfl⟩ := nextBlock_ok changed
  have whole := loaded.chunks _ chunk found
  exact ⟨by rw [length_set, whole.sections], whole.encodes.heightmaps, whole.encodes.entities⟩

section

variable (inv : World → Heap limits → Prop)
  (update : ∀ world heap x y z state, inv world heap → inv (world.setBlockState hash heap x y z state).world
    (world.setBlockState hash heap x y z state).heap)
  (before : inv world heap) (at_ : ChunkCoordinates)

include inv update before at_

/-- What block updates keep, a multi-block change keeps. -/
theorem applyRecord_keeps (record : Int32) :
    inv (world.applyRecord hash heap at_ record).world (world.applyRecord hash heap at_ record).heap := by
  unfold World.applyRecord
  split_ifs
  · exact before
  · exact update _ _ _ _ _ _ before

theorem applyRecords_keeps (records : List Int32) :
    inv (world.applyRecords hash heap at_ records).world (world.applyRecords hash heap at_ records).heap := by
  induction records generalizing world heap with
  | nil => exact before
  | cons record rest ih =>
    have first : inv (world.applyRecord hash heap at_ record).world _ := applyRecord_keeps inv update before at_ record
    simp only [World.applyRecords]
    cases (world.applyRecord hash heap at_ record).result with
    | error e => exact first
    | ok done => exact ih first

end

theorem Loaded.apply (loaded : Loaded world heap) {packet : SharedWorld.Packet}
    (wire : ∀ nbt ∈ packet.nbt, Decoded nbt) :
    Loaded (SharedWorld.apply hash heap world packet).world (SharedWorld.apply hash heap world packet).heap := by
  cases packet with
  | mapChunk packet =>
    apply loaded.install
    intro s decoded
    refine decode_whole (wire _ (by simp [SharedWorld.Packet.nbt])) ?_ decoded
    intro entity member nbt held
    refine wire nbt (mem_cons_of_mem _ (mem_filterMap.mpr ⟨entity, member, held⟩))
  | unloadChunk packet =>
    refine ⟨loaded.valid, loaded.caches, ?_⟩
    intro position chunk found
    rw [SharedWorld.apply, SharedWorld.payload_unloadChunk] at found
    split_ifs at found
    exact loaded.chunks position chunk found
  | blockChange packet => exact loaded.setBlockState ..
  | multiBlockChange packet =>
    exact applyRecords_keeps Loaded (fun _ _ _ _ _ _ before => before.setBlockState ..) loaded ..
  | updateLight packet =>
    apply loaded.install
    intro s changed
    cases found : world.payload (packet.chunkX, packet.chunkZ) with
    | none =>
      rw [found] at changed
      cases changed
    | some chunk =>
      rw [found] at changed
      cases changed
      have whole := loaded.chunks _ chunk found
      exact ⟨whole.sections, whole.encodes.heightmaps, whole.encodes.entities⟩
  | tileEntityData packet =>
    apply loaded.install
    intro s changed
    cases found : world.payload (chunkCoordinate packet.location.x, chunkCoordinate packet.location.z) with
    | none =>
      rw [found] at changed
      cases changed
    | some chunk =>
      rw [found] at changed
      cases changed
      have whole := loaded.chunks _ chunk found
      have given : ∀ nbt ∈ packet.nbtData, ∃ bytes, nbt.encode = .ok bytes := by
        intro nbt held
        exact (wire nbt (Option.mem_toList.mpr held)).encodes
      exact ⟨whole.sections, whole.encodes.heightmaps, SharedWorld.nextEntities_all given whole.encodes.entities⟩

theorem Reached.loaded (reached : Reached hash world heap) : Loaded world heap := by
  induction reached with
  | unshared valid caches =>
    exact ⟨valid, caches, fun position chunk found => by simp [World.new, World.payload] at found⟩
  | shared scope valid caches =>
    exact ⟨valid, caches, fun position chunk found => by simp [World.withSharedStore, World.payload] at found⟩
  | packet before packet wire ih => exact ih.apply wire
  | record before at_ record ih =>
    exact applyRecord_keeps Loaded (fun _ _ _ _ _ _ before => before.setBlockState ..) ih at_ record
  | others before caches ih => exact ⟨ih.valid, caches, ih.chunks⟩

/-- In a world filled by packets an update succeeds wherever there is a section to update. -/
theorem setBlockState_ok_iff (hash : Bytes → UInt64) (loaded : Loaded world heap) (x y z : Int32) (state : UInt32) :
    (world.setBlockState hash heap x y z state).result = .ok () ↔ Updatable world x y z := by
  constructor
  · intro done
    obtain ⟨e, failed, _⟩ | ⟨next, arc, changed, _⟩ := setBlockState_cases hash heap world x y z state
    · rw [failed] at done
      cases done
    · obtain ⟨chunk, sec, _, found, nonneg, there, packed, _⟩ := nextBlock_ok changed
      exact ⟨chunk, sec, found, nonneg, there, fun i below =>
        (materializeAndSet_get (blockIndex_lt x y z) packed below).1⟩
  · rintro ⟨chunk, sec, found, nonneg, there, readable⟩
    obtain ⟨blockStates, packed⟩ := materializeAndSet_ok (blockIndex_lt x y z) readable state
    have whole := loaded.chunks _ chunk found
    obtain ⟨next, changed, encodes⟩ : ∃ next, World.nextBlock world.dimension
        (world.payload (chunkCoordinate x, chunkCoordinate z)) x y z state = .ok next ∧ Encodes next := by
      rw [found]
      simp only [World.nextBlock, if_neg (Int32.not_lt.mpr nonneg), there, packed]
      exact ⟨_, rfl, whole.encodes.heightmaps, whole.encodes.entities⟩
    obtain ⟨arc, after, interned, _⟩ := SharedWorld.intern_ok world loaded.caches encodes (encodes.fingerprint hash)
    simp only [World.setBlockState, World.install, changed, Except.bind, interned]

/-- The new state is read back, and nothing else changes, exactly where the dimension's end does not wrap or
there is nothing to update. -/
theorem update_is_read_back_iff (reached : Reached hash world heap) (x y z : Int32) (state : UInt32) :
    (((world.setBlockState hash heap x y z state).result = .ok () →
        (world.setBlockState hash heap x y z state).world.blockState x y z = some state ∧
        ∀ x' y' z', (x', y', z') ≠ (x, y, z) →
          (world.setBlockState hash heap x y z state).world.blockState x' y' z' = world.blockState x' y' z') ∧
      ∀ e, (world.setBlockState hash heap x y z state).result = .error e → ∀ x' y' z',
        (world.setBlockState hash heap x y z state).world.blockState x' y' z' = world.blockState x' y' z') ↔
    Bounded world.dimension ∨ ¬ Updatable world x y z := by
  have loaded := reached.loaded
  have bounds : Updatable world x y z → (Outside world.dimension y ↔ ¬ Bounded world.dimension) := by
    rintro ⟨chunk, sec, found, nonneg, there, _⟩
    obtain ⟨present, _⟩ := List.getElem?_eq_some_iff.mp there
    rw [(loaded.chunks _ chunk found).sections] at present
    exact outside_iff (height_pos loaded.valid) nonneg present
  constructor
  · rintro ⟨success, _⟩
    by_contra neither
    obtain ⟨wraps, updatable⟩ := not_or.mp neither
    have updatable := not_not.mp updatable
    have done := (setBlockState_ok_iff hash loaded x y z state).mpr updatable
    have read := (success done).1
    rw [blockState_updated done, if_pos rfl, if_pos ((bounds updatable).mpr wraps)] at read
    cases read
  · intro condition
    refine ⟨?_, ?_⟩
    · intro done
      have updatable := (setBlockState_ok_iff hash loaded x y z state).mp done
      have inside : ¬ Outside world.dimension y := by
        rw [bounds updatable, not_not]
        exact condition.resolve_right (not_not.mpr updatable)
      refine ⟨?_, ?_⟩
      · rw [blockState_updated done, if_pos rfl, if_neg inside]
      · intro x' y' z' elsewhere
        rw [blockState_updated done, if_neg elsewhere]
    · intro e failed
      obtain ⟨_, _, same⟩ | ⟨_, _, _, _, done, _⟩ := setBlockState_cases hash heap world x y z state
      · intro x' y' z'
        rw [same]
      · rw [failed] at done
        cases done

private theorem take_reached {client : SharedWorld.Client} (reached : Reached hash client.world heap)
    {packet : SharedWorld.Packet} (wire : ∀ nbt ∈ packet.nbt, Decoded nbt) :
    Reached hash (client.take hash heap packet).1.world (client.take hash heap packet).2 := by
  unfold SharedWorld.Client.take
  split
  · exact reached
  · exact reached
  · exact .packet reached _ wire

private theorem resume_reached {client : SharedWorld.Client} (reached : Reached hash client.world heap) :
    Reached hash (client.resume hash heap).1.world (client.resume hash heap).2 := by
  unfold SharedWorld.Client.resume
  split
  · exact reached
  · exact reached
  · next at_ record rest _ =>
    have stepped := Reached.record reached at_ record
    simp only
    split
    · exact stepped
    · exact stepped

/-- A client may join in a valid dimension, and what it takes was read from the wire. -/
def Allowed (event : SharedWorld.Event) : Prop :=
  (∀ nbt ∈ event.nbt, Decoded nbt) ∧
    ∀ id dimension scope, event = .join id dimension scope → dimension.validBounds = true

private theorem reached_stands :
    SharedWorld.Stands hash Encodes (fun client (heap : Heap limits) => Reached hash client.world heap) Allowed where
  others := .others
  join allowed caches := .shared _ (allowed.2 _ _ _ rfl) caches
  take allowed _ reached := ⟨take_reached reached allowed.1, (take_reached reached allowed.1).loaded.caches⟩
  resume _ reached := ⟨resume_reached reached, (resume_reached reached).loaded.caches⟩

/-- The worlds of the clients of one store are reached, however their packets are interleaved. -/
theorem interleaved_worlds_are_reached (events : List {event // Allowed event}) :
    SharedWorld.Inv Encodes (fun client (heap : Heap limits) => Reached hash client.world heap)
      (SharedWorld.System.run hash limits (events.map (·.1))) :=
  reached_stands.run (by simp +contextual)

end Worlds

section Demo

/-- A chunk of one section that is filled with block state 5. -/
def filledChunk : SharedWorld.Packet :=
  .mapChunk ⟨0, 0, .compound [], [0, 0, 0, 5, 0, 0, 0, 0], [], ⟨[], [], [], [], [], []⟩⟩

/-- A private world of the dimension that has loaded the chunk. -/
def filledWorld (dimension : DimensionType) : World.Updated .default :=
  SharedWorld.apply fnv64 (.withLimits .default) (World.new dimension) filledChunk

private theorem filledWorld_reached {dimension : DimensionType} (valid : dimension.validBounds = true) :
    Reached fnv64 (filledWorld dimension).world (filledWorld dimension).heap := by
  refine .packet (.unshared valid (SharedWorld.caches_withLimits Encodes .default)) filledChunk ?_
  have decoded : Decoded (.compound []) := ⟨[10, 0], [], rfl⟩
  simp [filledChunk, SharedWorld.Packet.nbt, decoded]

theorem update_is_read_back_iff_demo :
    ((filledWorld ⟨-64, 16⟩).world.setBlockState fnv64 (filledWorld ⟨-64, 16⟩).heap 3 (-60) 8 4294967295).result =
        .ok () ∧
      ((filledWorld ⟨-64, 16⟩).world.setBlockState fnv64 (filledWorld ⟨-64, 16⟩).heap 3 (-60) 8
        4294967295).world.blockState 3 (-60) 8 = some 4294967295 := by
  have valid : DimensionType.validBounds ⟨-64, 16⟩ = true := by decide +kernel
  have claimed := (update_is_read_back_iff (filledWorld_reached valid) 3 (-60) 8 4294967295).mpr
    (.inl (by unfold Bounded; decide +kernel))
  have updatable : Updatable (filledWorld ⟨-64, 16⟩).world 3 (-60) 8 :=
    ⟨_, _, rfl, by decide +kernel, rfl, fun _ _ => rfl⟩
  have done := (setBlockState_ok_iff fnv64 (filledWorld_reached valid).loaded 3 (-60) 8 4294967295).mpr updatable
  exact ⟨done, (claimed.1 done).1⟩

/-- The last section of the coordinate space: its upper bound wraps, so an accepted block cannot be read. -/
theorem wrapped_update_is_not_read_back :
    DimensionType.validBounds ⟨2147483632, 16⟩ = true ∧
      ((filledWorld ⟨2147483632, 16⟩).world.setBlockState fnv64 (filledWorld ⟨2147483632, 16⟩).heap
        0 2147483632 0 7).result = .ok () ∧
      ((filledWorld ⟨2147483632, 16⟩).world.setBlockState fnv64 (filledWorld ⟨2147483632, 16⟩).heap
        0 2147483632 0 7).world.blockState 0 2147483632 0 = none := by
  have valid : DimensionType.validBounds ⟨2147483632, 16⟩ = true := by decide +kernel
  have loaded := (filledWorld_reached valid).loaded
  have updatable : Updatable (filledWorld ⟨2147483632, 16⟩).world 0 2147483632 0 :=
    ⟨_, _, rfl, by decide +kernel, rfl, fun _ _ => rfl⟩
  have done := (setBlockState_ok_iff fnv64 loaded 0 2147483632 0 7).mpr updatable
  refine ⟨valid, done, ?_⟩
  rw [blockState_updated done, if_pos rfl, if_pos (by unfold Outside; decide +kernel)]

end Demo

end MineRider.Soundness.BlockUpdates
