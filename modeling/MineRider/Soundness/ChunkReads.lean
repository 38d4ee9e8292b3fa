import MineRider.Soundness.BlockUpdates

/-! # Reading an accepted chunk

The decoder checks the number of palette values and of packed words, but not the packed indices. An index
beyond the palette has no value, so `block_state` returns nothing there, and no block of that section can be
updated any more. Besides, nothing is readable in a dimension whose upper bound wraps. These are the only
ways in which a block of an accepted chunk can be missing, then and as long as the chunk stays loaded.
-/

namespace MineRider.Soundness.ChunkReads

open List Model.Core Model.Protocol Model.Minecraft Machine SharedStore Palettes BlockUpdates PalettedContainer Reader
open SharedWorld (Decoded)

section Containers

/-- Every packed index selects a value of the palette. -/
def Resolvable (entries : ℕ) : PalettedContainer → Prop
  | .indirect bits palette data =>
    ∀ i < entries, ∀ index, packedValue bits data i = some index → index.toNat < palette.length
  | _ => True

/-- Every entry has a value. -/
def Readable (entries : ℕ) (container : PalettedContainer) : Prop :=
  ∀ i < entries, (container.get i).isSome = true

/-- There are words for all entries. -/
def Filled (entries : ℕ) (bits : UInt8) (data : List UInt64) : Prop :=
  0 < 64 / bits.toNat ∧ data.length = (entries + 64 / bits.toNat - 1) / (64 / bits.toNat)

variable {entries : ℕ}

theorem Filled.packedValue {bits : UInt8} {data : List UInt64} (filled : Filled entries bits data)
    {i : ℕ} (below : i < entries) : ∃ value, packedValue bits data i = some value := by
  obtain ⟨perWord, length⟩ := filled
  have inside : i / (64 / bits.toNat) < data.length := by
    rw [length, Nat.div_lt_iff_lt_mul perWord]
    have words := Nat.div_add_mod (entries + 64 / bits.toNat - 1) (64 / bits.toNat)
    have last := Nat.mod_lt (entries + 64 / bits.toNat - 1) perWord
    rw [Nat.mul_comm]
    omega
  simp only [Model.Minecraft.packedValue, getElem?_eq_getElem inside]
  exact ⟨_, rfl⟩

/-- What a decoded container consists of. -/
inductive Decodes (entries : ℕ) : PalettedContainer → Prop where
  | single (value : UInt32) : Decodes entries (.single value)
  | indirect {bits : UInt8} (palette : List UInt32) {data : List UInt64} (filled : Filled entries bits data) :
      Decodes entries (.indirect bits palette data)
  | direct {bits : UInt8} {data : List UInt64} (filled : Filled entries bits data) :
      Decodes entries (.direct bits data)

variable {input rest : Bytes}

private theorem decodeData_filled {bits : UInt8} {data : List UInt64}
    (read : (decodeData entries bits).run input = .ok (data, rest)) : Filled entries bits data := by
  unfold decodeData at read
  simp only at read
  split_ifs at read with none
  · cases read
  obtain ⟨longCount, middle, _, later⟩ := run_bind_eq_ok.mp read
  split_ifs at later with different
  · cases later
  · refine ⟨Nat.pos_of_ne_zero none, ?_⟩
    rw [times_length later]
    exact not_not.mp different

private theorem decode_decodes {low high : UInt8} {container : PalettedContainer}
    (read : (decode entries low high).run input = .ok (container, rest)) :
    Decodes entries container := by
  obtain ⟨wireBits, middle, _, later⟩ := run_bind_eq_ok.mp read
  generalize (if wireBits < low then low else wireBits) = bits at later
  split_ifs at later with zero wide few
  · obtain ⟨value, _, _, later⟩ := run_bind_eq_ok.mp later
    obtain ⟨longCount, _, _, later⟩ := run_bind_eq_ok.mp later
    split_ifs at later
    · cases later
    · cases later
      exact .single value
  · cases later
  · obtain ⟨palette, _, _, later⟩ := run_bind_eq_ok.mp later
    obtain ⟨data, _, filled, done⟩ := run_bind_eq_ok.mp later
    cases done
    exact .indirect palette (decodeData_filled filled)
  · obtain ⟨data, _, filled, done⟩ := run_bind_eq_ok.mp later
    cases done
    exact .direct (decodeData_filled filled)

theorem Decodes.readable_iff {container : PalettedContainer} (decodes : Decodes entries container) :
    Readable entries container ↔ Resolvable entries container := by
  cases decodes with
  | single value => exact ⟨fun _ => trivial, fun _ _ _ => rfl⟩
  | indirect palette filled =>
    refine forall₂_congr fun i below => ?_
    obtain ⟨value, packed⟩ := filled.packedValue below
    simp [PalettedContainer.get, packed]
  | direct filled =>
    refine ⟨fun _ => trivial, fun _ i below => ?_⟩
    obtain ⟨value, packed⟩ := filled.packedValue below
    simp [PalettedContainer.get, packed]

private theorem times_forall {α : Type} {p : ChunkReader α} {P : α → Prop}
    (each : ∀ input a rest, p.run input = .ok (a, rest) → P a) {count : ℕ} {items : List α}
    (read : (times p count).run input = .ok (items, rest)) : ∀ a ∈ items, P a := by
  induction count generalizing input items with
  | zero =>
    cases read
    simp
  | succ count ih =>
    obtain ⟨first, middle, head, later⟩ := run_bind_eq_ok.mp read
    obtain ⟨others, _, more, done⟩ := run_bind_eq_ok.mp later
    cases done
    exact forall_mem_cons.mpr ⟨each _ _ _ head, ih more⟩

private theorem section_decodes {sec : ChunkSection}
    (read : ChunkSection.decode.run input = .ok (sec, rest)) : Decodes blocksPerSection sec.blockStates := by
  obtain ⟨nonAirBlocks, _, _, later⟩ := run_bind_eq_ok.mp read
  split_ifs at later
  · cases later
  · obtain ⟨blockStates, _, decoded, later⟩ := run_bind_eq_ok.mp later
    obtain ⟨biomes, _, _, done⟩ := run_bind_eq_ok.mp later
    cases done
    exact decode_decodes decoded

private theorem sections_decode {chunkData : Bytes} {count : ℕ} {sections : List ChunkSection}
    (decoded : decodeSections chunkData count = .ok sections) :
    sections.length = count ∧ ∀ sec ∈ sections, Decodes blocksPerSection sec.blockStates := by
  unfold decodeSections at decoded
  cases read : (times ChunkSection.decode count).run chunkData with
  | error e =>
    rw [read] at decoded
    cases decoded
  | ok result =>
    simp only [read] at decoded
    split_ifs at decoded
    cases decoded
    exact ⟨times_length read, times_forall (fun _ _ _ one => section_decodes one) read⟩

end Containers

section Later

variable {limits : Limits} {hash : Bytes → UInt64} {heap : Heap limits} {world : World}

/-- The packet loads or unloads the chunk at the position. -/
def Replaces (position : ChunkPosition) : SharedWorld.Packet → Prop
  | .mapChunk packet => (packet.x, packet.z) = position
  | .unloadChunk packet => (packet.chunkX, packet.chunkZ) = position
  | _ => False

/-- The worlds after `start` in which the chunk at the position has not been replaced. -/
inductive Later (hash : Bytes → UInt64) (start : World.Updated limits) (position : ChunkPosition) :
    World → Heap limits → Prop where
  | start : Later hash start position start.world start.heap
  | packet {world : World} {heap : Heap limits} (before : Later hash start position world heap)
      (packet : SharedWorld.Packet) (wire : ∀ nbt ∈ packet.nbt, Decoded nbt) (keeps : ¬ Replaces position packet) :
      Later hash start position (SharedWorld.apply hash heap world packet).world
        (SharedWorld.apply hash heap world packet).heap
  | record {world : World} {heap : Heap limits} (before : Later hash start position world heap)
      (at_ : ChunkCoordinates) (record : Int32) :
      Later hash start position (world.applyRecord hash heap at_ record).world
        (world.applyRecord hash heap at_ record).heap
  | others {world : World} {heap after : Heap limits} (before : Later hash start position world heap)
      (caches : Caches Encodes after.store) : Later hash start position world after

theorem Later.reached {start : World.Updated limits} {position : ChunkPosition}
    (reached : Reached hash start.world start.heap) (later : Later hash start position world heap) :
    Reached hash world heap := by
  induction later with
  | start => exact reached
  | packet _ packet wire _ ih => exact .packet ih packet wire
  | record _ at_ record ih => exact .record ih at_ record
  | others _ caches ih => exact .others ih caches

/-- The world holds a chunk of the position with no unreadable block. -/
def Held (position : ChunkPosition) (dimension : DimensionType) (world : World) : Prop :=
  world.dimension = dimension ∧ ∃ chunk, world.payload position = some chunk ∧
    ∀ sec ∈ chunk.sections, Readable blocksPerSection sec.blockStates

variable {position : ChunkPosition} {dimension : DimensionType}

/-- Installing a chunk keeps the position readable if the chunk is for another one or is readable itself. -/
theorem Held.install (held : Held position dimension world) (other : ChunkPosition)
    {next : Except MineRiderError ChunkSnapshot}
    (readable : ∀ s, next = .ok s → position = other → ∀ sec ∈ s.sections, Readable blocksPerSection sec.blockStates) :
    Held position dimension (world.install hash heap other next).world := by
  obtain ⟨same, chunk, found, before⟩ := held
  refine ⟨(SharedWorld.install_dimension ..).trans same, ?_⟩
  cases next with
  | error e => exact ⟨chunk, found, before⟩
  | ok s =>
    simp only [World.install, Except.bind]
    cases interned : world.intern hash heap s with
    | error e => exact ⟨chunk, found, before⟩
    | ok result =>
      obtain ⟨arc, after⟩ := result
      simp only [SharedWorld.payload_insert]
      by_cases here : position = other
      · rw [if_pos here]
        exact ⟨arc.payload, rfl, intern_sections interned ▸ readable s rfl here⟩
      · rw [if_neg here]
        exact ⟨chunk, found, before⟩

theorem Held.setBlockState (held : Held position dimension world) (x y z : Int32) (state : UInt32) :
    Held position dimension (world.setBlockState hash heap x y z state).world := by
  refine held.install _ fun s changed here => ?_
  obtain ⟨_, chunk, found, before⟩ := held
  obtain ⟨_, old, blockStates, current, _, there, packed, rfl⟩ := nextBlock_ok changed
  rw [← here, found] at current
  cases current
  intro sec member
  rcases mem_or_eq_of_mem_set member with kept | rfl
  · exact before sec kept
  · intro i below
    obtain ⟨was, now⟩ := materializeAndSet_get (blockIndex_lt x y z) packed below
    simp only [now]
    split_ifs
    · rfl
    · exact was

theorem Held.apply (held : Held position dimension world) {packet : SharedWorld.Packet}
    (keeps : ¬ Replaces position packet) :
    Held position dimension (SharedWorld.apply hash heap world packet).world := by
  obtain ⟨same, chunk, found, before⟩ := id held
  cases packet with
  | mapChunk packet => exact held.install _ fun s _ here => absurd here.symm keeps
  | unloadChunk packet =>
    refine ⟨same, chunk, ?_, before⟩
    have elsewhere : position ≠ (packet.chunkX, packet.chunkZ) := fun here => keeps here.symm
    rw [SharedWorld.apply, SharedWorld.payload_unloadChunk, if_neg elsewhere, found]
  | blockChange packet => exact held.setBlockState ..
  | multiBlockChange packet =>
    exact applyRecords_keeps (fun world _ => Held position dimension world)
      (fun _ _ _ _ _ _ before => before.setBlockState ..) held ..
  | updateLight packet | tileEntityData packet =>
    refine held.install _ fun s changed here => ?_
    rw [← here, found] at changed
    cases changed
    exact before

theorem Later.held {start : World.Updated limits} (held : Held position dimension start.world)
    (later : Later hash start position world heap) : Held position dimension world := by
  induction later with
  | start => exact held
  | packet _ packet _ keeps ih => exact ih.apply keeps
  | record _ at_ record ih =>
    exact applyRecord_keeps (fun world _ => Held position dimension world)
      (fun _ _ _ _ _ _ before => before.setBlockState ..) ih at_ record
  | others _ _ ih => exact ih

end Later

section Coordinates

/-- The height is inside the dimension. -/
def Inside (dimension : DimensionType) (y : Int32) : Prop :=
  dimension.minY.toInt ≤ y.toInt ∧ y.toInt < dimension.minY.toInt + dimension.height.toInt

/-- There are blocks with 32-bit coordinates in the chunk. -/
def Addressable (chunk : Int32) : Prop := -2 ^ 27 ≤ chunk.toInt ∧ chunk.toInt < 2 ^ 27

private theorem addressable_chunkCoordinate (x : Int32) : Addressable (chunkCoordinate x) := by
  have lower := x.le_toInt
  have upper := x.toInt_lt
  unfold Addressable
  rw [chunkCoordinate_toInt]
  omega

theorem Addressable.exists_block {chunk : Int32} (addressable : Addressable chunk) :
    ∃ x, chunkCoordinate x = chunk := by
  obtain ⟨lower, upper⟩ := addressable
  refine ⟨Int32.ofInt (chunk.toInt * 16), Int32.toInt_inj.mp ?_⟩
  rw [chunkCoordinate_toInt, Int32.toInt_ofInt_of_le (by omega) (by omega)]
  omega

variable {dimension : DimensionType}

private theorem height_mod (valid : dimension.validBounds = true) : dimension.height.toInt % 16 = 0 := by
  have positive := height_pos valid
  unfold DimensionType.validBounds at valid
  simp only [Bool.not_eq_true', Bool.or_eq_false_iff, bne_eq_false_iff_eq] at valid
  have whole := congrArg Int32.toInt valid.1.1.2
  rw [Int32.toInt_mod] at whole
  rwa [Int.tmod_eq_emod_of_nonneg positive.le] at whole

/-- A height inside the dimension is in one of its sections. -/
theorem Inside.section {y : Int32} (inside : Inside dimension y) (valid : dimension.validBounds = true) :
    0 ≤ chunkCoordinate (y - dimension.minY) ∧
      asUsize (chunkCoordinate (y - dimension.minY)) < dimension.sectionCount := by
  obtain ⟨lower, upper⟩ := inside
  have count := sectionCount_eq (height_pos valid)
  have whole := height_mod valid
  have height := dimension.height.toInt_lt
  obtain ⟨k, offset⟩ := sub_toInt y dimension.minY
  have range := And.intro (y - dimension.minY).le_toInt (y - dimension.minY).toInt_lt
  have quotient := chunkCoordinate_toInt (y - dimension.minY)
  have nonneg : 0 ≤ (chunkCoordinate (y - dimension.minY)).toInt := by omega
  have number := asUsize_of_nonneg nonneg
  rw [Int32.le_iff_toInt_le, Int32.toInt_zero]
  omega

/-- Every section has a height inside the dimension. -/
theorem exists_height (valid : dimension.validBounds = true) (bounded : Bounded dimension) {i : ℕ}
    (below : i < dimension.sectionCount) :
    ∃ y, Inside dimension y ∧ asUsize (chunkCoordinate (y - dimension.minY)) = i := by
  have count := sectionCount_eq (height_pos valid)
  have base := And.intro dimension.minY.le_toInt dimension.minY.toInt_lt
  unfold Bounded at bounded
  have value : (Int32.ofInt (dimension.minY.toInt + 16 * i)).toInt = dimension.minY.toInt + 16 * i :=
    Int32.toInt_ofInt_of_le (by omega) (by omega)
  generalize Int32.ofInt (dimension.minY.toInt + 16 * i) = y at value
  have inside : Inside dimension y := by
    unfold Inside
    omega
  refine ⟨y, inside, ?_⟩
  obtain ⟨k, offset⟩ := sub_toInt y dimension.minY
  have range := And.intro (y - dimension.minY).le_toInt (y - dimension.minY).toInt_lt
  have quotient := chunkCoordinate_toInt (y - dimension.minY)
  have nonneg := (inside.section valid).1
  rw [Int32.le_iff_toInt_le, Int32.toInt_zero] at nonneg
  have number := asUsize_of_nonneg nonneg
  omega

end Coordinates

section Main

variable {limits : Limits} {hash : Bytes → UInt64} {heap : Heap limits} {world : World}

/-- Every packed index of the blocks of the chunk selects a value of its palette. -/
def IndicesInPalettes (dimension : DimensionType) (packet : PacketMapChunk) : Prop :=
  ∀ sections, decodeSections packet.chunkData dimension.sectionCount = .ok sections →
    ∀ sec ∈ sections, Resolvable blocksPerSection sec.blockStates

private theorem insertChunk_accepted {packet : PacketMapChunk}
    (accepted : (world.insertChunk hash heap packet).result = .ok ()) :
    ∃ chunk, (world.insertChunk hash heap packet).world.payload (packet.x, packet.z) = some chunk ∧
      decodeSections packet.chunkData world.dimension.sectionCount = .ok chunk.sections := by
  unfold World.insertChunk World.install ChunkSnapshot.decode at accepted ⊢
  cases decoded : decodeSections packet.chunkData world.dimension.sectionCount with
  | error e =>
    simp only [decoded] at accepted
    cases accepted
  | ok sections =>
    simp only [decoded, bind, pure, Except.bind, Except.pure] at accepted ⊢
    split at accepted
    · cases accepted
    · next arc after interned =>
      simp only [SharedWorld.payload_insert, if_pos]
      exact ⟨arc.payload, rfl, by rw [intern_sections interned]⟩

private theorem blockState_of_wraps {dimension : DimensionType} (same : world.dimension = dimension) {y : Int32}
    (valid : dimension.validBounds = true) (wraps : ¬ Bounded dimension) (inside : Inside dimension y) (x z : Int32) :
    world.blockState x y z = none := by
  subst same
  obtain ⟨nonneg, below⟩ := inside.section valid
  rw [blockState_blockOf, if_pos ((outside_iff (height_pos valid) nonneg below).mpr wraps)]

/-- In a world that holds the chunk with no unreadable block, every block can be read and updated. -/
theorem Held.usable {x y z : Int32} {dimension : DimensionType}
    (held : Held (chunkCoordinate x, chunkCoordinate z) dimension world) (loaded : Loaded world heap)
    (bounded : Bounded dimension) (inside : Inside dimension y) :
    (world.blockState x y z).isSome = true ∧
      ∀ state, (world.setBlockState hash heap x y z state).result = .ok () := by
  obtain ⟨rfl, chunk, found, readable⟩ := held
  obtain ⟨nonneg, below⟩ := inside.section loaded.valid
  have present := below
  rw [← (loaded.chunks _ chunk found).sections] at present
  have there := getElem?_eq_getElem present
  have entries := readable _ (getElem_mem present)
  refine ⟨?_, fun state => (setBlockState_ok_iff hash loaded x y z state).mpr ⟨chunk, _, found, nonneg, there, entries⟩⟩
  have inBounds : ¬ Outside world.dimension y := by
    rw [outside_iff (height_pos loaded.valid) nonneg below, not_not]
    exact bounded
  rw [blockState_blockOf, if_neg inBounds, found, Option.bind_some, blockOf, there, Option.bind_some]
  exact entries _ (blockIndex_lt x y z)

/-- Every block of an accepted chunk can be read and updated as long as the chunk is loaded, exactly if the
dimension's end does not wrap and all packed indices are in their palettes, or there are no such blocks. -/
theorem accepted_chunk_is_usable_iff (reached : Reached hash world heap) (packet : PacketMapChunk)
    (wire : ∀ nbt ∈ (SharedWorld.Packet.mapChunk packet).nbt, Decoded nbt)
    (accepted : (world.insertChunk hash heap packet).result = .ok ()) :
    (∀ x y z, chunkCoordinate x = packet.x → chunkCoordinate z = packet.z → Inside world.dimension y →
      ∀ later after, Later hash (world.insertChunk hash heap packet) (packet.x, packet.z) later after →
        (later.blockState x y z).isSome = true ∧
          ∀ state, (later.setBlockState hash after x y z state).result = .ok ()) ↔
    (Addressable packet.x → Addressable packet.z →
      Bounded world.dimension ∧ IndicesInPalettes world.dimension packet) := by
  have reachedAfter :
      Reached hash (world.insertChunk hash heap packet).world (world.insertChunk hash heap packet).heap :=
    .packet reached (.mapChunk packet) wire
  have valid := reached.loaded.valid
  have same : (world.insertChunk hash heap packet).world.dimension = world.dimension :=
    SharedWorld.install_dimension ..
  obtain ⟨chunk, found, decoded⟩ := insertChunk_accepted accepted
  obtain ⟨length, decodes⟩ := sections_decode decoded
  constructor
  · intro usable addressableX addressableZ
    obtain ⟨x, chunkX⟩ := addressableX.exists_block
    obtain ⟨z, chunkZ⟩ := addressableZ.exists_block
    have bounded : Bounded world.dimension := by
      by_contra wraps
      have lowest : Inside world.dimension world.dimension.minY := by
        have positive := height_pos valid
        unfold Inside
        omega
      have read := (usable x _ z chunkX chunkZ lowest _ _ .start).1
      rw [blockState_of_wraps same valid wraps lowest] at read
      cases read
    refine ⟨bounded, fun sections decodedAgain sec member => ?_⟩
    rw [decoded] at decodedAgain
    cases decodedAgain
    -- An update of any block of the section reads all of them.
    obtain ⟨i, present, rfl⟩ := getElem_of_mem member
    obtain ⟨y, inside, index⟩ := exists_height valid bounded (length ▸ present)
    have done := (usable x y z chunkX chunkZ inside _ _ .start).2 0
    obtain ⟨held, sec, payload, _, there, readable⟩ := (setBlockState_ok_iff hash reachedAfter.loaded x y z 0).mp done
    rw [chunkX, chunkZ, found] at payload
    cases payload
    rw [same, index, getElem?_eq_getElem present] at there
    cases there
    exact (decodes _ member).readable_iff.mp readable
  · intro condition x y z chunkX chunkZ inside later after between
    obtain ⟨bounded, inPalettes⟩ :=
      condition (chunkX ▸ addressable_chunkCoordinate x) (chunkZ ▸ addressable_chunkCoordinate z)
    have start : Held (packet.x, packet.z) world.dimension (world.insertChunk hash heap packet).world :=
      ⟨same, chunk, found, fun sec member =>
        (decodes sec member).readable_iff.mpr (inPalettes _ decoded sec member)⟩
    have held := between.held start
    rw [← chunkX, ← chunkZ] at held
    exact held.usable (between.reached reachedAfter).loaded bounded inside

theorem accepted_chunk_is_usable_iff_demo :
    ((filledWorld ⟨-64, 16⟩).world.blockState 3 (-60) 8).isSome = true ∧
      ((filledWorld ⟨-64, 16⟩).world.setBlockState fnv64 (filledWorld ⟨-64, 16⟩).heap 3 (-60) 8 7).result = .ok () := by
  have valid : DimensionType.validBounds ⟨-64, 16⟩ = true := by decide +kernel
  have decoded : Decoded (.compound []) := ⟨[10, 0], [], rfl⟩
  have claimed := accepted_chunk_is_usable_iff
    (.unshared valid (SharedWorld.caches_withLimits Encodes .default) :
      Reached fnv64 (World.new ⟨-64, 16⟩) (.withLimits .default))
    ⟨0, 0, .compound [], [0, 0, 0, 5, 0, 0, 0, 0], [], ⟨[], [], [], [], [], []⟩⟩
    (by simp [SharedWorld.Packet.nbt, decoded]) rfl
  refine (claimed.mpr fun _ _ => ⟨by unfold Bounded; decide +kernel, ?_⟩) 3 (-60) 8 rfl rfl
    (by unfold Inside; decide +kernel) _ _ .start |>.imp_right fun done => done 7
  intro sections read sec member
  cases read
  obtain rfl := mem_singleton.mp member
  trivial

/-- A chunk of one section with one palette value, whose first packed index is one. -/
def danglingChunk : PacketMapChunk :=
  ⟨0, 0, .compound [],
    [0, 0, 4, 1, 0, 128, 2] ++ [0, 0, 0, 0, 0, 0, 0, 1] ++ List.replicate 2040 0 ++ [0, 0, 0], [],
    ⟨[], [], [], [], [], []⟩⟩

def danglingLoaded : World.Updated .default :=
  (World.new ⟨0, 16⟩).insertChunk fnv64 (.withLimits .default) danglingChunk

/-- The first block cannot be read, and no block of the section can be changed. -/
theorem dangling_index_is_accepted :
    DimensionType.validBounds ⟨0, 16⟩ = true ∧ danglingLoaded.result = .ok () ∧
      danglingLoaded.world.blockState 0 0 0 = none ∧
      (danglingLoaded.world.setBlockState fnv64 danglingLoaded.heap 5 9 3 7).result =
        .error (.protocol "invalid palette value at index 0") := by
  decide +kernel

end Main

end MineRider.Soundness.ChunkReads
