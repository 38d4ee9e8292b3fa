import Mathlib.Algebra.Order.Floor.Ring
import Mathlib.Data.Rat.Floor
import Mathlib.Tactic.FieldSimp
import MineRider.Model.Minecraft.CollisionBoxes
import MineRider.Soundness.Collisions

/-! # Which obstacles a scan finds

A scan visits the cells that an area touches, but a box can reach out of the cell of its block: no box of the
tables does so by more than one cell. So a block can stand in the area without being visited only if it is in
the layer of cells around the visited ones. Two blocks never have a box in common, since no two boxes of the
tables differ by whole cells, so the scan is complete exactly if no block of that layer stands in the area.
-/

namespace MineRider.Soundness.CollisionScan

open Int32 List Model.Minecraft Model.Minecraft.CollisionData Collisions Aabb

section Tables

/-- The box reaches at most one cell out of the cell of its block. -/
def nearCell (box : Aabb ℤ) : Bool :=
  -32 ≤ box.minX && -32 ≤ box.minY && -32 ≤ box.minZ && box.maxX ≤ 64 && box.maxY ≤ 64 && box.maxZ ≤ 64

/-- What a box keeps if it is moved by whole cells. -/
def form (box : Aabb ℤ) : ℤ :=
  box.minX % 32 + 64 * (box.minY % 32 + 64 * (box.minZ % 32 + 64 * (box.maxX - box.minX +
    64 * (box.maxY - box.minY + 64 * (box.maxZ - box.minZ)))))

theorem tables_checked :
    (∀ box ∈ distinctBoxes, nearCell box = true) ∧ (distinctBoxes.map form).IsChain (· < ·) ∧
      ⟨0, 0, 0, 32, 32, 32⟩ ∈ distinctBoxes := by
  decide +kernel

private theorem distinctBoxes_near {box : Aabb ℤ} (member : box ∈ distinctBoxes) : nearCell box = true :=
  tables_checked.1 box member

private theorem eq_of_form_eq {a b : Aabb ℤ} (left : a ∈ distinctBoxes) (right : b ∈ distinctBoxes)
    (same : form a = form b) :
    a = b := by
  have distinct : (distinctBoxes.map form).Nodup :=
    (isChain_iff_pairwise.mp tables_checked.2.1).imp ne_of_lt
  exact inj_on_of_nodup_map distinct left right same

private theorem shapeBoxes_subset {box : Aabb ℤ} (member : box ∈ shapeBoxes) : box ∈ distinctBoxes := by
  obtain ⟨place, _, rfl⟩ := mem_map.mp member
  rw [getD_eq_getElem?_getD]
  cases found : distinctBoxes[place]? with
  | none => exact tables_checked.2.2
  | some box => exact mem_of_getElem? found

variable {K : Type} [Field K]

private theorem collisionBoxes_of_entries {state : UInt32} {shape start count : ℕ} {boxes : List (Aabb ℤ)}
    (shape_eq : stateShapes[state.toNat]? = some shape) (range_eq : shapeRanges[shape]? = some (start, count))
    (inside : start + count ≤ shapeBoxes.length) (boxes_eq : (shapeBoxes.drop start).take count = boxes) :
    collisionBoxes state = some (boxes.map (.ofTable : Aabb ℤ → Aabb K)) := by
  simp only [collisionBoxes, shape_eq, range_eq, boxes_eq, Option.bind_eq_bind, Option.bind_some, if_pos inside]

/-- Every box of a block state is a box of the tables. -/
theorem mem_collisionBoxes {state : UInt32} {shapes : List (Aabb K)} (known : collisionBoxes state = some shapes)
    {shape : Aabb K} (member : shape ∈ shapes) : ∃ box ∈ distinctBoxes, shape = .ofTable box := by
  simp only [collisionBoxes, Option.bind_eq_bind, Option.bind_eq_some_iff] at known
  obtain ⟨_, _, ⟨start, count⟩, _, sliced⟩ := known
  split at sliced
  · cases sliced
    obtain ⟨box, inside, rfl⟩ := mem_map.mp member
    exact ⟨box, shapeBoxes_subset (mem_of_mem_drop (mem_of_mem_take inside)), rfl⟩
  · cases sliced

end Tables

section Obstacles

variable {K : Type} [Field K] (world : World)

/-- The boxes of the block at a place, in the coordinates of the world; none if it is not loaded. -/
def obstacles (pos : BlockPos) : List (Aabb K) :=
  (((world.blockState pos.x pos.y pos.z).bind collisionBoxes).getD []).map pos.place

variable {world}

private theorem obstacles_of_loaded (pos : BlockPos) {state : UInt32} {shapes : List (Aabb K)}
    (loaded : world.blockState pos.x pos.y pos.z = some state) (known : collisionBoxes state = some shapes) :
    obstacles world pos = shapes.map pos.place := by
  rw [obstacles, loaded, Option.bind_some, known, Option.getD_some]

private theorem mem_obstacles {pos : BlockPos} {box : Aabb K} (member : box ∈ obstacles world pos) :
    ∃ shape ∈ distinctBoxes, box = pos.place (.ofTable shape) := by
  obtain ⟨shape, inside, rfl⟩ := mem_map.mp member
  generalize standing : (world.blockState pos.x pos.y pos.z).bind (collisionBoxes : UInt32 → Option (List (Aabb K))) =
    shapes at inside
  cases shapes with
  | none => cases inside
  | some shapes =>
    obtain ⟨state, _, known⟩ := Option.bind_eq_some_iff.mp standing
    obtain ⟨tabled, listed, rfl⟩ := mem_collisionBoxes known inside
    exact ⟨tabled, listed, rfl⟩

theorem collectBoxes_cons (pos : BlockPos) {state : UInt32} {shapes : List (Aabb K)}
    (loaded : world.blockState pos.x pos.y pos.z = some state) (known : collisionBoxes state = some shapes)
    (cells : List BlockPos) (out : List (Aabb K)) :
    world.collectBoxes (pos :: cells) out = world.collectBoxes cells (out ++ shapes.map pos.place) := by
  simp only [World.collectBoxes, loaded, known]

/-- A scan that was not cut short has appended the boxes of every block it visited. -/
theorem collectBoxes_eq {cells : List BlockPos} {out boxes : List (Aabb K)}
    (done : world.collectBoxes cells out = .ok (true, boxes)) : boxes = out ++ cells.flatMap (obstacles world) := by
  induction cells generalizing out with
  | nil =>
    cases done
    simp
  | cons pos cells ih =>
    rw [World.collectBoxes] at done
    split at done
    · cases done
    · rename_i state loaded
      split at done
      · cases done
      · rename_i shapes known
        rw [ih done, flatMap_cons, obstacles_of_loaded pos loaded known, append_assoc]

end Obstacles

section Cells

private theorem toInt_saturateI32 (value : ℤ) :
    (saturateI32 value).toInt = max (-2147483648) (min 2147483647 value) := by
  rw [saturateI32, toInt_ofInt_of_le (by omega) (by omega)]

private theorem mem_rangeI32 {low high x : Int32} :
    x ∈ rangeI32 low high ↔ low.toInt ≤ x.toInt ∧ x.toInt < high.toInt := by
  simp only [rangeI32, mem_map, mem_range]
  constructor
  · rintro ⟨offset, inside, rfl⟩
    have below := high.toInt_lt
    have above := low.le_toInt
    rw [toInt_ofInt_of_le (by omega) (by omega)]
    omega
  · rintro ⟨above, below⟩
    refine ⟨(x.toInt - low.toInt).toNat, by omega, ?_⟩
    rw [show low.toInt + ((x.toInt - low.toInt).toNat : ℤ) = x.toInt by omega, ofInt_toInt]

variable {K : Type} [Field K] [LinearOrder K] [FloorRing K]

/-- A coordinate that the loop over one axis visits. -/
def Visited (low high : K) (x : Int32) : Prop := (floorI32 low).toInt ≤ x.toInt ∧ x.toInt < (ceilI32 high).toInt

/-- A coordinate that is visited or next to one that is. -/
def Beside (low high : K) (x : Int32) : Prop :=
  (floorI32 low).toInt - 1 ≤ x.toInt ∧ x.toInt ≤ (ceilI32 high).toInt

def Scanned (area : Aabb K) (pos : BlockPos) : Prop :=
  Visited area.minX area.maxX pos.x ∧ Visited area.minY area.maxY pos.y ∧ Visited area.minZ area.maxZ pos.z

/-- The layer of cells around those that a scan of the area visits. -/
def Rim (area : Aabb K) (pos : BlockPos) : Prop :=
  (Beside area.minX area.maxX pos.x ∧ Beside area.minY area.maxY pos.y ∧ Beside area.minZ area.maxZ pos.z) ∧
    ¬ Scanned area pos

private theorem mem_scannedCells {area : Aabb K} {pos : BlockPos} : pos ∈ scannedCells area ↔ Scanned area pos := by
  obtain ⟨x, y, z⟩ := pos
  simp only [scannedCells, mem_flatMap, mem_map, mem_rangeI32, BlockPos.mk.injEq, Scanned, Visited]
  constructor
  · rintro ⟨_, insideY, _, insideZ, _, insideX, rfl, rfl, rfl⟩
    exact ⟨insideX, insideY, insideZ⟩
  · rintro ⟨insideX, insideY, insideZ⟩
    exact ⟨y, insideY, z, insideZ, x, insideX, rfl, rfl, rfl⟩

end Cells

section Reach

variable {K : Type} [Field K] [LinearOrder K] [IsStrictOrderedRing K]

/-- Two coordinates of placed boxes are equal if they are so counted in 32nds. -/
theorem coordinate_eq_iff (n m p q : ℤ) : (n / (32 : ℕ) + p : K) = m / (32 : ℕ) + q ↔ n + 32 * p = m + 32 * q := by
  rw [← Int.cast_inj (α := K)]
  push_cast
  constructor
  all_goals
    intro same
    linarith

/-- Two blocks have no box in common. -/
theorem place_injective {pos other : BlockPos} {a b : Aabb ℤ} (left : a ∈ distinctBoxes) (right : b ∈ distinctBoxes)
    (same : pos.place (.ofTable a : Aabb K) = other.place (.ofTable b)) : pos = other := by
  simp only [BlockPos.place, moved, ofTable, mk.injEq, coordinate_eq_iff] at same
  obtain rfl : a = b := by
    refine eq_of_form_eq left right ?_
    unfold form
    omega
  have sameX : pos.x = other.x := toInt_inj.mp (by omega)
  have sameY : pos.y = other.y := toInt_inj.mp (by omega)
  have sameZ : pos.z = other.z := toInt_inj.mp (by omega)
  cases pos
  simp_all only

variable [FloorRing K]

private theorem beside_of_touches {low high : K} {x : Int32} {first last : ℤ} (lower : -32 ≤ first) (upper : last ≤ 64)
    (above : low < last / (32 : ℕ) + x.toInt) (below : (first / (32 : ℕ) + x.toInt : K) < high) :
    Beside low high x := by
  have floored : ⌊low⌋ ≤ x.toInt + 1 := by
    have reach : (last / (32 : ℕ) : K) ≤ 2 := by
      rw [div_le_iff₀ (by norm_num)]
      exact_mod_cast upper
    have touched : low < (x.toInt + 2 : ℤ) := by
      push_cast
      linarith
    have := Int.floor_lt.mpr touched
    omega
  have ceiled : x.toInt ≤ ⌈high⌉ := by
    have reach : (-1 : K) ≤ first / (32 : ℕ) := by
      rw [le_div_iff₀ (by norm_num)]
      exact_mod_cast lower
    have touched : ((x.toInt - 1 : ℤ) : K) < high := by
      push_cast
      linarith
    have := Int.lt_ceil.mpr touched
    omega
  have := x.le_toInt
  have := x.toInt_lt
  rw [Beside, floorI32, ceilI32, toInt_saturateI32, toInt_saturateI32]
  omega

private theorem beside_of_overlaps {pos : BlockPos} {shape : Aabb ℤ} {area : Aabb K} (near : nearCell shape = true)
    (overlap : overlaps (pos.place (.ofTable shape)) area = true) :
    Beside area.minX area.maxX pos.x ∧ Beside area.minY area.maxY pos.y ∧ Beside area.minZ area.maxZ pos.z := by
  simp only [nearCell, Bool.and_eq_true, decide_eq_true_eq] at near
  obtain ⟨⟨⟨⟨⟨minX, minY⟩, minZ⟩, maxX⟩, maxY⟩, maxZ⟩ := near
  simp only [overlaps, intersectsX, intersectsY, intersectsZ, BlockPos.place, moved, ofTable,
    Bool.and_eq_true] at overlap
  obtain ⟨⟨onX, onY⟩, onZ⟩ := overlap
  exact ⟨beside_of_touches minX maxX (of_decide_eq_true onX.1) (of_decide_eq_true onX.2),
    beside_of_touches minY maxY (of_decide_eq_true onY.1) (of_decide_eq_true onY.2),
    beside_of_touches minZ maxZ (of_decide_eq_true onZ.1) (of_decide_eq_true onZ.2)⟩

end Reach

section Completeness

variable {K : Type} [Field K] [LinearOrder K] [IsStrictOrderedRing K] [FloorRing K]

/-- A scan that was not cut short has collected every box that stands in the area exactly if no block around the
visited cells reaches into it. -/
theorem scan_is_complete_iff {world : World} {area : Aabb K} {out collected : List (Aabb K)}
    (done : world.collisionBoxes area out = .ok (true, out ++ collected)) :
    (∀ pos, ∀ box ∈ obstacles world pos, overlaps box area = true → box ∈ collected) ↔
      ∀ pos, Rim area pos → ∀ box ∈ obstacles world pos, overlaps box area = false := by
  have collected_eq : collected = (scannedCells area).flatMap (obstacles world) :=
    append_cancel_left (collectBoxes_eq done)
  constructor
  · rintro complete pos ⟨-, unvisited⟩ box standing
    by_contra overlap
    have found := complete pos box standing (by simpa using overlap)
    rw [collected_eq] at found
    -- The block it was collected from has this box too, so it is the same block.
    obtain ⟨other, visited, shared⟩ := mem_flatMap.mp found
    obtain ⟨shape, listed, rfl⟩ := mem_obstacles standing
    obtain ⟨otherShape, otherListed, same⟩ := mem_obstacles shared
    obtain rfl := place_injective listed otherListed same
    exact unvisited (mem_scannedCells.mp visited)
  · intro rimClear pos box standing overlap
    by_cases visited : Scanned area pos
    · rw [collected_eq]
      exact mem_flatMap.mpr ⟨pos, mem_scannedCells.mpr visited, standing⟩
    · obtain ⟨shape, listed, rfl⟩ := mem_obstacles standing
      have beside := beside_of_overlaps (distinctBoxes_near listed) overlap
      rw [rimClear pos ⟨beside, visited⟩ _ standing] at overlap
      cases overlap

end Completeness

section Demo

def air : UInt32 := 0

/-- A fence post without neighbours. -/
def fence : UInt32 := 6015

/-- The post is one block and a half high. -/
def post : Aabb ℤ := ⟨12, 0, 12, 20, 48, 20⟩

private theorem air_and_fence_entries :
    stateShapes[air.toNat]? = some 0 ∧ stateShapes[fence.toNat]? = some 87 ∧ shapeRanges[0]? = some (0, 0) ∧
      shapeRanges[87]? = some (164, 1) ∧ (shapeBoxes.drop 164).take 1 = [post] := by
  decide +kernel

private theorem collisionBoxes_air :
    collisionBoxes air = some (([] : List (Aabb ℤ)).map (.ofTable : Aabb ℤ → Aabb ℚ)) := by
  obtain ⟨shape_eq, _, range_eq, _, _⟩ := air_and_fence_entries
  exact collisionBoxes_of_entries shape_eq range_eq (Nat.zero_le _) rfl

private theorem collisionBoxes_fence : collisionBoxes fence = some ([post].map (.ofTable : Aabb ℤ → Aabb ℚ)) := by
  obtain ⟨_, shape_eq, _, range_eq, boxes_eq⟩ := air_and_fence_entries
  refine collisionBoxes_of_entries shape_eq range_eq ?_ boxes_eq
  have slice := congrArg List.length boxes_eq
  rw [length_take, length_drop, length_singleton] at slice
  omega

/-- A chunk of two sections, the lower one full of fence posts and the upper one of air. -/
def fenceChunk : PacketMapChunk :=
  ⟨0, 0, .compound [], [0, 0, 0, 255, 46, 0, 0, 0, 0, 0, 0, 0, 0, 0, 0, 0, 0], [], ⟨[], [], [], [], [], []⟩⟩

def fenceLoaded : World.Updated .default :=
  (World.new ⟨0, 32⟩).insertChunk fnv64 (.withLimits .default) fenceChunk

/-- The two topmost posts, the air above them and the blocks around the lower one, where they are loaded. -/
theorem fenceLoaded_blocks :
    fenceLoaded.world.blockState 0 14 0 = some fence ∧ fenceLoaded.world.blockState 0 15 0 = some fence ∧
      fenceLoaded.world.blockState 0 16 0 = some air ∧
      ((rangeI32 (-1) 2).all fun x => (rangeI32 13 16).all fun y => (rangeI32 (-1) 2).all fun z =>
        decide (fenceLoaded.world.blockState x y z = none ∨
          fenceLoaded.world.blockState x y z = some fence)) = true := by
  decide +kernel

/-- A slice of the air above the topmost fence post, which the post reaches into. -/
def aboveFence : Aabb ℚ := ⟨1 / 4, 161 / 10, 1 / 4, 3 / 4, 164 / 10, 3 / 4⟩

private theorem obstacles_fence (pos : BlockPos)
    (fenced : fenceLoaded.world.blockState pos.x pos.y pos.z = some fence) :
    obstacles fenceLoaded.world pos = [pos.place (.ofTable post : Aabb ℚ)] :=
  obstacles_of_loaded pos fenced collisionBoxes_fence

/-- A slice of one fence post, above the end of the post below. -/
def insideFence : Aabb ℚ := ⟨1 / 4, 146 / 10, 1 / 4, 3 / 4, 149 / 10, 3 / 4⟩

/-- Around the slice every block is a fence post, if it is loaded. -/
theorem fences_around : ∀ x ∈ rangeI32 (-1) 2, ∀ y ∈ rangeI32 13 16, ∀ z ∈ rangeI32 (-1) 2,
    fenceLoaded.world.blockState x y z = none ∨ fenceLoaded.world.blockState x y z = some fence := by
  obtain ⟨_, _, _, all⟩ := fenceLoaded_blocks
  simpa only [all_eq_true, decide_eq_true_eq] using all

private theorem posts_apart : ∀ x ∈ rangeI32 (-1) 2, ∀ y ∈ rangeI32 13 16, ∀ z ∈ rangeI32 (-1) 2,
    BlockPos.mk x y z ∈ scannedCells insideFence ∨
      overlaps ((BlockPos.mk x y z).place (.ofTable post)) insideFence = false := by
  have all : ((rangeI32 (-1) 2).all fun x => (rangeI32 13 16).all fun y => (rangeI32 (-1) 2).all fun z =>
      decide (BlockPos.mk x y z ∈ scannedCells insideFence ∨
        overlaps ((BlockPos.mk x y z).place (.ofTable post)) insideFence = false)) = true := by
    decide +kernel
  simpa only [all_eq_true, decide_eq_true_eq] using all

private theorem mem_rangeI32_of_beside {low high : ℚ} {x : Int32} (beside : Beside low high x) {first last : Int32}
    (lower : first.toInt ≤ (floorI32 low).toInt - 1) (upper : (ceilI32 high).toInt < last.toInt) :
    x ∈ rangeI32 first last :=
  mem_rangeI32.mpr ⟨lower.trans beside.1, beside.2.trans_lt upper⟩

theorem scan_is_complete_iff_demo :
    fenceLoaded.world.collisionBoxes insideFence [] = .ok (true, [] ++ [(BlockPos.mk 0 14 0).place (.ofTable post)]) ∧
      ∀ pos, ∀ box ∈ obstacles fenceLoaded.world pos, overlaps box insideFence = true →
        box ∈ [(BlockPos.mk 0 14 0).place (.ofTable post)] := by
  have done : fenceLoaded.world.collisionBoxes insideFence [] =
      .ok (true, [] ++ [(BlockPos.mk 0 14 0).place (.ofTable post)]) := by
    have cells : scannedCells insideFence = [⟨0, 14, 0⟩] := by decide +kernel
    rw [World.collisionBoxes, cells, collectBoxes_cons ⟨0, 14, 0⟩ fenceLoaded_blocks.1 collisionBoxes_fence]
    rfl
  refine ⟨done, (scan_is_complete_iff done).mpr fun pos rim box standing => ?_⟩
  obtain ⟨⟨besideX, besideY, besideZ⟩, unvisited⟩ := rim
  have onX : pos.x ∈ rangeI32 (-1) 2 := mem_rangeI32_of_beside besideX (by decide +kernel) (by decide +kernel)
  have onY : pos.y ∈ rangeI32 13 16 := mem_rangeI32_of_beside besideY (by decide +kernel) (by decide +kernel)
  have onZ : pos.z ∈ rangeI32 (-1) 2 := mem_rangeI32_of_beside besideZ (by decide +kernel) (by decide +kernel)
  rcases fences_around pos.x onX pos.y onY pos.z onZ with unloaded | fenced
  · rw [obstacles, unloaded] at standing
    cases standing
  · rw [obstacles_fence pos fenced] at standing
    obtain rfl := mem_singleton.mp standing
    exact (posts_apart pos.x onX pos.y onY pos.z onZ).resolve_left fun visited =>
      unvisited (mem_scannedCells.mp visited)

/-- The post of the cell below reaches into the area, and is missed. -/
theorem fence_is_missed :
    fenceLoaded.result = .ok () ∧ fenceLoaded.world.blockState 0 15 0 = some fence ∧
      fenceLoaded.world.collisionBoxes aboveFence [] = .ok (true, []) ∧
      ∃ box ∈ obstacles fenceLoaded.world ⟨0, 15, 0⟩, overlaps box aboveFence = true := by
  obtain ⟨_, topmost, above, _⟩ := fenceLoaded_blocks
  refine ⟨by decide +kernel, topmost, ?_, (BlockPos.mk 0 15 0).place (.ofTable post), ?_, by decide +kernel⟩
  · have cells : scannedCells aboveFence = [⟨0, 16, 0⟩] := by decide +kernel
    rw [World.collisionBoxes, cells, collectBoxes_cons ⟨0, 16, 0⟩ above collisionBoxes_air]
    rfl
  · rw [obstacles_fence ⟨0, 15, 0⟩ topmost]
    exact mem_singleton_self _

end Demo

end MineRider.Soundness.CollisionScan
