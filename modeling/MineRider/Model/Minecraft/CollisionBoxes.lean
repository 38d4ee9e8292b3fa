import MineRider.Model.Minecraft.CollisionData
import MineRider.Model.Minecraft.Player

/-! # The obstacles of an area

A block has the boxes that the generated tables give for its state, moved to its place. An area is scanned
cell by cell, from the cell of its lowest corner up to that of its highest one, and the boxes of the blocks in
these cells are collected. The scan ends early at a block that is not loaded, and fails at one of an unknown
state.
-/

namespace MineRider.Model.Minecraft

open Model.Core

variable {K : Type} [Field K] [LinearOrder K] [FloorRing K]

section Tables

/-- A box of the tables, whose coordinates are counted in 32nds. -/
def Aabb.ofTable (box : Aabb ℤ) : Aabb K :=
  let coordinate (n : ℤ) : K := n / (32 : ℕ)
  ⟨coordinate box.minX, coordinate box.minY, coordinate box.minZ,
    coordinate box.maxX, coordinate box.maxY, coordinate box.maxZ⟩

/-- The boxes of a block state, in the coordinates of its block. -/
def collisionBoxes (stateId : UInt32) : Option (List (Aabb K)) := do
  let shape ← CollisionData.stateShapes[stateId.toNat]?
  let (start, count) ← CollisionData.shapeRanges[shape]?
  if start + count ≤ CollisionData.shapeBoxes.length then
    some (((CollisionData.shapeBoxes.drop start).take count).map .ofTable)
  else none

end Tables

section Scan

/-- `ceil() as i32` -/
def ceilI32 (value : K) : Int32 := saturateI32 ⌈value⌉

/-- The numbers of the range `low..high`. -/
def rangeI32 (low high : Int32) : List Int32 :=
  (List.range (high.toInt - low.toInt).toNat).map fun (offset : ℕ) => .ofInt (low.toInt + offset)

/-- The place of a block. -/
structure BlockPos where
  x : Int32
  y : Int32
  z : Int32
deriving DecidableEq, Repr

/-- The cells that the three nested loops visit, in their order. -/
def scannedCells (area : Aabb K) : List BlockPos :=
  (rangeI32 (floorI32 area.minY) (ceilI32 area.maxY)).flatMap fun y =>
    (rangeI32 (floorI32 area.minZ) (ceilI32 area.maxZ)).flatMap fun z =>
      (rangeI32 (floorI32 area.minX) (ceilI32 area.maxX)).map fun x => ⟨x, y, z⟩

/-- A box of the block at a place, in the coordinates of the world. -/
def BlockPos.place (pos : BlockPos) (shape : Aabb K) : Aabb K := shape.moved pos.x.toInt pos.y.toInt pos.z.toInt

namespace World

/-- The rest of the loop, over the cells still to visit. The result is `false` at a block that is not loaded. -/
def collectBoxes (world : World) : List BlockPos → List (Aabb K) → Except MineRiderError (Bool × List (Aabb K))
  | [], out => .ok (true, out)
  | pos :: cells, out =>
    match world.blockState pos.x pos.y pos.z with
    | none => .ok (false, out)
    | some state =>
      match collisionBoxes state with
      | none => .error (.protocol s!"unknown block state id {state}")
      | some shapes => collectBoxes world cells (out ++ shapes.map pos.place)

/-- `World::collision_boxes`, which appends to `out`. -/
def collisionBoxes (world : World) (area : Aabb K) (out : List (Aabb K)) :
    Except MineRiderError (Bool × List (Aabb K)) :=
  world.collectBoxes (scannedCells area) out

end World

end Scan

end MineRider.Model.Minecraft
