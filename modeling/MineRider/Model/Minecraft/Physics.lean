import Mathlib.Algebra.Order.Field.Basic
import Mathlib.Algebra.Order.Floor.Defs

/-! # Collision of boxes

Movement of a box between the boxes of the blocks around it, with exact numbers for the source's floats.
The vertical axis is resolved first, then the longer of the two horizontal ones. What the standard library
computes on floats and a field does not is given by `Numbers`, together with the number that a bit pattern
stands for.
-/

namespace MineRider.Model.Minecraft

/-- The float functions of the standard library, on exact numbers. -/
structure Numbers (K : Type) where
  f32 : UInt32 → K
  f64 : UInt64 → K
  pi : K
  sin : K → K
  sqrt : K → K
  atan2 : K → K → K

variable {K : Type} [Field K] [LinearOrder K]

/-- The number `digits` with `places` decimal places. -/
def decimal (digits places : ℕ) : K := digits / 10 ^ places

section Trigonometry

variable [FloorRing K]

/-- The cast of a whole number to `i32`, which saturates. -/
def saturateI32 (value : ℤ) : Int32 := .ofInt (max (-2147483648) (min 2147483647 value))

/-- `floor() as i32` -/
def floorI32 (value : K) : Int32 := saturateI32 ⌊value⌋

/-- `as i32`, which drops the fraction. -/
def truncI32 (value : K) : Int32 := saturateI32 (if 0 ≤ value then ⌊value⌋ else ⌈value⌉)

/-- The entry of the sine table that a scaled angle selects. -/
def sinTable (numbers : Numbers K) (scaled : K) : K :=
  let index := ((truncI32 scaled).toInt % 65536).toNat
  numbers.sin (index * numbers.pi * 2 / 65536)

def mcSin (numbers : Numbers K) (radians : K) : K := sinTable numbers (radians * (10430378 / 1000))

def mcCos (numbers : Numbers K) (radians : K) : K := sinTable numbers (radians * (10430378 / 1000) + 16384)

def toRadians (numbers : Numbers K) (degrees : K) : K := degrees * (numbers.pi / 180)

def toDegrees (numbers : Numbers K) (radians : K) : K := radians * (180 / numbers.pi)

end Trigonometry

section Boxes

structure Vec3 (K : Type) where
  x : K
  y : K
  z : K
deriving DecidableEq, Repr

structure Aabb (K : Type) where
  minX : K
  minY : K
  minZ : K
  maxX : K
  maxY : K
  maxZ : K
deriving DecidableEq, Repr

namespace Aabb

def moved (box : Aabb K) (x y z : K) : Aabb K :=
  ⟨box.minX + x, box.minY + y, box.minZ + z, box.maxX + x, box.maxY + y, box.maxZ + z⟩

/-- Grows a box in the direction of a movement. -/
def expandTowards (box : Aabb K) (dx dy dz : K) : Aabb K :=
  ⟨box.minX + min dx 0, box.minY + min dy 0, box.minZ + min dz 0,
    box.maxX + max dx 0, box.maxY + max dy 0, box.maxZ + max dz 0⟩

def intersectsX (a b : Aabb K) : Bool := a.maxX > b.minX && a.minX < b.maxX
def intersectsY (a b : Aabb K) : Bool := a.maxY > b.minY && a.minY < b.maxY
def intersectsZ (a b : Aabb K) : Bool := a.maxZ > b.minZ && a.minZ < b.maxZ

def intersectsXz (a b : Aabb K) : Bool := intersectsX a b && intersectsZ a b
def intersectsYz (a b : Aabb K) : Bool := intersectsY a b && intersectsZ a b
def intersectsXy (a b : Aabb K) : Bool := intersectsX a b && intersectsY a b

end Aabb

end Boxes

section Clipping

/-- What one box leaves of a movement along one axis. -/
def clipStep (touches : Aabb K → Aabb K → Bool) (low high : Aabb K → K) (box : Aabb K) (movement : K)
    (shape : Aabb K) : K :=
  if touches box shape then
    if movement > 0 ∧ high box ≤ low shape then min movement (low shape - high box)
    else if movement < 0 ∧ low box ≥ high shape then max movement (high shape - low box)
    else movement
  else movement

def clipX (box : Aabb K) (movement : K) (boxes : List (Aabb K)) : K :=
  boxes.foldl (clipStep Aabb.intersectsYz Aabb.minX Aabb.maxX box) movement

/-- The first loop of `clip_movement`. -/
def clipY (box : Aabb K) (movement : K) (boxes : List (Aabb K)) : K :=
  boxes.foldl (clipStep Aabb.intersectsXz Aabb.minY Aabb.maxY box) movement

def clipZ (box : Aabb K) (movement : K) (boxes : List (Aabb K)) : K :=
  boxes.foldl (clipStep Aabb.intersectsXy Aabb.minZ Aabb.maxZ box) movement

def clipMovement (box : Aabb K) (movement : Vec3 K) (boxes : List (Aabb K)) : Vec3 K :=
  let y := clipY box movement.y boxes
  let moved := box.moved 0 y 0
  if |movement.x| < |movement.z| then
    let z := clipZ moved movement.z boxes
    ⟨clipX (moved.moved 0 0 z) movement.x boxes, y, z⟩
  else
    let x := clipX moved movement.x boxes
    ⟨x, y, clipZ (moved.moved x 0 0) movement.z boxes⟩

structure CollisionResult (K : Type) where
  movement : Vec3 K
  horizontalCollision : Bool
  verticalCollision : Bool
  onGround : Bool
deriving DecidableEq, Repr

def collisionResult (movement requested : Vec3 K) : CollisionResult K where
  movement := movement
  horizontalCollision := movement.x ≠ requested.x ∨ movement.z ≠ requested.z
  verticalCollision := movement.y ≠ requested.y
  onGround := movement.y ≠ requested.y ∧ requested.y < 0

/-- The plain collision case, without step-up. -/
def collide (box : Aabb K) (movement : Vec3 K) (boxes : List (Aabb K)) : CollisionResult K :=
  collisionResult (clipMovement box movement boxes) movement

def vecAdd (a b : Vec3 K) : Vec3 K := ⟨a.x + b.x, a.y + b.y, a.z + b.z⟩

def horizontalSqr (v : Vec3 K) : K := v.x * v.x + v.z * v.z

/-- The better of the two ways up a step: the whole move lifted, or the lift first and the move from there. -/
def stepUp (box : Aabb K) (movement : Vec3 K) (stepHeight : K) (boxes : List (Aabb K)) : Vec3 K :=
  let stepped := clipMovement box ⟨movement.x, stepHeight, movement.z⟩ boxes
  let lift := clipMovement (box.expandTowards movement.x 0 movement.z) ⟨0, stepHeight, 0⟩ boxes
  if lift.y < stepHeight then
    let afterLift := vecAdd (clipMovement (box.moved lift.x lift.y lift.z) ⟨movement.x, 0, movement.z⟩ boxes) lift
    if horizontalSqr afterLift > horizontalSqr stepped then afterLift else stepped
  else stepped

def collideWithStep (box : Aabb K) (movement : Vec3 K) (stepHeight : K) (onGround : Bool) (boxes : List (Aabb K)) :
    CollisionResult K :=
  let base := clipMovement box movement boxes
  let blockedHorizontally := base.x ≠ movement.x ∨ base.z ≠ movement.z
  let verticalBelow := base.y ≠ movement.y ∧ movement.y < 0
  let stepped := stepUp box movement stepHeight boxes
  if stepHeight > 0 ∧ (onGround = true ∨ verticalBelow) ∧ blockedHorizontally ∧
      horizontalSqr stepped > horizontalSqr base then
    -- Settles back down onto the surface it has stepped up to.
    let settle := clipMovement (box.moved stepped.x stepped.y stepped.z) ⟨0, -stepped.y + movement.y, 0⟩ boxes
    collisionResult (vecAdd stepped settle) movement
  else collisionResult base movement

end Clipping

section Friction

def defaultFriction : K := 6 / 10

/-- `FRICTION_OVERRIDES`: the ice family, blue ice and slime. -/
def frictionOverrides : List (UInt32 × UInt32 × K) :=
  [(5949, 5949, 98 / 100), (11243, 11243, 8 / 10), (11625, 11625, 98 / 100), (13552, 13555, 98 / 100),
    (13954, 13954, 989 / 1000)]

def blockFriction (stateId : UInt32) : K :=
  match frictionOverrides.find? fun (lo, hi, _) => stateId ≥ lo && stateId ≤ hi with
  | some (_, _, friction) => friction
  | none => defaultFriction

end Friction

end MineRider.Model.Minecraft
