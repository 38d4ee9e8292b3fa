import MineRider.Model.Minecraft.Control
import MineRider.Model.Minecraft.Physics
import MineRider.Model.Minecraft.World

/-! # The local player

Position, vitals and the physics of the client's own player, with exact numbers for the floats of its
position, rotation and velocity. The player keeps a copy of what it last reported to the server, and every
tick compares itself with that copy to choose the movement packet. Vitals and movement keys are bit patterns.
What a world is, beyond the questions the player asks of it, is left open.
-/

namespace MineRider.Model.Minecraft

open Model.Core

/-- What a tick asks of a world. The boxes are `none` if the area reaches terrain that is not loaded. -/
structure Terrain (K W : Type) where
  hasChunk : W → Int32 → Int32 → Bool
  blockState : W → Int32 → Int32 → Int32 → Option UInt32
  collisionBoxes : W → Aabb K → Except MineRiderError (Option (List (Aabb K)))

section Packets

variable {K : Type}

/-- The fields of a position packet that may be relative to the present value. -/
inductive Relative where
  | x
  | y
  | z
  | yaw
  | pitch
  | dx
  | dy
  | dz
deriving DecidableEq, Repr

def Relative.mask : Relative → UInt32
  | .x => 0x1
  | .y => 0x2
  | .z => 0x4
  | .yaw => 0x8
  | .pitch => 0x10
  | .dx => 0x20
  | .dy => 0x40
  | .dz => 0x80

structure PositionUpdateRelatives where
  bits : UInt32
deriving DecidableEq, Repr

def PositionUpdateRelatives.contains (flags : PositionUpdateRelatives) (flag : Relative) : Bool :=
  flags.bits &&& flag.mask != 0

structure PacketPosition (K : Type) where
  teleportId : Int32
  x : K
  y : K
  z : K
  dx : K
  dy : K
  dz : K
  yaw : K
  pitch : K
  flags : PositionUpdateRelatives
deriving DecidableEq, Repr

structure PacketUpdateHealth where
  health : UInt32
  food : Int32
  foodSaturation : UInt32
deriving DecidableEq, Repr

structure PacketExperience where
  experienceBar : UInt32
  level : Int32
  totalExperience : Int32
deriving DecidableEq, Repr

structure MovementFlags where
  onGround : Bool
  hasHorizontalCollision : Bool
deriving DecidableEq, Repr

inductive MovementPacket (K : Type) where
  | positionLook (x y z yaw pitch : K) (flags : MovementFlags)
  | position (x y z : K) (flags : MovementFlags)
  | look (yaw pitch : K) (flags : MovementFlags)
  | statusOnly (flags : MovementFlags)
deriving DecidableEq, Repr

end Packets

section Position

structure PlayerPosition (K : Type) where
  x : K
  y : K
  z : K
  yaw : K
  pitch : K
deriving DecidableEq, Repr

variable {K : Type} [Field K]

/-- A value that is set, or added to the present one. -/
def relativeTo (flags : PositionUpdateRelatives) (flag : Relative) (current value : K) : K :=
  if flags.contains flag then current + value else value

namespace PlayerPosition

def origin : PlayerPosition K := ⟨0, 0, 0, 0, 0⟩

def apply (position : PlayerPosition K) (p : PacketPosition K) : PlayerPosition K where
  x := relativeTo p.flags .x position.x p.x
  y := relativeTo p.flags .y position.y p.y
  z := relativeTo p.flags .z position.z p.z
  yaw := relativeTo p.flags .yaw position.yaw p.yaw
  pitch := relativeTo p.flags .pitch position.pitch p.pitch

end PlayerPosition

end Position

structure LocalPlayer (K : Type) where
  entityId : Option Int32
  position : PlayerPosition K
  health : UInt32
  food : Int32
  saturation : UInt32
  xpBar : UInt32
  xpLevel : Int32
  totalExperience : Int32
  loaded : Bool
  onGround : Bool
  horizontalCollision : Bool
  velocity : Vec3 K
  input : MovementInput
  jumpDelay : ℕ
  /-- `x_last` to `pitch_last` -/
  last : PlayerPosition K
  /-- `last_on_ground` and `last_horizontal_collision` -/
  lastFlags : MovementFlags
  positionReminder : ℕ
deriving DecidableEq, Repr

def MovementInput.none : MovementInput := ⟨zeroF32, zeroF32, false, false, false⟩

def positionReminderInterval : ℕ := 20

namespace LocalPlayer

variable {K W : Type} [Field K]

def twentyF32 : UInt32 := 0x41A00000
def fiveF32 : UInt32 := 0x40A00000

def new : LocalPlayer K where
  entityId := none
  position := .origin
  health := twentyF32
  food := 20
  saturation := fiveF32
  xpBar := zeroF32
  xpLevel := 0
  totalExperience := 0
  loaded := false
  onGround := false
  horizontalCollision := false
  velocity := ⟨0, 0, 0⟩
  input := .none
  jumpDelay := 0
  last := .origin
  lastFlags := ⟨false, false⟩
  positionReminder := 0

/-- A NaN is not alive. -/
def isAlive (player : LocalPlayer K) : Bool := ltF32 zeroF32 player.health

section Clientbound

def onLogin (player : LocalPlayer K) (entityId : Int32) : LocalPlayer K :=
  { player with entityId := some entityId, loaded := false }

def onRespawn (player : LocalPlayer K) : LocalPlayer K :=
  { player with loaded := false, velocity := ⟨0, 0, 0⟩, onGround := false, horizontalCollision := false }

def onPosition (player : LocalPlayer K) (p : PacketPosition K) : LocalPlayer K :=
  { player with
    position := player.position.apply p,
    velocity := ⟨relativeTo p.flags .dx player.velocity.x p.dx, relativeTo p.flags .dy player.velocity.y p.dy,
      relativeTo p.flags .dz player.velocity.z p.dz⟩ }

def applyVelocity (player : LocalPlayer K) (velocity : Vec3 K) : LocalPlayer K := { player with velocity }

def onHealth (player : LocalPlayer K) (p : PacketUpdateHealth) : LocalPlayer K :=
  { player with health := p.health, food := p.food, saturation := p.foodSaturation }

def onExperience (player : LocalPlayer K) (p : PacketExperience) : LocalPlayer K :=
  { player with xpBar := p.experienceBar, xpLevel := p.level, totalExperience := p.totalExperience }

end Clientbound

section Reports

def flags (player : LocalPlayer K) : MovementFlags := ⟨player.onGround, player.horizontalCollision⟩

def syncMovementBaseline (player : LocalPlayer K) : LocalPlayer K :=
  { player with last := player.position, lastFlags := player.flags, positionReminder := 0 }

def markLoaded (player : LocalPlayer K) : LocalPlayer K := { player with loaded := true }.syncMovementBaseline

/-- The full report that follows the confirmation of a teleport. -/
def teleportAckMovement (player : LocalPlayer K) : MovementPacket K × LocalPlayer K :=
  let here := player.position
  (.positionLook here.x here.y here.z here.yaw here.pitch player.flags, player.syncMovementBaseline)

/-- The squared distance between two positions. -/
def distanceSqr (a b : PlayerPosition K) : K :=
  let dx := a.x - b.x
  let dy := a.y - b.y
  let dz := a.z - b.z
  dx * dx + dy * dy + dz * dz

def positionEpsilonSquared : K := decimal 2 4 * decimal 2 4

variable [LinearOrder K]

/-- Whether this tick reports the position; the tick itself is counted. -/
def positionChanged (player : LocalPlayer K) : Bool :=
  distanceSqr player.position player.last > positionEpsilonSquared ∨
    player.positionReminder + 1 ≥ positionReminderInterval

def rotationChanged (player : LocalPlayer K) : Bool :=
  player.position.yaw - player.last.yaw ≠ 0 ∨ player.position.pitch - player.last.pitch ≠ 0

/-- The packet of a tick. -/
def chooseMovement (player : LocalPlayer K) : Option (MovementPacket K) :=
  let here := player.position
  match player.positionChanged, player.rotationChanged with
  | true, true => some (.positionLook here.x here.y here.z here.yaw here.pitch player.flags)
  | true, false => some (.position here.x here.y here.z player.flags)
  | false, true => some (.look here.yaw here.pitch player.flags)
  | false, false => if player.flags ≠ player.lastFlags then some (.statusOnly player.flags) else none

def movementPacket (player : LocalPlayer K) : Option (MovementPacket K) × LocalPlayer K :=
  if player.loaded then
    let here := player.position
    let last :=
      if player.positionChanged then { player.last with x := here.x, y := here.y, z := here.z } else player.last
    (player.chooseMovement,
      { player with
        last := if player.rotationChanged then { last with yaw := here.yaw, pitch := here.pitch } else last,
        lastFlags := player.flags,
        positionReminder := if player.positionChanged then 0 else player.positionReminder + 1 })
  else (none, player)

end Reports

section Physics

variable [LinearOrder K] [FloorRing K]

def gravity : K := decimal 8 2
def verticalDrag : K := decimal 98 2
def baseDrag : K := decimal 91 2
def walkSpeed : K := decimal 1 1
def sprintSpeed : K := decimal 13000001 8
def airSpeed : K := decimal 2 2
def airSpeedSprint : K := decimal 25999999 9
def sneakFactor : K := decimal 3 1
def inputScale : K := decimal 98 2
def jumpPower : K := decimal 42 2
def sprintJumpBoost : K := decimal 2 1
def jumpDelayTicks : ℕ := 10
def velocityEpsilon : K := decimal 3 3
def stepHeight : K := decimal 6 1

def clampEpsilon (component : K) : K := if |component| < velocityEpsilon then 0 else component

/-- The contribution of the movement keys to the velocity, along `x` and `z`. -/
def inputAcceleration (numbers : Numbers K) (strafe forward speed yawDegrees : K) : K × K :=
  let lengthSquared := strafe * strafe + forward * forward
  if lengthSquared < decimal 1 7 then (0, 0)
  else
    let scale := if lengthSquared > 1 then 1 / numbers.sqrt lengthSquared else 1
    let sx := strafe * scale * speed
    let fz := forward * scale * speed
    let yaw := toRadians numbers yawDegrees
    let sin := mcSin numbers yaw
    let cos := mcCos numbers yaw
    (sx * cos - fz * sin, fz * cos + sx * sin)

/-- The friction of the block that the player stands on. -/
def frictionBelow (player : LocalPlayer K) (terrain : Terrain K W) (world : W) : K :=
  match terrain.blockState world (floorI32 player.position.x) (floorI32 (player.position.y - decimal 2 1))
      (floorI32 player.position.z) with
  | some state => blockFriction state
  | none => defaultFriction

def boundingBox (player : LocalPlayer K) : Aabb K :=
  let here := player.position
  ⟨here.x - decimal 3 1, here.y, here.z - decimal 3 1, here.x + decimal 3 1, here.y + decimal 18 1,
    here.z + decimal 3 1⟩

/-- The velocity and the jump cooldown before the move: small velocities are zeroed, then comes the jump. -/
def jump (player : LocalPlayer K) (numbers : Numbers K) : LocalPlayer K :=
  let velocity : Vec3 K :=
    ⟨clampEpsilon player.velocity.x, clampEpsilon player.velocity.y, clampEpsilon player.velocity.z⟩
  let jumpDelay := player.jumpDelay - 1
  if player.input.jump && player.onGround && jumpDelay == 0 then
    let yaw := toRadians numbers player.position.yaw
    let boosted : Vec3 K :=
      if player.input.sprint then
        ⟨velocity.x - mcSin numbers yaw * sprintJumpBoost, jumpPower, velocity.z + mcCos numbers yaw * sprintJumpBoost⟩
      else { velocity with y := jumpPower }
    { player with velocity := boosted, jumpDelay := jumpDelayTicks }
  else { player with velocity, jumpDelay }

/-- Adds the acceleration of the movement keys. -/
def accelerate (player : LocalPlayer K) (numbers : Numbers K) (friction : K) : LocalPlayer K :=
  let speed :=
    if player.onGround then
      (if player.input.sprint then sprintSpeed else walkSpeed) *
        (decimal 21600002 8 / (friction * friction * friction))
    else if player.input.sprint then airSpeedSprint else airSpeed
  let sneak := if player.input.sneak then sneakFactor else 1
  let (ax, az) := inputAcceleration numbers (numbers.f32 player.input.strafe * sneak * inputScale)
    (numbers.f32 player.input.forward * sneak * inputScale) speed player.position.yaw
  { player with velocity := ⟨player.velocity.x + ax, player.velocity.y, player.velocity.z + az⟩ }

/-- Moves the player as far as the boxes let it, and applies gravity and drag to what is left. -/
def travel (player : LocalPlayer K) (friction : K) (boxes : List (Aabb K)) : LocalPlayer K :=
  let result := collideWithStep player.boundingBox player.velocity stepHeight player.onGround boxes
  let drag := if player.onGround then friction * baseDrag else baseDrag
  let clipped (moved velocity : K) : K := if moved ≠ velocity then 0 else velocity
  { player with
    position := { player.position with
      x := player.position.x + result.movement.x,
      y := player.position.y + result.movement.y,
      z := player.position.z + result.movement.z },
    onGround := result.onGround,
    horizontalCollision := result.horizontalCollision,
    velocity := ⟨clipped result.movement.x player.velocity.x * drag,
      (clipped result.movement.y player.velocity.y - gravity) * verticalDrag,
      clipped result.movement.z player.velocity.z * drag⟩ }

/-- A tick before the world is loaded does nothing, and one that reaches terrain that is not loaded stops short of
the move. -/
def tickPhysics (player : LocalPlayer K) (numbers : Numbers K) (terrain : Terrain K W) (world : W) :
    Except MineRiderError Unit × LocalPlayer K :=
  if player.loaded then
    let player := player.jump numbers
    let friction := player.frictionBelow terrain world
    let player := player.accelerate numbers friction
    let box := player.boundingBox.expandTowards player.velocity.x player.velocity.y player.velocity.z
    match terrain.collisionBoxes world { box with maxY := box.maxY + stepHeight } with
    | .error error => (.error error, player)
    | .ok none => (.ok (), player)
    | .ok (some boxes) => (.ok (), player.travel friction boxes)
  else (.ok (), player)

end Physics

end LocalPlayer

end MineRider.Model.Minecraft
