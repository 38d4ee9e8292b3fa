import MineRider.Model.Minecraft.Player

/-! # The movement driver

What the play loop turns commands into at every tick: the keys held by hand, a goal to walk to, and a random
look. The random generator is external; its state is a type `G`, and a generator that is not seeded by the
command starts from the state that the command comes with.
-/

namespace MineRider.Model.Minecraft

/-- The random generator: a whole number and a number of a closed range, and the next state. -/
structure Random (K G : Type) where
  seedFromU64 : UInt64 → G
  genRange : ℕ → ℕ → G → ℕ × G
  genRangeF32 : K → K → G → K × G

def negOneF32 : UInt32 := 0xBF800000

/-- Nanoseconds of a tick. -/
def tickDuration : ℕ := 50000000

structure RandomLookRuntime (G : Type) where
  config : RandomLookConfig
  rng : G
  ticksUntilNext : ℕ

structure Controller (K G : Type) where
  manual : MovementInput
  goal : Option (K × K)
  heldForward : Bool
  heldBackward : Bool
  heldLeft : Bool
  heldRight : Bool
  randomLook : Option (RandomLookRuntime G)

namespace Controller

variable {K G : Type}

def new : Controller K G := ⟨.none, none, false, false, false, false, none⟩

section Commands

/-- The impulse of two opposite keys. -/
def impulse (positive negative : Bool) : UInt32 :=
  match positive, negative with
  | true, false => oneF32
  | false, true => negOneF32
  | _, _ => zeroF32

def recomputeForward (controller : Controller K G) : Controller K G :=
  { controller with
    manual := { controller.manual with forward := impulse controller.heldForward controller.heldBackward } }

def recomputeStrafe (controller : Controller K G) : Controller K G :=
  { controller with
    manual := { controller.manual with strafe := impulse controller.heldLeft controller.heldRight } }

/-- `as_millis() as u64` -/
def asMillis (duration : ℕ) : ℕ := duration / 1000000 % 2 ^ 64

/-- A whole number of ticks between the two intervals, at least one. -/
def randomIntervalTicks (random : Random K G) (config : RandomLookConfig) (rng : G) : ℕ × G :=
  let tickMs := max (asMillis tickDuration) 1
  let minMs := max (asMillis config.minInterval) tickMs
  let maxMs := max (asMillis config.maxInterval) minMs
  let (intervalMs, rng) := if maxMs > minMs then random.genRange minMs maxMs rng else (minMs, rng)
  (max (intervalMs / tickMs) 1 % 2 ^ 32, rng)

def setRandomLook (random : Random K G) (entropy : G) (controller : Controller K G) :
    Option RandomLookConfig → Controller K G
  | none => { controller with randomLook := none }
  | some config =>
    let rng := (config.seed.map random.seedFromU64).getD entropy
    let (ticksUntilNext, rng) := randomIntervalTicks random config rng
    { controller with randomLook := some ⟨config, rng, ticksUntilNext⟩ }

/-- Commands that the loop answers with a packet change nothing here. -/
def apply (numbers : Numbers K) (random : Random K G) (entropy : G) (controller : Controller K G) :
    BotCommand → Controller K G
  | .setInput input =>
    { controller with
      manual := input,
      heldForward := ltF32 zeroF32 input.forward,
      heldBackward := ltF32 input.forward zeroF32,
      heldLeft := ltF32 zeroF32 input.strafe,
      heldRight := ltF32 input.strafe zeroF32 }
  | .walkTo x z => { controller with goal := some (numbers.f64 x, numbers.f64 z) }
  | .sprint on => { controller with manual := { controller.manual with sprint := on } }
  | .sneak on => { controller with manual := { controller.manual with sneak := on } }
  | .jump on => { controller with manual := { controller.manual with jump := on } }
  | .forward on => { controller with heldForward := on }.recomputeForward
  | .backward on => { controller with heldBackward := on }.recomputeForward
  | .strafeLeft on => { controller with heldLeft := on }.recomputeStrafe
  | .strafeRight on => { controller with heldRight := on }.recomputeStrafe
  | .setRandomLook config => setRandomLook random entropy controller config
  | .stop =>
    { controller with
      goal := none, manual := .none, heldForward := false, heldBackward := false, heldLeft := false,
      heldRight := false }
  | _ => controller

end Commands

section Driving

variable [Field K]

/-- The player faces a yaw and a pitch. -/
def applyLook (player : LocalPlayer K) (yaw pitch : K) : LocalPlayer K :=
  { player with position := { player.position with yaw, pitch } }

/-- `(-dx).atan2(dz).to_degrees()` -/
def yawToward (numbers : Numbers K) (dx dz : K) : K := toDegrees numbers (numbers.atan2 (-dx) dz)

def arrivalRadius : K := decimal 3 1

variable [LinearOrder K] [FloorRing K]

/-- `rem_euclid` of a positive modulus. -/
def remEuclid (value modulus : K) : K := value - modulus * ⌊value / modulus⌋

/-- The angles that a random look chooses, yaw first, and the generator after them. -/
def chooseLook (numbers : Numbers K) (random : Random K G) (config : RandomLookConfig) (yaw : K) (rng : G) :
    K × K × G :=
  let maxYawDelta := numbers.f32 config.maxYawDelta
  let (yawDelta, rng) := if maxYawDelta > 0 then random.genRangeF32 (-maxYawDelta) maxYawDelta rng else (0, rng)
  let wrappedYaw := remEuclid (yaw + yawDelta + (180 : ℕ)) 360 - (180 : ℕ)
  let minPitch := max (-90) (min 90 (numbers.f32 config.minPitch))
  let maxPitch := max (max (-90) (min 90 (numbers.f32 config.maxPitch))) minPitch
  let (pitch, rng) := if maxPitch > minPitch then random.genRangeF32 minPitch maxPitch rng else (minPitch, rng)
  (wrappedYaw, pitch, rng)

def tickRandomLook (numbers : Numbers K) (random : Random K G) (controller : Controller K G) (player : LocalPlayer K) :
    Controller K G × LocalPlayer K :=
  match controller.randomLook with
  | none => (controller, player)
  | some look =>
    if look.ticksUntilNext > 0 then
      ({ controller with randomLook := some { look with ticksUntilNext := look.ticksUntilNext - 1 } }, player)
    else
      let (yaw, pitch, rng) := chooseLook numbers random look.config player.position.yaw look.rng
      let (ticksUntilNext, rng) := randomIntervalTicks random look.config rng
      ({ controller with randomLook := some { look with rng, ticksUntilNext } }, applyLook player yaw pitch)

/-- The keys and the facing of this tick; a goal that is reached clears itself. -/
def drive (numbers : Numbers K) (random : Random K G) (controller : Controller K G) (player : LocalPlayer K) :
    Controller K G × LocalPlayer K :=
  match controller.goal with
  | none => tickRandomLook numbers random controller { player with input := controller.manual }
  | some (tx, tz) =>
    let dx := tx - player.position.x
    let dz := tz - player.position.z
    if dx * dx + dz * dz ≤ arrivalRadius * arrivalRadius then
      tickRandomLook numbers random { controller with goal := none }
        { player with input := { controller.manual with forward := zeroF32, strafe := zeroF32 } }
    else
      tickRandomLook numbers random controller
        { player with
          position := { player.position with yaw := yawToward numbers dx dz },
          input := { controller.manual with forward := oneF32, strafe := zeroF32 } }

end Driving

end Controller

end MineRider.Model.Minecraft
