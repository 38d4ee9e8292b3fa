import MineRider.Model.Minecraft.Control
import MineRider.Model.Minecraft.Event

/-! # The player-facing display

The part of the HUD that other parts of a session also know: the player's entity id, the game mode, the
selected hotbar slot, the items of the hotbar and the one that is held. What the HUD only stores for its
readers (vitals, effects, attributes, cooldowns, the world border, weather and the like) is left out.
-/

namespace MineRider.Model.Minecraft

section Packets

inductive SpawnInfoGamemode where
  | survival
  | creative
  | adventure
  | spectator
deriving DecidableEq, Repr

structure SpawnInfo where
  dimension : Int32
  name : String
  hashedSeed : Int64
  gamemode : SpawnInfoGamemode
deriving DecidableEq, Repr

structure PacketLogin where
  entityId : Int32
  worldState : SpawnInfo
deriving DecidableEq, Repr

structure PacketRespawn where
  worldState : SpawnInfo
deriving DecidableEq, Repr

/-- The value is the bit pattern of a float. -/
structure PacketGameStateChange where
  reason : UInt8
  gameMode : UInt32
deriving DecidableEq, Repr

end Packets

section GameMode

inductive GameMode where
  | survival
  | creative
  | adventure
  | spectator
  | unknown (value : Int32)
deriving DecidableEq, Repr

namespace GameMode

def fromI32 (value : Int32) : GameMode :=
  if value = 0 then .survival
  else if value = 1 then .creative
  else if value = 2 then .adventure
  else if value = 3 then .spectator
  else .unknown value

/-- The whole number that a finite float is, if it is one. -/
def wholeF32 (bits : UInt32) : Option ℤ :=
  let exponent := (bits.toNat / 2 ^ 23) % 2 ^ 8
  let fraction := bits.toNat % 2 ^ 23
  let significand := if exponent = 0 then fraction else 2 ^ 23 + fraction
  let scale := max exponent 1
  let sign : ℤ := if bits < 0x80000000 then 1 else -1
  if exponent = 255 then none
  else if 150 ≤ scale then some (sign * (significand * 2 ^ (scale - 150) : ℕ))
  else if significand % 2 ^ (150 - scale) = 0 then some (sign * (significand / 2 ^ (150 - scale) : ℕ))
  else none

/-- A float that is not a whole number is kept as its bits. -/
def fromWireFloat (bits : UInt32) : GameMode :=
  match wholeF32 bits with
  | some value => fromI32 (.ofInt (max (-2147483648) (min 2147483647 value)))
  | none => .unknown bits.toInt32

def ofSpawn : SpawnInfoGamemode → GameMode
  | .survival => .survival
  | .creative => .creative
  | .adventure => .adventure
  | .spectator => .spectator

end GameMode

end GameMode

structure HudState where
  entityId : Option Int32
  gameMode : GameMode
  selectedHotbarSlot : Int32
  heldItem : Slot
  hotbar : AList fun _ : Int32 => Slot

namespace HudState

def new : HudState where
  entityId := none
  gameMode := .unknown (-1)
  selectedHotbarSlot := 0
  heldItem := emptySlot
  hotbar := ∅

def playerInventoryHotbarStart : Int32 := 36
def playerInventoryHotbarEnd : Int32 := 44

def onLogin (hud : HudState) (p : PacketLogin) : HudState :=
  { hud with entityId := some p.entityId, gameMode := .ofSpawn p.worldState.gamemode }

def onRespawn (hud : HudState) (p : PacketRespawn) : HudEvent × HudState :=
  (.respawned, { hud with gameMode := .ofSpawn p.worldState.gamemode })

def onSelectedHotbar (hud : HudState) (p : PacketHeldItemSlot) : HudEvent × HudState :=
  (.hotbarChanged,
    if 0 ≤ p.slot ∧ p.slot ≤ 8 then
      { hud with selectedHotbarSlot := p.slot, heldItem := (hud.hotbar.lookup p.slot).getD emptySlot }
    else hud)

/-- Slots `36` to `44` of the player's inventory are the hotbar. -/
def onPlayerInventory (hud : HudState) (p : PacketSetPlayerInventory) : HudEvent × HudState :=
  (.hotbarChanged,
    if playerInventoryHotbarStart ≤ p.slotId ∧ p.slotId ≤ playerInventoryHotbarEnd then
      let hotbarSlot := p.slotId - playerInventoryHotbarStart
      { hud with
        hotbar := hud.hotbar.insert hotbarSlot p.contents,
        heldItem := if hotbarSlot = hud.selectedHotbarSlot then p.contents else hud.heldItem }
    else hud)

def onGameState (hud : HudState) (p : PacketGameStateChange) : Option HudEvent × HudState :=
  if p.reason = 1 ∨ p.reason = 2 ∨ p.reason = 7 ∨ p.reason = 8 then (some .weatherChanged, hud)
  else if p.reason = 3 then (some .gameModeChanged, { hud with gameMode := .fromWireFloat p.gameMode })
  else (none, hud)

end HudState

end MineRider.Model.Minecraft
