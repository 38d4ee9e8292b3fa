import MineRider.Model.Minecraft.Inventory

/-! # Bot events

The one event stream of a bot: what a play session observes, and what the supervisor does around it.
Floats are their bit patterns. The boxed events other than those of the inventory are reduced to their
variants; their payloads are only read by the observers that receive them.
-/

namespace MineRider.Model.Minecraft

inductive PresentationEvent where
  | chat
  | actionBarChanged
  | titleChanged
  | subtitleChanged
  | titleTimingChanged
  | titlesCleared
  | tabListChanged
  | bossBarChanged
  | disconnected
deriving DecidableEq, Repr

inductive ScoreboardEvent where
  | objectiveChanged
  | displaySlotChanged
  | scoreChanged
  | teamChanged
deriving DecidableEq, Repr

inductive HudEvent where
  | vitalsChanged
  | experienceChanged
  | gameModeChanged
  | abilitiesChanged
  | hotbarChanged
  | cooldownChanged
  | effectChanged
  | attributesChanged
  | death
  | respawned
  | worldBorderChanged
  | timeChanged
  | weatherChanged
  | difficultyChanged
  | spawnPositionChanged
  | playerListChanged
deriving DecidableEq, Repr

/-- Delays are in nanoseconds. -/
inductive BotEvent where
  | login (entityId : Int32)
  | spawned
  | health (health : UInt32) (food : Int32) (saturation : UInt32)
  | death
  | chat (sender message : String)
  | systemChat (message : String)
  | playerJoined (uuid : BitVec 128) (name : String)
  | playerLeft (uuid : BitVec 128)
  | entitySpawned (entityId : Int32) (uuid : BitVec 128) (kind : Int32)
  | entityRemoved (entityId : Int32)
  | time (timeOfDay : Int64)
  | weather (raining : Bool)
  | kicked (reason : String)
  | presentation (inner : PresentationEvent)
  | scoreboard (inner : ScoreboardEvent)
  | hud (inner : HudEvent)
  | inventory (inner : InventoryEvent)
  | connecting
  | connected
  | disconnected (reason : String)
  | reconnectScheduled (attempt : UInt32) (delay : ℕ)
  | retryAttemptStarted (attempt : UInt32)
  | retriesExhausted
  | stoppedByCancellation
deriving DecidableEq, Repr

end MineRider.Model.Minecraft
