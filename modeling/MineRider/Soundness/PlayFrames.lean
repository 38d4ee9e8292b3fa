import Mathlib.Data.Rat.Floor
import MineRider.Model.Minecraft.PlayLoop

/-! # What the play loop leaves alone

Most of what a play loop does is of no concern to any one of its invariants. A preorder on its states is `Blind` if
it does not see plain answers on the wire, events other than those of the inventory, and the parts of the state that
only serve the next packet. The handlers of packets and commands that are `aside` stay within it. One that is
`Stored` sees nothing of the player either, and only calls of the inventory can leave it. A tick is one of four things,
after the transactions that have waited too long are expired.
-/

namespace MineRider.Soundness.PlayFrames

open List Model.Minecraft Model.Core PlayLoop Machine
open Handler (Within)

variable {K W G : Type} {R : PlayLoop K W G → PlayLoop K W G → Prop} {around : Surroundings K W G}

section Effects

/-- The connection has taken a packet. -/
def taken (s : PlayLoop K W G) (packet : Serverbound K) : PlayLoop K W G :=
  { s with sent := s.sent ++ [packet], room := s.room - 1 }

theorem send_cases (around : Surroundings K W G) (packet : Serverbound K) (s : PlayLoop K W G) :
    send around packet s = (.error around.failure, s) ∨ send around packet s = (.ok (), taken s packet) := by
  unfold send
  split
  · exact .inl rfl
  · exact .inr rfl

theorem send_ok {packet : Serverbound K} {s next : PlayLoop K W G} {result : Unit}
    (ran : send around packet s = (.ok result, next)) : next = taken s packet := by
  rcases send_cases around packet s with refused | sent
  · rw [refused] at ran
    cases ran
  · rw [sent] at ran
    exact (congrArg Prod.snd ran).symm

theorem update_within {f : PlayState K W G → PlayState K W G}
    (unseen : ∀ s : PlayLoop K W G, R s { s with state := f s.state }) : Within R (update f) :=
  unseen

/-- A handler runs to its end, whether or not it ends the loop. -/
theorem handle_within [IsTrans _ R] (phases : ∀ s phase, R s { s with phase }) {m : PlayM K W G Unit}
    (within : Within R m) (s : PlayLoop K W G) : R s (handle m s) := by
  have related := within s
  unfold PlayLoop.handle
  split
  · rename_i next ran
    rwa [ran] at related
  · rename_i error next ran
    rw [ran] at related
    exact IsTrans.trans _ _ _ related (phases next _)

theorem handle_state (m : PlayM K W G Unit) (s : PlayLoop K W G) : (handle m s).state = (m s).2.state := by
  unfold PlayLoop.handle
  split
  all_goals
    rename_i ran
    rw [ran]

/-- The loop has ended. -/
def Over (s : PlayLoop K W G) : Prop := ∃ error, s.phase = .ended error

theorem handle_cases (m : PlayM K W G Unit) (s : PlayLoop K W G) :
    Over (handle m s) ∨ m s = (.ok (), handle m s) := by
  unfold PlayLoop.handle
  split
  · rename_i ran
    exact .inr ran
  · exact .inl ⟨_, rfl⟩

variable [IsPreorder _ R]

theorem send_within {packet : Serverbound K} (unseen : ∀ s, R s (taken s packet)) :
    Within R (send around packet) := by
  intro s
  rcases send_cases around packet s with refused | sent
  · rw [refused]
    exact refl s
  · rw [sent]
    exact unseen s

private theorem lift_within {α : Type} (result : Except MineRiderError α) :
    Within R (lift result : PlayM K W G α) := by
  cases result with
  | ok a => exact .pure a
  | error error => exact .fail error

private theorem findDimension_within (kind : String) (index : Int32) :
    Within R (findDimension kind index : PlayM K W G DimensionType) := by
  refine .bind .get fun s => ?_
  split
  · exact .pure _
  · exact .fail _

end Effects

section Blindness

/-- Packets that report the player's movement, end a tick or ask for a respawn. -/
def telling : Serverbound K → Bool
  | .movement _ | .tickEnd | .clientCommand _ => true
  | _ => false

def ofInventory : BotEvent → Bool
  | .inventory _ => true
  | _ => false

structure Blind (R : PlayLoop K W G → PlayLoop K W G → Prop) : Prop where
  sends : ∀ s packet, telling packet = false → R s (taken s packet)
  emits : ∀ s events, (∀ event ∈ events, ofInventory event = false) → R s { s with events := s.events ++ events }
  aside : ∀ (s : PlayLoop K W G) controller clock world nextActionSequence lastPlayerInput,
    R s { s with state := { s.state with controller, clock, world, nextActionSequence, lastPlayerInput } }

variable (blind : Blind R)
include blind

theorem Blind.emit (events : List BotEvent) (other : ∀ event ∈ events, ofInventory event = false) :
    Within R (emit events : PlayM K W G Unit) :=
  fun s => blind.emits s events other

theorem Blind.setWorld (world : Option W) :
    Within R (update fun state => { state with world } : PlayM K W G Unit) :=
  update_within fun s => blind.aside s _ _ _ _ _

variable [IsPreorder _ R]

theorem Blind.send (packet : Serverbound K) (plain : telling packet = false) :
    Within R (send around packet) :=
  send_within fun s => blind.sends s packet plain

theorem Blind.nextActionSequence : Within R (nextActionSequence : PlayM K W G Int32) :=
  .bind (update_within fun s => blind.aside s _ _ _ _ _) fun _ => .bind .get fun _ => .pure _

section Commands

/-- Commands that neither click, close, select nor turn the player. -/
def asideCommand : BotCommand → Bool
  | .inventoryClick _ | .selectHotbarSlot _ | .closeGui | .look .. => false
  | _ => true

theorem Blind.sendBlockDig (status : Int32) (location : Position) (face : Int8) :
    Within R (sendBlockDig around status location face) :=
  .bind blind.nextActionSequence fun _ => blind.send _ rfl

theorem Blind.sendOutboundChatAction (validated : Except ActionValidationError Unit) (packet : Serverbound K)
    (plain : telling packet = false) : Within R (sendOutboundChatAction around validated packet) := by
  cases validated with
  | ok => exact blind.send packet plain
  | error error => exact .fail _

theorem Blind.handleCommand {command : BotCommand} (isAside : asideCommand command = true) (entropy : G) :
    Within R (handleCommand around command entropy) := by
  have controls (change : Controller K G → Controller K G) : Within R
      (update fun state => { state with controller := change state.controller } : PlayM K W G Unit) :=
    update_within fun s => blind.aside s _ _ _ _ _
  cases command with
  | inventoryClick | selectHotbarSlot | closeGui | look => cases isAside
  | chat | command => exact blind.sendOutboundChatAction _ _ rfl
  | useItem => exact .bind blind.nextActionSequence fun _ => .bind .get fun _ => blind.send _ rfl
  | useItemOnBlock => exact .bind blind.nextActionSequence fun _ => blind.send _ rfl
  | swing | interactEntity | attackEntity | interactAtEntity => exact blind.send _ rfl
  | releaseItem | digBlock | dropItem | swapHands => exact blind.sendBlockDig _ _ _
  | _ => exact controls fun controller => controller.apply around.numbers around.random entropy _

end Commands

section Packets

/-- Packets that do not concern the player, its inventory or its game mode. -/
def asidePacket : ClientboundPacket K → Bool
  | .position _ | .login _ | .respawn _ | .updateHealth _ | .experience _ | .entityVelocity .. | .inventory _
  | .gameStateChange _ => false
  | _ => true

theorem Blind.handleOffer (uuid : BitVec 128) (download : PackDownload) :
    Within R (handleOffer around uuid download) := by
  refine .ite (.bind (blind.send _ rfl) fun _ => ?_) (blind.send _ rfl)
  cases download with
  | verified => exact .bind (blind.send _ rfl) fun _ => blind.send _ rfl
  | invalidUrl | failed => exact blind.send _ rfl

theorem Blind.onMapChunk (p : PacketMapChunk) : Within R (onMapChunk around p) := by
  refine .bind .get fun s => ?_
  split
  · exact .fail _
  · exact .bind (lift_within _) fun world => blind.setWorld (some world)

theorem Blind.onWorldUpdate (p : WorldUpdate) : Within R (onWorldUpdate around p) := by
  refine .bind .get fun s => ?_
  split
  · exact .pure _
  · exact .bind (lift_within _) fun world => blind.setWorld (some world)

omit blind in
private theorem sideEvents_other (p : SidePacket) : ∀ event ∈ sideEvents p, ofInventory event = false := by
  cases p with
  | hud event => cases event <;> simp [sideEvents, ofInventory]
  | entityDestroy | playerRemove => simp +contextual [sideEvents, ofInventory, or_imp]
  | playerInfo joined =>
    intro event member
    rcases mem_append.mp member with joins | listed
    · obtain ⟨entry, _, rfl⟩ := mem_map.mp joins
      rfl
    · rw [mem_singleton.mp listed]
      rfl
  | _ => simp [sideEvents, ofInventory]

theorem Blind.handleClientbound [Field K] {p : ClientboundPacket K} (isAside : asidePacket p = true) :
    Within R (handleClientbound around p) := by
  cases p with
  | position | login | respawn | updateHealth | experience | entityVelocity | inventory | gameStateChange =>
    cases isAside
  | keepAlive | ping | chunkBatchFinished => exact blind.send _ rfl
  | customPayload | chunkBatchStart | removeResourcePack | unhandled => exact .pure ()
  | mapChunk p => exact blind.onMapChunk p
  | world p => exact blind.onWorldUpdate p
  | addResourcePack uuid download => exact blind.handleOffer uuid download
  | kickDisconnect reason =>
    exact .bind (blind.emit _ (by simp [ofInventory])) fun _ => .fail _
  | side p => exact blind.emit _ (sideEvents_other p)

/-- What is left of a login once the player and the display know of it. -/
theorem Blind.loginRest [Field K] (around : Surroundings K W G) (p : PacketLogin) :
    Within R (findDimension "play login" p.worldState.dimension >>= fun dimension =>
      update (fun state => { state with world := some (around.newWorld dimension p.worldState) }) >>= fun _ =>
      PlayLoop.emit [.login p.entityId] : PlayM K W G Unit) := by
  refine .bind (findDimension_within _ _) fun dimension => ?_
  exact .bind (blind.setWorld _) fun _ => blind.emit _ (by simp [ofInventory])

/-- What is left of a respawn once the player and the display know of it. -/
theorem Blind.respawnRest
    (received : ∀ (s : PlayLoop K W G) receivedPosition, R s { s with state := { s.state with receivedPosition } })
    (around : Surroundings K W G) (p : PacketRespawn) :
    Within R (PlayLoop.emit [.hud .respawned] >>= fun _ =>
      update (fun state => { state with receivedPosition := false }) >>= fun _ =>
      findDimension "respawn" p.worldState.dimension >>= fun dimension =>
      update fun state => { state with world := some (around.newWorld dimension p.worldState) } :
        PlayM K W G Unit) := by
  refine .bind (blind.emit _ (by simp [ofInventory])) fun _ => .bind (update_within fun s => received s _) fun _ => ?_
  exact .bind (findDimension_within _ _) fun dimension => blind.setWorld _

end Packets

section Calls

/-- The calls that clicking, closing and the passing of time make. -/
def ownCall : InventoryStep → Bool
  | .prepareClick .. | .rejectTransaction .. | .markSent _ | .expireTransactions _ | .packet (.closeWindow _) => true
  | _ => false

section

variable (calls : ∀ call, ownCall call = true → Within R (callInventory call : PlayM K W G Unit))

include calls

theorem Blind.sendInventoryClick (request : InventoryClickRequest) : Within R (sendInventoryClick around request) := by
  refine .bind .get fun s => .bind (calls _ rfl) fun _ => ?_
  split
  · exact calls _ rfl
  · exact .bind (blind.send _ rfl) fun _ => calls _ rfl

end

theorem Blind.sendCloseGui (closes : ∀ p, Within R (callInventory (.packet (.closeWindow p)) : PlayM K W G Unit)) :
    Within R (sendCloseGui around) := by
  refine .bind .get fun s => ?_
  split
  · exact .pure _
  · exact .bind (blind.send _ rfl) fun _ => closes _

theorem Blind.sendSelectHotbarSlot {slot : Int16}
    (call : Within R (callInventory (.selectHotbarSlot slot) : PlayM K W G Unit)) :
    Within R (sendSelectHotbarSlot around slot) :=
  .bind (blind.send _ rfl) fun _ => call

/-- For a relation that sees nothing of the display. -/
theorem Blind.onInventory {p : InventoryPacket} (call : Within R (callInventory (.packet p) : PlayM K W G Unit))
    (displays : ∀ (s : PlayLoop K W G) hud, R s { s with state := { s.state with hud } }) :
    Within R (onInventory p : PlayM K W G Unit) := by
  have shows (event : HudEvent) (change : HudState → HudState) : Within R
      (update (fun state => { state with hud := change state.hud }) >>= fun _ => PlayLoop.emit [.hud event] :
        PlayM K W G Unit) :=
    .bind (update_within fun s => displays s _) fun _ => blind.emit _ (by simp [ofInventory])
  refine .bind call fun _ => ?_
  cases p with
  | heldItemSlot p => exact shows _ fun hud => (hud.onSelectedHotbar p).2
  | setPlayerInventory p => exact shows _ fun hud => (hud.onPlayerInventory p).2
  | _ => exact .pure ()

omit blind in
private theorem weatherEvents_other (reason : UInt8) : ∀ event ∈ weatherEvents reason, ofInventory event = false := by
  unfold weatherEvents
  split
  · simp [ofInventory]
  · split <;> simp [ofInventory]

theorem Blind.onGameStateChange (displays : ∀ (s : PlayLoop K W G) gameMode,
      R s { s with state := { s.state with hud := { s.state.hud with gameMode } } })
    (p : PacketGameStateChange) : Within R (onGameStateChange p : PlayM K W G Unit) := by
  refine .bind .get fun s => .bind (update_within fun s => ?_) fun _ => blind.emit _ fun event member => ?_
  · have mode : ∃ gameMode, (s.state.hud.onGameState p).2 = { s.state.hud with gameMode } := by
      unfold HudState.onGameState
      split
      · exact ⟨_, rfl⟩
      · split <;> exact ⟨_, rfl⟩
    obtain ⟨gameMode, same⟩ := mode
    rw [same]
    exact displays s gameMode
  · rcases mem_append.mp member with weather | shown
    · exact weatherEvents_other p.reason event weather
    · obtain ⟨_, _, rfl⟩ := mem_map.mp shown
      rfl

end Calls

end Blindness

section Vitals

/-- It sees nothing of where the player is and of how it fares. -/
structure Aloof (R : PlayLoop K W G → PlayLoop K W G → Prop) : Prop extends Blind R where
  fares : ∀ (s : PlayLoop K W G) position health food saturation xpBar xpLevel totalExperience velocity wasAlive,
    R s { s with state := { s.state with
      player := { s.state.player with
        position, health, food, saturation, xpBar, xpLevel, totalExperience, velocity },
      wasAlive } }

section

variable [IsPreorder _ R] (aloof : Aloof R)
include aloof

theorem Aloof.onUpdateHealth (p : PacketUpdateHealth) : Within R (onUpdateHealth p : PlayM K W G Unit) := by
  refine .bind (update_within fun s => aloof.fares s _ _ _ _ _ _ _ _ _) fun _ => .bind .get fun s => ?_
  refine .bind (aloof.emit _ fun event member => ?_) fun _ => ?_
  · rcases mem_append.mp member with health | death
    · rw [mem_singleton.mp health]
      rfl
    · split at death
      · rw [mem_singleton.mp death]
        rfl
      · cases death
  · refine .bind (update_within fun s => aloof.fares s _ _ _ _ _ _ _ _ _) fun _ => ?_
    exact aloof.emit _ (by simp [ofInventory])

theorem Aloof.onExperience (p : PacketExperience) : Within R (onExperience p : PlayM K W G Unit) :=
  .bind (update_within fun s => aloof.fares s _ _ _ _ _ _ _ _ _) fun _ => aloof.emit _ (by simp [ofInventory])

theorem Aloof.onEntityVelocity [Field K] (entityId : Int32) (x y z : Int16) :
    Within R (onEntityVelocity entityId x y z : PlayM K W G Unit) := by
  refine update_within fun s => ?_
  split
  · exact aloof.fares s _ _ _ _ _ _ _ _ _
  · exact refl s

end

/-- It sees nothing of what the player carries either. -/
structure Unladen (R : PlayLoop K W G → PlayLoop K W G → Prop) : Prop extends Aloof R where
  carries : ∀ (s : PlayLoop K W G) inventory hud events,
    R s { s with state := { s.state with inventory, hud }, events := s.events ++ events }

/-- Packets that say where the player is. -/
def places : ClientboundPacket K → Bool
  | .position _ | .login _ | .respawn _ => true
  | _ => false

variable [IsPreorder _ R] (unladen : Unladen R)
include unladen

theorem Unladen.handleCommand (command : BotCommand) (entropy : G) :
    Within R (handleCommand around command entropy) := by
  have calls (call : InventoryStep) : Within R (callInventory call : PlayM K W G Unit) :=
    fun s => unladen.carries s _ _ _
  cases command with
  | inventoryClick request => exact unladen.sendInventoryClick (fun call _ => calls call) request
  | selectHotbarSlot slot => exact unladen.sendSelectHotbarSlot (calls _)
  | closeGui => exact unladen.sendCloseGui fun _ => calls _
  | look yaw pitch => exact update_within fun s => unladen.fares s _ _ _ _ _ _ _ _ _
  | _ => exact unladen.toBlind.handleCommand rfl entropy

theorem Unladen.handleClientbound [Field K] {p : ClientboundPacket K} (other : places p = false) :
    Within R (handleClientbound around p) := by
  have displays (s : PlayLoop K W G) (hud : HudState) : R s { s with state := { s.state with hud } } := by
    have shown := unladen.carries s s.state.inventory hud []
    rwa [append_nil] at shown
  cases p with
  | position | login | respawn => cases other
  | updateHealth p => exact unladen.onUpdateHealth p
  | experience p => exact unladen.onExperience p
  | entityVelocity entityId x y z => exact unladen.onEntityVelocity entityId x y z
  | inventory p => exact unladen.onInventory (fun s => unladen.carries s _ _ _) displays
  | gameStateChange p => exact unladen.onGameStateChange (fun s gameMode => displays s _) p
  | _ => exact unladen.toBlind.handleClientbound rfl

end Vitals

section Ticks

/-- What driving and moving a player does not change. -/
structure SameRecord (player next : LocalPlayer K) : Prop where
  health : next.health = player.health
  loaded : next.loaded = player.loaded
  last : next.last = player.last
  lastFlags : next.lastFlags = player.lastFlags
  reminder : next.positionReminder = player.positionReminder

theorem SameRecord.refl (player : LocalPlayer K) : SameRecord player player := ⟨rfl, rfl, rfl, rfl, rfl⟩

theorem SameRecord.trans {player middle next : LocalPlayer K} (first : SameRecord player middle)
    (second : SameRecord middle next) : SameRecord player next where
  health := second.health.trans first.health
  loaded := second.loaded.trans first.loaded
  last := second.last.trans first.last
  lastFlags := second.lastFlags.trans first.lastFlags
  reminder := second.reminder.trans first.reminder

variable [Field K] [LinearOrder K] [FloorRing K]

private theorem tickRandomLook_record (numbers : Numbers K) (random : Random K G) (controller : Controller K G)
    (player : LocalPlayer K) : SameRecord player (controller.tickRandomLook numbers random player).2 := by
  unfold Controller.tickRandomLook
  split
  · exact .refl player
  · split
    · exact .refl player
    · exact ⟨rfl, rfl, rfl, rfl, rfl⟩

private theorem drive_record (numbers : Numbers K) (random : Random K G) (controller : Controller K G)
    (player : LocalPlayer K) : SameRecord player (controller.drive numbers random player).2 := by
  have looked (controller : Controller K G) (start : LocalPlayer K) (same : SameRecord player start) :
      SameRecord player (controller.tickRandomLook numbers random start).2 :=
    same.trans (tickRandomLook_record numbers random controller start)
  unfold Controller.drive
  split
  · exact looked _ _ ⟨rfl, rfl, rfl, rfl, rfl⟩
  · dsimp only
    split
    all_goals exact looked _ _ ⟨rfl, rfl, rfl, rfl, rfl⟩

private theorem jump_record (player : LocalPlayer K) (numbers : Numbers K) :
    SameRecord player (player.jump numbers) := by
  unfold LocalPlayer.jump
  dsimp only
  split <;> exact ⟨rfl, rfl, rfl, rfl, rfl⟩

private theorem tickPhysics_record (player : LocalPlayer K) (numbers : Numbers K) (terrain : Terrain K W) (world : W) :
    SameRecord player (player.tickPhysics numbers terrain world).2 := by
  have jumped := jump_record player numbers
  unfold LocalPlayer.tickPhysics
  split
  · dsimp only
    split <;> exact jumped.trans ⟨rfl, rfl, rfl, rfl, rfl⟩
  · exact .refl player

/-- The player and its driver are all that a move changes. -/
theorem movePlayer_cases (around : Surroundings K W G) (s : PlayLoop K W G) :
    ∃ result controller player,
      movePlayer around s = (result, { s with state := { s.state with controller, player } }) ∧
      SameRecord s.state.player player := by
  unfold movePlayer
  rw [Handler.get_bind]
  cases s.state.world with
  | none => exact ⟨.ok (), s.state.controller, s.state.player, rfl, .refl _⟩
  | some world =>
    have driven := drive_record around.numbers around.random s.state.controller s.state.player
    have moved := tickPhysics_record (s.state.controller.drive around.numbers around.random s.state.player).2
      around.numbers around.terrain world
    dsimp only
    cases result : ((s.state.controller.drive around.numbers around.random s.state.player).2.tickPhysics around.numbers
      around.terrain world).1 with
    | ok => exact ⟨.ok (), _, _, rfl, driven.trans moved⟩
    | error error => exact ⟨.error error, _, _, rfl, driven.trans moved⟩

/-- The clock has advanced, and the transactions that have waited too long are expired. -/
def expired (s : PlayLoop K W G) : PlayLoop K W G :=
  let (events, inventory) := s.state.inventory.step (.expireTransactions (s.state.clock + 1))
  { s with
    state := { s.state with clock := s.state.clock + 1, inventory },
    events := s.events ++ events.map .inventory }

/-- The four things that a tick can be. -/
theorem tick_cases (around : Surroundings K W G) (s : PlayLoop K W G) :
    (s.state.player.isAlive = false ∧ s.state.respawnPending = true ∧ tick around s = (.ok (), expired s)) ∨
    (s.state.player.isAlive = false ∧ s.state.respawnPending = false ∧
      tick around s = requestRespawn around (expired s)) ∨
    (s.state.player.isAlive = true ∧ readyToLoad around s.state = true ∧
      tick around s = declareLoaded around (expired s)) ∨
    (s.state.player.isAlive = true ∧ readyToLoad around s.state = false ∧
      tick around s = movementTick around (expired s)) := by
  have unfolded : tick around s =
      (if !s.state.player.isAlive then if !s.state.respawnPending then requestRespawn around else pure ()
        else if readyToLoad around s.state then declareLoaded around else movementTick around : PlayM K W G Unit)
      (expired s) := rfl
  rw [unfolded]
  cases s.state.player.isAlive with
  | false =>
    cases s.state.respawnPending with
    | true => exact .inl ⟨rfl, rfl, rfl⟩
    | false => exact .inr (.inl ⟨rfl, rfl, rfl⟩)
  | true =>
    cases readyToLoad around s.state with
    | true => exact .inr (.inr (.inl ⟨rfl, rfl, rfl⟩))
    | false => exact .inr (.inr (.inr ⟨rfl, rfl, rfl⟩))

end Ticks

section Storage

/-- It is about what the player carries, not about the player itself or what is on the wire. -/
structure Stored (R : PlayLoop K W G → PlayLoop K W G → Prop) : Prop extends Blind R where
  wire : ∀ s packet, R s (taken s packet)
  body : ∀ (s : PlayLoop K W G) player receivedPosition respawnPending wasAlive,
    R s { s with state := { s.state with player, receivedPosition, respawnPending, wasAlive } }
  modes : ∀ (s : PlayLoop K W G) entityId gameMode,
    R s { s with state := { s.state with hud := { s.state.hud with entityId, gameMode } } }

theorem Stored.aloof (stored : Stored R) : Aloof R where
  toBlind := stored.toBlind
  fares s _ _ _ _ _ _ _ _ _ := stored.body s _ _ _ _

variable [IsPreorder _ R] (stored : Stored R)
include stored

theorem Stored.send (packet : Serverbound K) : Within R (send around packet) :=
  send_within fun s => stored.wire s packet

theorem Stored.acknowledgeConfiguration (phases : ∀ s phase, R s { s with phase }) :
    Within R (acknowledgeConfiguration around) :=
  .bind (stored.send _) fun _ => .modify fun s => phases s _

theorem Stored.movePlayer [Field K] [LinearOrder K] [FloorRing K] : Within R (movePlayer around) := by
  intro s
  obtain ⟨result, controller, player, moved, -⟩ := movePlayer_cases around s
  rw [moved]
  exact IsTrans.trans _ _ _ (stored.aside s controller _ _ _ _) (stored.body _ player _ _ _)

theorem Stored.handleCommand (calls : ∀ call, ownCall call = true → Within R (callInventory call : PlayM K W G Unit))
    {command : BotCommand} (other : ∀ slot, command ≠ .selectHotbarSlot slot) (entropy : G) :
    Within R (handleCommand around command entropy) := by
  cases command with
  | selectHotbarSlot slot => exact absurd rfl (other slot)
  | inventoryClick request => exact stored.sendInventoryClick calls request
  | closeGui => exact stored.sendCloseGui fun _ => calls _ rfl
  | look yaw pitch => exact update_within fun s => stored.body s _ _ _ _
  | _ => exact stored.toBlind.handleCommand rfl entropy

variable [Field K]

theorem Stored.handleClientbound {p : ClientboundPacket K} (other : ∀ packet, p ≠ .inventory packet) :
    Within R (handleClientbound around p) := by
  cases p with
  | inventory packet => exact absurd rfl (other packet)
  | position p =>
    refine .bind (update_within fun s => stored.body s _ _ _ _) fun _ => .bind (stored.send _) fun _ => ?_
    exact .bind .get fun s => .bind (update_within fun s => stored.body s _ _ _ _) fun _ => stored.send _
  | login p =>
    refine .bind (update_within fun s => ?_) fun _ => stored.loginRest around p
    have displayed := stored.modes s (some p.entityId) (.ofSpawn p.worldState.gamemode)
    exact IsTrans.trans _ _ _ displayed (stored.body _ _ _ _ _)
  | respawn p =>
    refine .bind (update_within fun s => ?_) fun _ => stored.respawnRest (fun s _ => stored.body s _ _ _ _) around p
    have displayed := stored.modes s s.state.hud.entityId (.ofSpawn p.worldState.gamemode)
    exact IsTrans.trans _ _ _ displayed (stored.body _ _ _ _ _)
  | updateHealth p => exact stored.aloof.onUpdateHealth p
  | experience p => exact stored.aloof.onExperience p
  | entityVelocity entityId x y z => exact stored.aloof.onEntityVelocity entityId x y z
  | gameStateChange p => exact stored.onGameStateChange (fun s gameMode => stored.modes s _ gameMode) p
  | _ => exact stored.toBlind.handleClientbound rfl

variable [LinearOrder K] [FloorRing K]

theorem Stored.movementTick : Within R (movementTick around) := by
  refine .bind stored.movePlayer fun _ => .bind ?_ fun _ => .bind ?_ fun _ => ?_
  · refine .bind .get fun s => .ite (.bind ?_ fun _ => stored.send _) (.pure ())
    exact update_within fun s => stored.aside s _ _ _ _ _
  · refine .bind .get fun s => .bind (update_within fun s => stored.body s _ _ _ _) fun _ => ?_
    split
    · exact .pure ()
    · exact stored.send _
  · exact .bind .get fun s => .ite (stored.send _) (.pure ())

theorem Stored.tick (expires : ∀ clock, Within R (callInventory (.expireTransactions clock) : PlayM K W G Unit)) :
    Within R (tick around) := by
  refine .bind (update_within fun s => stored.aside s _ _ _ _ _) fun _ => .bind .get fun s => ?_
  refine .bind (expires _) fun _ => .ite (.ite ?_ (.pure ())) (.ite ?_ stored.movementTick)
  · exact .bind (stored.send _) fun _ => update_within fun s => stored.body s _ _ _ _
  · refine .bind (stored.send _) fun _ => .bind (update_within fun s => stored.body s _ _ _ _) fun _ => ?_
    exact stored.emit _ (by simp [ofInventory])

end Storage

section Closure

/-- If no call of the inventory leaves the relation, no packet, command or tick does. -/
structure Closed (R : PlayLoop K W G → PlayLoop K W G → Prop) : Prop extends Stored R where
  calls : ∀ call, Within R (callInventory call : PlayM K W G Unit)
  displays : ∀ (s : PlayLoop K W G) hud, R s { s with state := { s.state with hud } }

variable [IsPreorder _ R] (closed : Closed R)
include closed

theorem Closed.handleClientbound [Field K] (p : ClientboundPacket K) :
    Within R (handleClientbound around p) := by
  by_cases carries : ∃ packet, p = .inventory packet
  · obtain ⟨packet, rfl⟩ := carries
    exact closed.onInventory (closed.calls _) closed.displays
  · exact closed.toStored.handleClientbound fun packet same => carries ⟨packet, same⟩

theorem Closed.handleCommand (command : BotCommand) (entropy : G) :
    Within R (handleCommand around command entropy) := by
  by_cases selects : ∃ slot, command = .selectHotbarSlot slot
  · obtain ⟨slot, rfl⟩ := selects
    exact closed.sendSelectHotbarSlot (closed.calls _)
  · have other (slot : Int16) (same : command = .selectHotbarSlot slot) : False := selects ⟨slot, same⟩
    exact closed.toStored.handleCommand (fun call _ => closed.calls call) other entropy

end Closure

section Steps

variable [Field K] [LinearOrder K] [FloorRing K]

/-- Everything a step can be. -/
inductive Steps (around : Surroundings K W G) (s : PlayLoop K W G) : LoopInput K G → PlayLoop K W G → Prop
  | packet (p) (playing : s.phase = .playing) : Steps around s (.packet p) (handle (handleClientbound around p) s)
  | startConfiguration (playing : s.phase = .playing) :
    Steps around s .startConfiguration (handle (acknowledgeConfiguration around) s)
  | command (command entropy) (playing : s.phase = .playing) :
    Steps around s (.command command entropy) (handle (handleCommand around command entropy) s)
  | tick (playing : s.phase = .playing) : Steps around s .tick (handle (tick around) s)
  | configured (dimensionTypes) (configuring : s.phase = .configuring) :
    Steps around s (.configured dimensionTypes) { s with state := .new, dimensionTypes, phase := .playing }
  | ends (input error) : Steps around s input { s with phase := .ended error }
  | ignores (input) (idle : s.phase = .playing → input ≠ .tick) : Steps around s input s

theorem step_steps (around : Surroundings K W G) (s : PlayLoop K W G) (input : LoopInput K G) :
    Steps around s input (s.step around input) := by
  unfold step
  split
  · rename_i p playing
    exact .packet p playing
  · rename_i playing
    exact .startConfiguration playing
  · exact .ends _ _
  · rename_i command entropy playing
    exact .command command entropy playing
  · rename_i playing
    exact .tick playing
  · rename_i dimensionTypes configuring
    exact .configured dimensionTypes configuring
  · exact .ends _ _
  · rename_i untaken _ _
    exact .ignores _ untaken

theorem over_step {s : PlayLoop K W G} (stopped : Over s) (around : Surroundings K W G) (input : LoopInput K G) :
    s.step around input = s := by
  obtain ⟨error, ended⟩ := stopped
  unfold step
  rw [ended]

end Steps

section Plain

/-- Every chunk is loaded and the player does not move; a float stands for the number of its bit pattern. -/
def openPlain : Surroundings ℚ Unit Unit where
  numbers := ⟨fun bits => bits.toNat, fun bits => bits.toNat, 3, id, id, fun _ _ => 0⟩
  random := ⟨fun _ => (), fun low _ generator => (low, generator), fun low _ generator => (low, generator)⟩
  terrain := ⟨fun _ _ _ => true, fun _ _ _ _ => none, fun _ _ => .ok none⟩
  newWorld _ _ := ()
  insertChunk world _ := .ok world
  updateWorld world _ := .ok world
  failure := .connectionClosed
  acceptResourcePacks := false

def overworld : List DimensionType := [⟨-64, 384⟩]

def spawn : SpawnInfo := ⟨0, "minecraft:overworld", 0, .survival⟩

end Plain

end MineRider.Soundness.PlayFrames
