import MineRider.Machine.Handler
import MineRider.Model.Minecraft.Controller
import MineRider.Model.Minecraft.Hud

/-! # The play loop

`run_play`: the loop that handles server packets, bot commands and ticks of one connection. A session ends for
good with the first error. When the server sends `start_configuration` the loop acknowledges it, runs the
configuration exchange again and goes on with a fresh play state on the same connection.

Packets are decoded ones; a malformed packet that ends the session is a failed read. The connection takes `room`
more packets before it fails. Worlds are left open, and so is the number that a chunk batch is acknowledged with.
-/

namespace MineRider.Model.Minecraft

open Model.Core Machine

section Wire

inductive WorldUpdate where
  | unloadChunk (p : PacketUnloadChunk)
  | blockChange (p : PacketBlockChange)
  | tileEntityData (p : PacketTileEntityData)
  | updateLight (p : PacketUpdateLight)
  | multiBlockChange (p : PacketMultiBlockChange)

/-- How the download of a resource pack went. -/
inductive PackDownload where
  | verified
  | invalidUrl
  | failed
deriving DecidableEq, Repr

/-- Packets for state that is stored for its readers only. They change nothing here, and emit events. -/
inductive SidePacket where
  | presentation (event : PresentationEvent)
  | playerChat (sender message : String)
  | systemChat (message : String)
  | scoreboard (event : ScoreboardEvent)
  | hud (event : Option HudEvent)
  | spawnEntity (entityId : Int32) (uuid : BitVec 128) (kind : Int32)
  | entityDestroy (entityIds : List Int32)
  | entityMove
  | playerInfo (joined : List (BitVec 128 × String))
  | playerRemove (removed : List (BitVec 128))
  | updateTime (timeOfDay : Int64)

inductive ClientboundPacket (K : Type) where
  | keepAlive (id : Int64)
  | customPayload
  | ping (id : Int32)
  | position (p : PacketPosition K)
  | chunkBatchStart
  | chunkBatchFinished (chunksPerTick : UInt32)
  | mapChunk (p : PacketMapChunk)
  | world (p : WorldUpdate)
  | addResourcePack (uuid : BitVec 128) (download : PackDownload)
  | removeResourcePack
  | kickDisconnect (reason : String)
  | login (p : PacketLogin)
  | respawn (p : PacketRespawn)
  | updateHealth (p : PacketUpdateHealth)
  | experience (p : PacketExperience)
  | entityVelocity (entityId : Int32) (x y z : Int16)
  | inventory (p : InventoryPacket)
  | gameStateChange (p : PacketGameStateChange)
  | side (p : SidePacket)
  | unhandled

inductive Serverbound (K : Type) where
  | keepAlive (id : Int64)
  | pong (id : Int32)
  | teleportConfirm (teleportId : Int32)
  | movement (packet : MovementPacket K)
  | chunkBatchReceived (chunksPerTick : UInt32)
  | resourcePackReceive (uuid : BitVec 128) (result : Int32)
  | configurationAcknowledged
  | clientCommand (actionId : Int32)
  | playerLoaded
  | tickEnd
  | playerInput (flags : UInt8)
  | chatMessage (message : String)
  | chatCommand (command : String)
  | windowClick (packet : PacketWindowClick)
  | useItem (hand : Int32) (sequence : Int32) (yaw pitch : K)
  | armAnimation (hand : Int32)
  | heldItemSlot (slot : Int16)
  | blockPlace (hand : Int32) (location : Position) (direction : Int32) (cursorX cursorY cursorZ : UInt32)
    (insideBlock worldBorderHit : Bool) (sequence : Int32)
  | useEntity (target mouse : Int32) (point : Option (UInt32 × UInt32 × UInt32)) (hand : Option Int32)
    (sneaking : Bool)
  | blockDig (status : Int32) (location : Position) (face : Int8) (sequence : Int32)
  | closeWindow (windowId : Int32)
deriving DecidableEq, Repr

end Wire

section State

structure PlayState (K W G : Type) where
  player : LocalPlayer K
  inventory : InventoryState
  hud : HudState
  controller : Controller K G
  clock : ℕ
  receivedPosition : Bool
  world : Option W
  respawnPending : Bool
  wasAlive : Bool
  nextActionSequence : Int32
  lastPlayerInput : UInt8

def PlayState.new {K W G : Type} [Field K] : PlayState K W G where
  player := .new
  inventory := .new
  hud := .new
  controller := .new
  clock := 0
  receivedPosition := false
  world := none
  respawnPending := false
  wasAlive := true
  nextActionSequence := 0
  lastPlayerInput := 0

inductive LoopPhase where
  | playing
  /-- Between the acknowledgement of `start_configuration` and the next session. -/
  | configuring
  | ended (error : MineRiderError)
deriving DecidableEq, Repr

structure PlayLoop (K W G : Type) where
  state : PlayState K W G
  dimensionTypes : List DimensionType
  sent : List (Serverbound K)
  room : ℕ
  events : List BotEvent
  phase : LoopPhase

/-- What the loop uses and does not define. -/
structure Surroundings (K W G : Type) where
  numbers : Numbers K
  random : Random K G
  terrain : Terrain K W
  /-- A world for a dimension, shared or not. -/
  newWorld : DimensionType → SpawnInfo → W
  insertChunk : W → PacketMapChunk → Except MineRiderError W
  updateWorld : W → WorldUpdate → Except MineRiderError W
  /-- How the connection fails. -/
  failure : MineRiderError
  acceptResourcePacks : Bool

inductive LoopInput (K G : Type) where
  | packet (p : ClientboundPacket K)
  | startConfiguration
  | readFailed (error : MineRiderError)
  /-- A command, with the seed that the system would give to a generator. -/
  | command (command : BotCommand) (entropy : G)
  | tick
  | configured (dimensionTypes : List DimensionType)
  | configurationFailed (error : MineRiderError)

end State

namespace PlayLoop

variable {K W G : Type}

abbrev PlayM (K W G α : Type) := Handler (PlayLoop K W G) MineRiderError α

section Effects

def send (around : Surroundings K W G) (packet : Serverbound K) : PlayM K W G Unit := fun s =>
  if s.room = 0 then (.error around.failure, s)
  else (.ok (), { s with sent := s.sent ++ [packet], room := s.room - 1 })

def emit (events : List BotEvent) : PlayM K W G Unit := .modify fun s => { s with events := s.events ++ events }

def update (f : PlayState K W G → PlayState K W G) : PlayM K W G Unit := .modify fun s => { s with state := f s.state }

def lift {α : Type} : Except MineRiderError α → PlayM K W G α
  | .ok a => pure a
  | .error error => .fail error

/-- Calls a method of the inventory and emits the events it returns. -/
def callInventory (call : InventoryStep) : PlayM K W G Unit := .modify fun s =>
  let (events, inventory) := s.state.inventory.step call
  { s with state := { s.state with inventory }, events := s.events ++ events.map .inventory }

def nextActionSequence : PlayM K W G Int32 := do
  update fun state => { state with nextActionSequence := state.nextActionSequence + 1 }
  return (← Handler.get).state.nextActionSequence

end Effects

section Commands

def handWireValue : Hand → Int32
  | .main => 0
  | .off => 1

/-- The texts of the errors that a chat message or a command can have. -/
def textErrorDisplay : ActionValidationError → String
  | .emptyChat => "chat messages must not be empty"
  | .emptyCommand => "commands must not be empty"
  | .chatStartsWithSlash => "chat text starts with '/'; use the explicit command action instead"
  | .commandStartsWithSlash => "command text must omit the leading '/'"
  | .chatTooLong actual max => s!"chat message is {actual} UTF-16 units; maximum is {max}"
  | .commandTooLong actual max => s!"command is {actual} UTF-16 units; maximum is {max}"
  | _ => ""

def sendOutboundChatAction (around : Surroundings K W G) (validated : Except ActionValidationError Unit)
    (packet : Serverbound K) : PlayM K W G Unit :=
  match validated with
  | .error error => .fail (.protocol (textErrorDisplay error))
  | .ok () => send around packet

def sendInventoryClick (around : Surroundings K W G) (request : InventoryClickRequest) : PlayM K W G Unit := do
  let s ← Handler.get
  let creative : Bool := s.state.hud.gameMode = .creative
  callInventory (.prepareClick request s.state.clock creative)
  match (s.state.inventory.prepareClick request s.state.clock creative).1 with
  | .error error => callInventory (.rejectTransaction request.transactionId error)
  | .ok prepared =>
    send around (.windowClick prepared.packet)
    callInventory (.markSent request.transactionId)

def sendUseItem (around : Surroundings K W G) (hand : Hand) : PlayM K W G Unit := do
  let sequence ← nextActionSequence
  let s ← Handler.get
  send around (.useItem (handWireValue hand) sequence s.state.player.position.yaw s.state.player.position.pitch)

def sendSelectHotbarSlot (around : Surroundings K W G) (slot : Int16) : PlayM K W G Unit := do
  send around (.heldItemSlot slot)
  callInventory (.selectHotbarSlot slot)

def sendUseItemOnBlock (around : Surroundings K W G) (placement : BlockPlacement) : PlayM K W G Unit := do
  let sequence ← nextActionSequence
  send around (.blockPlace (handWireValue placement.hand) ⟨placement.x, placement.z, placement.y.toInt16⟩
    placement.face placement.cursorX placement.cursorY placement.cursorZ placement.insideBlock false sequence)

/-- The `block_dig` packet, which serves for more than digging. -/
def sendBlockDig (around : Surroundings K W G) (status : Int32) (location : Position) (face : Int8) :
    PlayM K W G Unit := do
  let sequence ← nextActionSequence
  send around (.blockDig status location face sequence)

def noLocation : Position := ⟨0, 0, 0⟩

def digStatus : DigAction → Int32
  | .start => 0
  | .cancel => 1
  | .finish => 2

def sendReleaseItem (around : Surroundings K W G) : PlayM K W G Unit := sendBlockDig around 5 noLocation 0

def sendDigBlock (around : Surroundings K W G) (x y z face : Int32) (action : DigAction) : PlayM K W G Unit :=
  sendBlockDig around (digStatus action) ⟨x, z, y.toInt16⟩ face.toInt8

def sendDropItem (around : Surroundings K W G) (wholeStack : Bool) : PlayM K W G Unit :=
  sendBlockDig around (if wholeStack then 3 else 4) noLocation 0

def sendSwapHands (around : Surroundings K W G) : PlayM K W G Unit := sendBlockDig around 6 noLocation 0

def sendCloseGui (around : Surroundings K W G) : PlayM K W G Unit := do
  let s ← Handler.get
  match s.state.inventory.openWindow with
  | none => pure ()
  | some window =>
    send around (.closeWindow window.id)
    callInventory (.packet (.closeWindow ⟨window.id⟩))

/-- `Look` acts on the player, every other command of the controller's on the controller. -/
def applyCommand (around : Surroundings K W G) (command : BotCommand) (entropy : G) : PlayM K W G Unit :=
  update fun state =>
    match command with
    | .look yaw pitch =>
      { state with player := Controller.applyLook state.player (around.numbers.f32 yaw) (around.numbers.f32 pitch) }
    | command => { state with controller := state.controller.apply around.numbers around.random entropy command }

def handleCommand (around : Surroundings K W G) (command : BotCommand) (entropy : G) : PlayM K W G Unit :=
  match command with
  | .chat message => sendOutboundChatAction around command.validate (.chatMessage message)
  | .command text => sendOutboundChatAction around command.validate (.chatCommand text)
  | .inventoryClick request => sendInventoryClick around request
  | .useItem hand => sendUseItem around hand
  | .swing hand => send around (.armAnimation (handWireValue hand))
  | .selectHotbarSlot slot => sendSelectHotbarSlot around slot
  | .useItemOnBlock placement => sendUseItemOnBlock around placement
  | .interactEntity entityId hand sneaking =>
    send around (.useEntity entityId 0 none (some (handWireValue hand)) sneaking)
  | .attackEntity entityId sneaking => send around (.useEntity entityId 1 none none sneaking)
  | .interactAtEntity entityId hand sneaking x y z =>
    send around (.useEntity entityId 2 (some (x, y, z)) (some (handWireValue hand)) sneaking)
  | .releaseItem => sendReleaseItem around
  | .digBlock x y z face action => sendDigBlock around x y z face action
  | .dropItem wholeStack => sendDropItem around wholeStack
  | .swapHands => sendSwapHands around
  | .closeGui => sendCloseGui around
  | command => applyCommand around command entropy

end Commands

section Ticks

def respawnActionId : Int32 := 0

def requestRespawn (around : Surroundings K W G) : PlayM K W G Unit := do
  send around (.clientCommand respawnActionId)
  update fun state => { state with respawnPending := true }

def declareLoaded (around : Surroundings K W G) : PlayM K W G Unit := do
  send around .playerLoaded
  update fun state => { state with player := state.player.markLoaded }
  emit [.spawned]

def playerInputFlags (input : MovementInput) : UInt8 :=
  (if ltF32 zeroF32 input.forward then 0x01 else if ltF32 input.forward zeroF32 then 0x02 else 0) |||
  (if ltF32 zeroF32 input.strafe then 0x04 else if ltF32 input.strafe zeroF32 then 0x08 else 0) |||
  (if input.jump then 0x10 else 0) ||| (if input.sneak then 0x20 else 0) ||| (if input.sprint then 0x40 else 0)

def sendPlayerInputIfChanged (around : Surroundings K W G) : PlayM K W G Unit := do
  let s ← Handler.get
  let flags := playerInputFlags s.state.player.input
  if s.state.player.loaded ∧ flags ≠ s.state.lastPlayerInput then
    update fun state => { state with lastPlayerInput := flags }
    send around (.playerInput flags)

variable [Field K] [LinearOrder K] [FloorRing K]

/-- Whether a tick declares the player loaded: a position has come, and the chunk under it is there. -/
def readyToLoad (around : Surroundings K W G) (state : PlayState K W G) : Bool :=
  !state.player.loaded && state.receivedPosition && state.world.any fun world =>
    around.terrain.hasChunk world (chunkCoordinate (floorI32 state.player.position.x))
      (chunkCoordinate (floorI32 state.player.position.z))

/-- Drives the player and steps its physics, in a world. -/
def movePlayer (around : Surroundings K W G) : PlayM K W G Unit := do
  let s ← Handler.get
  match s.state.world with
  | none => pure ()
  | some world =>
    let (controller, player) := s.state.controller.drive around.numbers around.random s.state.player
    let (result, player) := player.tickPhysics around.numbers around.terrain world
    update fun state => { state with controller, player }
    lift result

def sendMovement (around : Surroundings K W G) : PlayM K W G Unit := do
  let s ← Handler.get
  update fun state => { state with player := state.player.movementPacket.2 }
  match s.state.player.movementPacket.1 with
  | none => pure ()
  | some packet => send around (.movement packet)

def sendTickEnd (around : Surroundings K W G) : PlayM K W G Unit := do
  let s ← Handler.get
  if s.state.player.loaded then send around .tickEnd

/-- The part of a tick that a living player reaches once it need not be declared loaded. -/
def movementTick (around : Surroundings K W G) : PlayM K W G Unit := do
  movePlayer around
  sendPlayerInputIfChanged around
  sendMovement around
  sendTickEnd around

def handleTick (around : Surroundings K W G) : PlayM K W G Unit := do
  let s ← Handler.get
  callInventory (.expireTransactions s.state.clock)
  if !s.state.player.isAlive then
    if !s.state.respawnPending then requestRespawn around
  else if readyToLoad around s.state then declareLoaded around
  else movementTick around

end Ticks

section Packets

def packStatusDeclined : Int32 := 1
def packStatusAccepted : Int32 := 3
def packStatusDownloaded : Int32 := 4
def packStatusSuccessfullyLoaded : Int32 := 0
def packStatusInvalidUrl : Int32 := 5
def packStatusFailedDownload : Int32 := 2

def handleOffer (around : Surroundings K W G) (uuid : BitVec 128) (download : PackDownload) : PlayM K W G Unit := do
  if around.acceptResourcePacks then
    send around (.resourcePackReceive uuid packStatusAccepted)
    match download with
    | .verified =>
      send around (.resourcePackReceive uuid packStatusDownloaded)
      send around (.resourcePackReceive uuid packStatusSuccessfullyLoaded)
    | .invalidUrl => send around (.resourcePackReceive uuid packStatusInvalidUrl)
    | .failed => send around (.resourcePackReceive uuid packStatusFailedDownload)
  else send around (.resourcePackReceive uuid packStatusDeclined)

def sideEvents : SidePacket → List BotEvent
  | .presentation event => [.presentation event]
  | .playerChat sender message => [.presentation .chat, .chat sender message]
  | .systemChat message => [.presentation .chat, .systemChat message]
  | .scoreboard event => [.scoreboard event]
  | .hud event => event.toList.map .hud
  | .spawnEntity entityId uuid kind => [.entitySpawned entityId uuid kind]
  | .entityDestroy entityIds => entityIds.map .entityRemoved
  | .entityMove => []
  | .playerInfo joined => joined.map (fun (uuid, name) => .playerJoined uuid name) ++ [.hud .playerListChanged]
  | .playerRemove removed => removed.map .playerLeft ++ [.hud .playerListChanged]
  | .updateTime timeOfDay => [.time timeOfDay, .hud .timeChanged]

/-- The dimension that a packet names by its index. -/
def findDimension (kind : String) (index : Int32) : PlayM K W G DimensionType := do
  let s ← Handler.get
  match s.dimensionTypes[asUsize index]? with
  | some dimension => pure dimension
  | none =>
    .fail (.protocol s!"{kind} dimension index {index} absent from {s.dimensionTypes.length} dimension types")

def onMapChunk (around : Surroundings K W G) (p : PacketMapChunk) : PlayM K W G Unit := do
  let s ← Handler.get
  match s.state.world with
  | none => .fail (.protocol "map_chunk arrived before play login dimension")
  | some world =>
    let world ← lift (around.insertChunk world p)
    update fun state => { state with world := some world }

/-- Updates are dropped while there is no world. -/
def onWorldUpdate (around : Surroundings K W G) (p : WorldUpdate) : PlayM K W G Unit := do
  let s ← Handler.get
  match s.state.world with
  | none => pure ()
  | some world =>
    let world ← lift (around.updateWorld world p)
    update fun state => { state with world := some world }

def onKickDisconnect (reason : String) : PlayM K W G Unit := do
  emit [.presentation .disconnected, .kicked reason]
  .fail (.disconnected reason)

def onInventory (p : InventoryPacket) : PlayM K W G Unit := do
  callInventory (.packet p)
  match p with
  | .heldItemSlot p =>
    update fun state => { state with hud := (state.hud.onSelectedHotbar p).2 }
    emit [.hud .hotbarChanged]
  | .setPlayerInventory p =>
    update fun state => { state with hud := (state.hud.onPlayerInventory p).2 }
    emit [.hud .hotbarChanged]
  | _ => pure ()

def weatherEvents (reason : UInt8) : List BotEvent :=
  if reason = 1 then [.weather true] else if reason = 2 then [.weather false] else []

def onGameStateChange (p : PacketGameStateChange) : PlayM K W G Unit := do
  let s ← Handler.get
  update fun state => { state with hud := (state.hud.onGameState p).2 }
  emit (weatherEvents p.reason ++ (s.state.hud.onGameState p).1.toList.map .hud)

variable [Field K]

def onPosition (around : Surroundings K W G) (p : PacketPosition K) : PlayM K W G Unit := do
  update fun state => { state with player := state.player.onPosition p, receivedPosition := true }
  send around (.teleportConfirm p.teleportId)
  let s ← Handler.get
  update fun state => { state with player := state.player.teleportAckMovement.2 }
  send around (.movement s.state.player.teleportAckMovement.1)

def onLogin (around : Surroundings K W G) (p : PacketLogin) : PlayM K W G Unit := do
  update fun state => { state with player := state.player.onLogin p.entityId, hud := state.hud.onLogin p }
  let dimension ← findDimension "play login" p.worldState.dimension
  update fun state => { state with world := some (around.newWorld dimension p.worldState) }
  emit [.login p.entityId]

def onRespawn (around : Surroundings K W G) (p : PacketRespawn) : PlayM K W G Unit := do
  update fun state =>
    { state with respawnPending := false, player := state.player.onRespawn, hud := (state.hud.onRespawn p).2 }
  emit [.hud .respawned]
  update fun state => { state with receivedPosition := false }
  let dimension ← findDimension "respawn" p.worldState.dimension
  update fun state => { state with world := some (around.newWorld dimension p.worldState) }

/-- `Death` is emitted when the player was alive before. -/
def onUpdateHealth (p : PacketUpdateHealth) : PlayM K W G Unit := do
  update fun state => { state with player := state.player.onHealth p }
  let s ← Handler.get
  let alive := s.state.player.isAlive
  emit ([.health p.health p.food p.foodSaturation] ++ if s.state.wasAlive && !alive then [.death] else [])
  update fun state => { state with wasAlive := alive }
  emit [.hud .vitalsChanged]

def onExperience (p : PacketExperience) : PlayM K W G Unit := do
  update fun state => { state with player := state.player.onExperience p }
  emit [.hud .experienceChanged]

/-- The velocity of another entity is stored for its readers only. -/
def onEntityVelocity (entityId : Int32) (x y z : Int16) : PlayM K W G Unit :=
  update fun state =>
    if state.player.entityId = some entityId then
      { state with
        player := state.player.applyVelocity ⟨(x.toInt : K) / 8000, (y.toInt : K) / 8000, (z.toInt : K) / 8000⟩ }
    else state

def handleClientbound (around : Surroundings K W G) : ClientboundPacket K → PlayM K W G Unit
  | .keepAlive id => send around (.keepAlive id)
  | .customPayload | .chunkBatchStart | .removeResourcePack | .unhandled => pure ()
  | .ping id => send around (.pong id)
  | .position p => onPosition around p
  | .chunkBatchFinished chunksPerTick => send around (.chunkBatchReceived chunksPerTick)
  | .mapChunk p => onMapChunk around p
  | .world p => onWorldUpdate around p
  | .addResourcePack uuid download => handleOffer around uuid download
  | .kickDisconnect reason => onKickDisconnect reason
  | .login p => onLogin around p
  | .respawn p => onRespawn around p
  | .updateHealth p => onUpdateHealth p
  | .experience p => onExperience p
  | .entityVelocity entityId x y z => onEntityVelocity entityId x y z
  | .inventory p => onInventory p
  | .gameStateChange p => onGameStateChange p
  | .side p => emit (sideEvents p)

end Packets

section Run

variable [Field K] [LinearOrder K] [FloorRing K]

/-- Runs a handler to its end; an error ends the loop. -/
def handle (m : PlayM K W G Unit) (s : PlayLoop K W G) : PlayLoop K W G :=
  match m s with
  | (.ok (), s) => s
  | (.error error, s) => { s with phase := .ended error }

def acknowledgeConfiguration (around : Surroundings K W G) : PlayM K W G Unit := do
  send around .configurationAcknowledged
  .modify fun s => { s with phase := .configuring }

def tick (around : Surroundings K W G) : PlayM K W G Unit := do
  update fun state => { state with clock := state.clock + 1 }
  handleTick around

/-- What the loop does next. An input that it does not wait for is not taken. -/
def step (around : Surroundings K W G) (s : PlayLoop K W G) (input : LoopInput K G) : PlayLoop K W G :=
  match s.phase, input with
  | .playing, .packet p => handle (handleClientbound around p) s
  | .playing, .startConfiguration => handle (acknowledgeConfiguration around) s
  | .playing, .readFailed error => { s with phase := .ended error }
  | .playing, .command command entropy => handle (handleCommand around command entropy) s
  | .playing, .tick => handle (tick around) s
  | .configuring, .configured dimensionTypes => { s with state := .new, dimensionTypes, phase := .playing }
  | .configuring, .configurationFailed error => { s with phase := .ended error }
  | _, _ => s

/-- The loop of a client that has just been configured. -/
def new (dimensionTypes : List DimensionType) (room : ℕ) : PlayLoop K W G :=
  ⟨.new, dimensionTypes, [], room, [], .playing⟩

def run (around : Surroundings K W G) (dimensionTypes : List DimensionType) (room : ℕ) (inputs : List (LoopInput K G)) :
    PlayLoop K W G :=
  inputs.foldl (step around) (new dimensionTypes room)

end Run

end PlayLoop

end MineRider.Model.Minecraft
