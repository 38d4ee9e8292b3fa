import MineRider.Model.Minecraft.Event
import MineRider.Model.Minecraft.Text

/-! # The player list

The tab list the server reports through `player_info` and `player_remove`. A `player_info` packet has one set of
action flags for all its items, and each flag says which field of an item is there to be applied; an item for a uuid
that is not in the list makes a new entry. The play session announces the players that a packet made join, after
the whole packet is applied, and those that it removed.
-/

namespace MineRider.Model.Minecraft

open Protocol

section Packets

structure PlayerChatSession where
  sessionId : BitVec 128
  expiresAtMillis : Int64
  publicKeyBytes : ℕ
  signatureBytes : ℕ
deriving DecidableEq, Repr

structure ChatSessionValue where
  uuid : BitVec 128
  expireTime : Int64
  keyBytes : List UInt8
  keySignature : List UInt8
deriving DecidableEq, Repr

/-- One item of `player_info`. A field the action does not announce is absent; of the profile only the name is read. -/
structure PlayerInfoDataItem where
  uuid : BitVec 128
  player : Option String
  chatSession : Option (Option ChatSessionValue)
  gamemode : Option Int32
  listed : Option Int32
  latency : Option Int32
  displayName : Option (Option Nbt)
  listPriority : Option Int32
  showHat : Option Bool

structure PlayerInfoAction where
  flags : UInt8
deriving DecidableEq, Repr

namespace PlayerInfoAction

def addPlayer : UInt8 := 0x01
def initializeChat : UInt8 := 0x02
def updateGameMode : UInt8 := 0x04
def updateListed : UInt8 := 0x08
def updateLatency : UInt8 := 0x10
def updateDisplayName : UInt8 := 0x20
def updateHat : UInt8 := 0x40
def updateListOrder : UInt8 := 0x80

def contains (action : PlayerInfoAction) (flag : UInt8) : Bool := action.flags &&& flag != 0

end PlayerInfoAction

structure PacketPlayerInfo where
  action : PlayerInfoAction
  data : List PlayerInfoDataItem

structure PacketPlayerRemove where
  players : List (BitVec 128)

end Packets

structure PlayerEntry where
  uuid : BitVec 128
  name : String
  gamemode : Int32
  latency : Int32
  listed : Bool
  displayName : Option TextComponent
  listPriority : Int32
  showHat : Bool
  chatSession : Option PlayerChatSession

namespace PlayerEntry

open PlayerInfoAction

/-- An entry of which only the uuid is known. -/
def fresh (uuid : BitVec 128) : PlayerEntry := ⟨uuid, "", -1, -1, false, none, 0, false, none⟩

/-- The new value of a field, if the action announces it and the item has it. -/
def field {α : Type} (action : PlayerInfoAction) (flag : UInt8) (sent : Option α) (current : α) : α :=
  if action.contains flag then sent.getD current else current

def applyItem (entry : PlayerEntry) (action : PlayerInfoAction) (item : PlayerInfoDataItem) : PlayerEntry where
  uuid := entry.uuid
  name := field action addPlayer item.player entry.name
  chatSession := field action initializeChat (item.chatSession.map (Option.map fun session =>
    ⟨session.uuid, session.expireTime, session.keyBytes.length, session.keySignature.length⟩)) entry.chatSession
  gamemode := field action updateGameMode item.gamemode entry.gamemode
  latency := field action updateLatency item.latency entry.latency
  listed := field action updateListed (item.listed.map (· != 0)) entry.listed
  displayName := field action updateDisplayName (item.displayName.map (Option.map .fromNbt)) entry.displayName
  listPriority := field action updateListOrder item.listPriority entry.listPriority
  showHat := field action updateHat item.showHat entry.showHat

end PlayerEntry

def maxPlayers : ℕ := 4096

structure PlayerList where
  players : AList fun _ : BitVec 128 => PlayerEntry

structure PlayerInfoChanges where
  joined : List (BitVec 128 × String)
  updated : List (BitVec 128)
  rejected : ℕ
deriving DecidableEq, Repr

namespace PlayerList

def empty : PlayerList := ⟨∅⟩

/-- One item: the changes so far and the list, with those of the item. -/
def applyInfoItem (action : PlayerInfoAction) (state : PlayerInfoChanges × PlayerList) (item : PlayerInfoDataItem) :
    PlayerInfoChanges × PlayerList :=
  let (changes, list) := state
  let isNew := decide (item.uuid ∉ list.players)
  if isNew && decide (list.players.keys.length ≥ maxPlayers) then
    ({ changes with rejected := changes.rejected + 1 }, list)
  else
    let entry := ((list.players.lookup item.uuid).getD (.fresh item.uuid)).applyItem action item
    let joined := if isNew && !entry.name.isEmpty then [(entry.uuid, entry.name)] else []
    ({ changes with joined := changes.joined ++ joined, updated := changes.updated ++ [item.uuid] },
      ⟨list.players.insert item.uuid entry⟩)

def applyInfo (list : PlayerList) (packet : PacketPlayerInfo) : PlayerInfoChanges × PlayerList :=
  packet.data.foldl (applyInfoItem packet.action) (⟨[], [], 0⟩, list)

/-- One uuid: those removed so far and the list, with this one. -/
def applyRemoveUuid (state : List (BitVec 128) × PlayerList) (uuid : BitVec 128) : List (BitVec 128) × PlayerList :=
  let (removed, list) := state
  if uuid ∈ list.players then (removed ++ [uuid], ⟨list.players.erase uuid⟩) else (removed, list)

def applyRemove (list : PlayerList) (packet : PacketPlayerRemove) : List (BitVec 128) × PlayerList :=
  packet.players.foldl applyRemoveUuid ([], list)

inductive Packet where
  | playerInfo (packet : PacketPlayerInfo)
  | playerRemove (packet : PacketPlayerRemove)

/-- The events of a packet, as the play session emits them, and the list after it. -/
def onPacket (list : PlayerList) : Packet → List BotEvent × PlayerList
  | .playerInfo packet =>
    let (changes, next) := list.applyInfo packet
    (changes.joined.map (fun player => .playerJoined player.1 player.2) ++ [.hud .playerListChanged], next)
  | .playerRemove packet =>
    let (removed, next) := list.applyRemove packet
    (removed.map .playerLeft ++ [.hud .playerListChanged], next)

/-- All events of a sequence of packets, and the list in the end. -/
def run (packets : List Packet) : List BotEvent × PlayerList :=
  packets.foldl (fun (events, list) packet => (events ++ (list.onPacket packet).1, (list.onPacket packet).2))
    ([], empty)

end PlayerList

end MineRider.Model.Minecraft
