import Mathlib.Data.Finset.Basic
import MineRider.Model.Core.Supervisor
import MineRider.Model.Lua.Event

/-! # The swarm's configuration

What a script configures before its bots connect: servers, bots and groups, checked call by call. The host fixes the
proxy profiles a script may name before any script runs. A bulk `add_group` adds its bots one by one and takes them
back if one of them, or the group itself, is refused.

Strings are measured in UTF-8 bytes. The tables of a call are what their parser makes of them, which may be an error
that is raised before the registry is touched.
-/

namespace MineRider.Model.Lua

open Model.Core

def maxBots : ℕ := 20000
def maxGroups : ℕ := 4000
def maxBotsPerGroup : ℕ := 20000
def maxNameLen : ℕ := 256
def maxUsernameLen : ℕ := 64
def maxLabelLen : ℕ := 256

section Values

/-- Durations are in nanoseconds. -/
structure ServerDef where
  name : String
  host : String
  port : UInt16
  viewDistance : Int8
  writeTimeout : ℕ
  connectDeadline : ℕ
  sharedChunks : Bool
  acceptResourcePacks : Bool
deriving DecidableEq, Repr

structure BotDef where
  id : UInt32
  username : String
  server : String
  proxy : Option String
  reconnect : ReconnectPolicy
  label : Option String

structure GroupDef where
  name : String
  botIds : List UInt32
deriving DecidableEq, Repr

structure BotSpec where
  id : Option UInt32
  username : String
  server : String
  proxy : Option String
  reconnect : ReconnectPolicy
  label : Option String

end Values

inductive RegistryError where
  | duplicateServer (name : String)
  | duplicateBotId (id : UInt32)
  | duplicateUsername (username : String)
  | duplicateGroup (name : String)
  | unknownServer (name : String)
  | unknownProxy (profile : String)
  | invalidConfiguration (detail : String)
deriving DecidableEq, Repr

namespace RegistryError

def code : RegistryError → String
  | .duplicateServer _ | .duplicateBotId _ | .duplicateUsername _ | .duplicateGroup _ => "duplicate_id"
  | .unknownServer _ => "unknown_server"
  | .unknownProxy _ => "unknown_proxy"
  | .invalidConfiguration _ => "invalid_configuration"

def message : RegistryError → String
  | .duplicateServer name => s!"server `{name}` is already defined"
  | .duplicateBotId id => s!"bot id {id} is already in use"
  | .duplicateUsername username => s!"bot username `{username}` is already in use"
  | .duplicateGroup name => s!"group `{name}` is already defined"
  | .unknownServer name => s!"server `{name}` is not defined"
  | .unknownProxy profile => s!"proxy profile `{profile}` is not configured"
  | .invalidConfiguration detail => s!"invalid configuration: {detail}"

def toScriptError (error : RegistryError) : ScriptError := .new error.code error.message

end RegistryError

structure SwarmRegistryBuilder where
  servers : AList fun _ : String => ServerDef
  proxyProfileIds : Finset String
  bots : AList fun _ : UInt32 => BotDef
  usernameToId : AList fun _ : String => UInt32
  groups : AList fun _ : String => GroupDef
  nextAutoId : UInt32

/-- One more, unless there is none. -/
def checkedSucc (n : UInt32) : Option UInt32 := if n.toNat + 1 < UInt32.size then some (n + 1) else none

theorem lt_of_checkedSucc {n next : UInt32} (found : checkedSucc n = some next) : n.toNat < next.toNat := by
  unfold checkedSucc at found
  split_ifs at found with room
  cases found
  rw [UInt32.toNat_add, UInt32.toNat_one, Nat.mod_eq_of_lt room]
  omega

namespace SwarmRegistryBuilder

def new (proxyProfileIds : Finset String) : SwarmRegistryBuilder := ⟨∅, proxyProfileIds, ∅, ∅, ∅, 0⟩

def addServer (b : SwarmRegistryBuilder) (server : ServerDef) : Except RegistryError Unit × SwarmRegistryBuilder :=
  if server.name = "" then (.error (.invalidConfiguration "server name must not be empty"), b)
  else if server.name.utf8ByteSize > maxNameLen then
    (.error (.invalidConfiguration s!"server name exceeds the {maxNameLen}-byte limit"), b)
  else if server.host = "" then
    (.error (.invalidConfiguration s!"server `{server.name}` has an empty host"), b)
  else if ¬ (2 ≤ server.viewDistance ∧ server.viewDistance ≤ 32) then
    (.error (.invalidConfiguration
      s!"server `{server.name}` has view_distance {server.viewDistance} outside 2..=32"), b)
  else if server.name ∈ b.servers then (.error (.duplicateServer server.name), b)
  else (.ok (), { b with servers := b.servers.insert server.name server })

/-- The next id that no bot has, searched for up to the last one. -/
def allocateId (b : SwarmRegistryBuilder) : Except RegistryError UInt32 × SwarmRegistryBuilder :=
  if b.nextAutoId ∉ b.bots then
    (.ok b.nextAutoId, { b with nextAutoId := (checkedSucc b.nextAutoId).getD b.nextAutoId })
  else
    match _found : checkedSucc b.nextAutoId with
    | some next => allocateId { b with nextAutoId := next }
    | none => (.error (.invalidConfiguration "no free auto-assigned bot id remains up to u32::MAX"), b)
termination_by UInt32.size - b.nextAutoId.toNat
decreasing_by
  have := lt_of_checkedSucc _found
  have := next.toNat_lt
  simp only [UInt32.size]
  omega

/-- The id of a new bot: the one asked for if it is free, or the next free one. -/
def chooseId (b : SwarmRegistryBuilder) : Option UInt32 → Except RegistryError UInt32 × SwarmRegistryBuilder
  | some id => if id ∈ b.bots then (.error (.duplicateBotId id), b) else (.ok id, b)
  | none => b.allocateId

/-- The first check that a bot fails, if any. -/
def refuseBot (b : SwarmRegistryBuilder) (spec : BotSpec) : Option RegistryError :=
  if spec.username = "" then some (.invalidConfiguration "bot username must not be empty")
  else if spec.username.utf8ByteSize > maxUsernameLen then
    some (.invalidConfiguration s!"bot username exceeds the {maxUsernameLen}-byte limit")
  else if ∃ label ∈ spec.label, label.utf8ByteSize > maxLabelLen then
    some (.invalidConfiguration s!"bot label exceeds the {maxLabelLen}-byte limit")
  else if spec.server ∉ b.servers then some (.unknownServer spec.server)
  else
    match spec.proxy.filter (· ∉ b.proxyProfileIds) with
    | some proxy => some (.unknownProxy proxy)
    | none =>
      if spec.username ∈ b.usernameToId then some (.duplicateUsername spec.username)
      else if b.bots.keys.length ≥ maxBots then
        some (.invalidConfiguration s!"swarm already has the maximum of {maxBots} bots")
      else none

def addBot (b : SwarmRegistryBuilder) (spec : BotSpec) : Except RegistryError UInt32 × SwarmRegistryBuilder :=
  match b.refuseBot spec with
  | some error => (.error error, b)
  | none =>
    match b.chooseId spec.id with
    | (.error error, b) => (.error error, b)
    | (.ok id, b) =>
      (.ok id, { b with
        nextAutoId := max b.nextAutoId ((checkedSucc id).getD id)
        usernameToId := b.usernameToId.insert spec.username id
        bots := b.bots.insert id ⟨id, spec.username, spec.server, spec.proxy, spec.reconnect, spec.label⟩ })

/-- Take back a bot. The counter of ids is not rewound. -/
def removeBot (b : SwarmRegistryBuilder) (id : UInt32) : Bool × SwarmRegistryBuilder :=
  match b.bots.lookup id with
  | some bot => (true, { b with bots := b.bots.erase id, usernameToId := b.usernameToId.erase bot.username })
  | none => (false, b)

def addGroup (b : SwarmRegistryBuilder) (name : String) (botIds : List UInt32) :
    Except RegistryError Unit × SwarmRegistryBuilder :=
  if name = "" then (.error (.invalidConfiguration "group name must not be empty"), b)
  else if name.utf8ByteSize > maxNameLen then
    (.error (.invalidConfiguration s!"group name exceeds the {maxNameLen}-byte limit"), b)
  else if botIds.length > maxBotsPerGroup then
    (.error (.invalidConfiguration
      s!"group `{name}` has {botIds.length} bots, exceeding the {maxBotsPerGroup} limit"), b)
  else if name ∈ b.groups then (.error (.duplicateGroup name), b)
  else if b.groups.keys.length ≥ maxGroups then
    (.error (.invalidConfiguration s!"swarm already has the maximum of {maxGroups} groups"), b)
  else
    match botIds.find? (· ∉ b.bots) with
    | some id => (.error (.invalidConfiguration s!"group `{name}` references unknown bot id {id}"), b)
    | none => (.ok (), { b with groups := b.groups.insert name ⟨name, botIds⟩ })

end SwarmRegistryBuilder

namespace LuaSwarm

open SwarmRegistryBuilder

/-- The fields of a bulk `add_group`. Only the reconnect policy can fail to parse; the others have defaults. -/
structure GroupTable where
  name : String
  count : UInt32
  idPrefixText : Option String
  usernamePrefixText : String
  server : String
  proxy : Option String
  reconnect : Except String ReconnectPolicy

/-- What a call gives back: the answer, an error for the script to look at, or an error that is raised in it. -/
inductive Reply where
  | done
  | added (id : UInt32)
  | failed (error : ScriptError)
  | raised (message : String)
deriving DecidableEq, Repr

def Reply.isFailure : Reply → Bool
  | .done | .added _ => false
  | .failed _ | .raised _ => true

/-- The bot with a number of the group. -/
def GroupTable.bot (table : GroupTable) (reconnect : ReconnectPolicy) (i : ℕ) : BotSpec where
  id := none
  username := s!"{table.usernamePrefixText}{i}"
  server := table.server
  proxy := table.proxy
  reconnect := reconnect
  label := table.idPrefixText.map fun text => s!"{text}{i}"

def rollBack (ids : List UInt32) (b : SwarmRegistryBuilder) : SwarmRegistryBuilder :=
  ids.foldl (fun b id => (b.removeBot id).2) b

/-- Add the bots of a group. If one is refused, those before it are taken back. -/
def addBots : List BotSpec → List UInt32 → SwarmRegistryBuilder →
    Except RegistryError (List UInt32) × SwarmRegistryBuilder
  | [], ids, b => (.ok ids, b)
  | spec :: rest, ids, b =>
    match b.addBot spec with
    | (.ok id, b) => addBots rest (ids ++ [id]) b
    | (.error error, b) => (.error error, rollBack ids b)

def addGroup (b : SwarmRegistryBuilder) (table : GroupTable) : Reply × SwarmRegistryBuilder :=
  if table.count.toNat > maxBotsPerGroup then
    (.failed (.new "invalid_configuration"
      s!"group `{table.name}` requested {table.count} bots, exceeding the {maxBotsPerGroup} limit"), b)
  else
    match table.reconnect with
    | .error message => (.raised message, b)
    | .ok reconnect =>
      match addBots ((List.range table.count.toNat).map (table.bot reconnect)) [] b with
      | (.error error, b) => (.failed error.toScriptError, b)
      | (.ok ids, b) =>
        match b.addGroup table.name ids with
        | (.ok (), b) => (.done, b)
        | (.error error, b) => (.failed error.toScriptError, rollBack ids b)

/-- A call of the script, with its table as parsed. -/
inductive Call where
  | addServer (table : Except String ServerDef)
  | addBot (table : Except String BotSpec)
  | addGroup (table : GroupTable)

def call (b : SwarmRegistryBuilder) : Call → Reply × SwarmRegistryBuilder
  | .addServer (.error message) => (.raised message, b)
  | .addServer (.ok server) =>
    match b.addServer server with
    | (.ok (), b) => (.done, b)
    | (.error error, b) => (.failed error.toScriptError, b)
  | .addBot (.error message) => (.raised message, b)
  | .addBot (.ok spec) =>
    match b.addBot spec with
    | (.ok id, b) => (.added id, b)
    | (.error error, b) => (.failed error.toScriptError, b)
  | .addGroup table => addGroup b table

/-- The registry after the calls of a script. -/
def configure (proxyProfileIds : Finset String) (calls : List Call) : SwarmRegistryBuilder :=
  calls.foldl (fun b next => (call b next).2) (new proxyProfileIds)

end LuaSwarm

end MineRider.Model.Lua
