import MineRider.Model.Minecraft.Event

/-! # Work items

Everything that can arrive in a worker's inbound queue, with the event names scripts register for and
the priority each item has in the queue. Names are an enumeration; `text` is what a script writes.
-/

namespace MineRider.Model.Lua

open Model.Minecraft

section Names

inductive EventName where
  | connecting | connected | disconnected | reconnectScheduled | retryStarted | retriesExhausted
  | stopped | kicked | login | spawned | death | health | chat | systemChat | playerJoined | playerLeft
  | playerUpdated | entitySpawned | entityRemoved | time | weather | presentation | actionBar | title
  | bossBar | scoreboard | team | hud | guiOpened | guiClosed | inventory | actionResult
  | workerOverload | scriptError | scriptDisabled
  -- names of items that no script can register for
  | callbackCompletion | message | timer
deriving DecidableEq, Repr

def EventName.text : EventName → String
  | .connecting => "connecting"
  | .connected => "connected"
  | .disconnected => "disconnected"
  | .reconnectScheduled => "reconnect_scheduled"
  | .retryStarted => "retry_started"
  | .retriesExhausted => "retries_exhausted"
  | .stopped => "stopped"
  | .kicked => "kicked"
  | .login => "login"
  | .spawned => "spawned"
  | .death => "death"
  | .health => "health"
  | .chat => "chat"
  | .systemChat => "system_chat"
  | .playerJoined => "player_joined"
  | .playerLeft => "player_left"
  | .playerUpdated => "player_updated"
  | .entitySpawned => "entity_spawned"
  | .entityRemoved => "entity_removed"
  | .time => "time"
  | .weather => "weather"
  | .presentation => "presentation"
  | .actionBar => "action_bar"
  | .title => "title"
  | .bossBar => "boss_bar"
  | .scoreboard => "scoreboard"
  | .team => "team"
  | .hud => "hud"
  | .guiOpened => "gui_opened"
  | .guiClosed => "gui_closed"
  | .inventory => "inventory"
  | .actionResult => "action_result"
  | .workerOverload => "worker_overload"
  | .scriptError => "script_error"
  | .scriptDisabled => "script_disabled"
  | .callbackCompletion => "callback_completion"
  | .message => "message"
  | .timer => "timer"

/-- `EVENT_NAMES` -/
def eventNames : List EventName :=
  [.connecting, .connected, .disconnected, .reconnectScheduled, .retryStarted, .retriesExhausted, .stopped,
    .kicked, .login, .spawned, .death, .health, .chat, .systemChat, .playerJoined, .playerLeft, .playerUpdated,
    .entitySpawned, .entityRemoved, .time, .weather, .presentation, .actionBar, .title, .bossBar, .scoreboard,
    .team, .hud, .guiOpened, .guiClosed, .inventory, .actionResult, .workerOverload, .scriptError, .scriptDisabled]

def internEventName (name : String) : Option EventName := eventNames.find? fun known => known.text == name

def presentationEventName : PresentationEvent → EventName
  | .chat => .presentation
  | .actionBarChanged => .actionBar
  | .titleChanged | .subtitleChanged | .titleTimingChanged | .titlesCleared => .title
  | .tabListChanged => .presentation
  | .bossBarChanged => .bossBar
  | .disconnected => .presentation

def scoreboardEventName : ScoreboardEvent → EventName
  | .objectiveChanged | .displaySlotChanged | .scoreChanged => .scoreboard
  | .teamChanged => .team

def hudEventName : HudEvent → EventName
  | .death => .death
  | .timeChanged => .time
  | .weatherChanged => .weather
  | .playerListChanged => .playerUpdated
  | .vitalsChanged | .experienceChanged | .gameModeChanged | .abilitiesChanged | .hotbarChanged
  | .cooldownChanged | .effectChanged | .attributesChanged | .respawned | .worldBorderChanged
  | .difficultyChanged | .spawnPositionChanged => .hud

def inventoryEventName : InventoryEvent → EventName
  | .windowClosed _ => .guiClosed
  | .windowSynchronized _ _ true => .guiOpened
  | .windowSynchronized _ _ false | .windowOpened _ | .slotUpdated .. | .cursorUpdated | .propertyUpdated ..
  | .selectedHotbarChanged .. | .transactionQueued _ | .transactionSent _ | .transactionFinished ..
  | .transactionRejected .. => .inventory

def botEventName : BotEvent → EventName
  | .login _ => .login
  | .spawned => .spawned
  | .health .. => .health
  | .death => .death
  | .chat .. => .chat
  | .systemChat _ => .systemChat
  | .playerJoined .. => .playerJoined
  | .playerLeft _ => .playerLeft
  | .entitySpawned .. => .entitySpawned
  | .entityRemoved _ => .entityRemoved
  | .time _ => .time
  | .weather _ => .weather
  | .kicked _ => .kicked
  | .presentation inner => presentationEventName inner
  | .scoreboard inner => scoreboardEventName inner
  | .hud inner => hudEventName inner
  | .inventory inner => inventoryEventName inner
  | .connecting => .connecting
  | .connected => .connected
  | .disconnected _ => .disconnected
  | .reconnectScheduled .. => .reconnectScheduled
  | .retryAttemptStarted _ => .retryStarted
  | .retriesExhausted => .retriesExhausted
  | .stoppedByCancellation => .stopped

end Names

section Items

structure ScriptError where
  code : String
  message : String
  retryable : Bool
  botId : Option UInt32
  generation : Option UInt64
deriving DecidableEq, Repr

namespace ScriptError

def new (code message : String) : ScriptError := ⟨code, message, false, none, none⟩

def workerOverloaded : ScriptError :=
  { new "worker_overloaded" "this worker's critical event queue is saturated" with retryable := true }

def shutdown : ScriptError := new "shutdown" "the swarm is shutting down"

def inventoryTimeout : ScriptError := new "inventory_timeout" "action callback timed out waiting for a result"

end ScriptError

inductive ActionOutcome where
  | deliveredSent
  | confirmed (stateId : Int32)
  | corrected (stateId : Int32)
  | error (error : ScriptError)
deriving DecidableEq, Repr

structure ActionResult where
  requestId : UInt64
  botId : UInt32
  outcome : ActionOutcome
deriving DecidableEq, Repr

/-- Plain data that crosses between workers; numbers are the bits of a double. -/
inductive SharedValue where
  | nil
  | bool (value : Bool)
  | number (bits : UInt64)
  | str (value : String)
  | array (items : List SharedValue)
  | map (entries : List (String × SharedValue))

inductive WorkItem where
  | bot (event : BotEvent)
  | actionResult (result : ActionResult)
  | callbackCompletion (result : ActionResult)
  | message (topic : String) (payload : SharedValue)
  | timerFired (timerId : UInt64)
  | scriptError (eventName : EventName) (message : String)
  | scriptDisabled (reason : String)
  | workerOverloaded

inductive Priority where
  | high
  | coalescible
  | low
deriving DecidableEq, Repr

def botEventPriority : BotEvent → Priority
  | .connecting | .connected | .disconnected _ | .reconnectScheduled .. | .retryAttemptStarted _
  | .retriesExhausted | .stoppedByCancellation | .kicked _ | .death | .login _ | .spawned => .high
  | .health .. | .time _ | .weather _ => .coalescible
  | .hud .death | .hud .respawned => .high
  | .hud _ => .coalescible
  | .inventory (.windowClosed _) | .inventory (.windowSynchronized _ _ true)
  | .inventory (.transactionFinished ..) | .inventory (.transactionRejected ..) => .high
  | .inventory _ => .low
  | .chat .. | .systemChat _ | .playerJoined .. | .playerLeft _ | .entitySpawned .. | .entityRemoved _
  | .presentation _ | .scoreboard _ => .low

namespace WorkItem

def priority : WorkItem → Priority
  | .bot event => botEventPriority event
  | .actionResult _ | .callbackCompletion _ => .high
  | .message .. | .timerFired _ => .low
  | .scriptError .. | .scriptDisabled _ => .high
  | .workerOverloaded => .low

def name : WorkItem → EventName
  | .bot event => botEventName event
  | .actionResult _ => .actionResult
  | .callbackCompletion _ => .callbackCompletion
  | .message .. => .message
  | .timerFired _ => .timer
  | .scriptError .. => .scriptError
  | .scriptDisabled _ => .scriptDisabled
  | .workerOverloaded => .workerOverload

/-- The request a lost item would leave unanswered. -/
def requestId? : WorkItem → Option UInt64
  | .actionResult result | .callbackCompletion result => some result.requestId
  | _ => none

end WorkItem

end Items

end MineRider.Model.Lua
