import MineRider.Machine.Borrow
import MineRider.Model.Lua.Queue

/-! # One Lua worker

A worker runs the handlers, one-shot callbacks, subscriptions and timers of its script. Its state sits
in dynamically checked cells, and every function here takes the guards the source takes, for as long
as the source keeps them; in particular the guard of an `if let` scrutinee lives until the end of the
`if let`.

What a Lua function does when it is called is a tree of calls into the API, chosen anew for every
call, so that it may depend on anything. Lua code that the API itself calls back (`configure`,
`shared:update`, metamethods of argument tables) runs while the API holds no guard, and is part of the
same tree. Everything else the worker cannot determine itself is drawn from the context: the clock,
request ids, the order in which a hash map is walked, and whether an allocation in the VM succeeds.
Finalizers run by the collector are not modelled.
-/

namespace MineRider.Model.Lua

open Machine Borrow

section State

/-- A Lua function in the VM's registry. -/
abbrev LuaFn := ℕ

structure Handler where
  id : UInt64
  key : LuaFn
  once : Bool
deriving DecidableEq, Repr

structure HandlerRegistry where
  global : AList fun _ : EventName => List Handler
  perBot : AList fun _ : UInt32 × EventName => List Handler
  nextId : UInt64

structure PendingCallback where
  key : LuaFn
  botId : UInt32
  registeredAt : ℕ
deriving DecidableEq, Repr

def maxPendingCallbacks : ℕ := 4096

structure TimerEntry where
  key : LuaFn
  interval : Option ℕ
  nextFire : ℕ
  botId : Option UInt32
deriving DecidableEq, Repr

structure TimerRegistry where
  entries : AList fun _ : UInt64 => TimerEntry
  nextId : UInt64

def maxTimersPerWorker : ℕ := 1024

/-- Ten milliseconds; durations are in nanoseconds. -/
def minTimerInterval : ℕ := 10000000

/-- The bots that were started, and those with a connection handle. -/
structure StartupPayload where
  bots : List UInt32
  handles : List UInt32
deriving DecidableEq, Repr

structure WorkerReport where
  eventsProcessed : UInt64
  handlersRun : UInt64
  handlerErrors : UInt64
  botsDisabled : UInt64
deriving DecidableEq, Repr

/-- A top-level call of a Lua function, by what it is called for. -/
inductive Invocation where
  | callback (result : ActionResult)
  | handler (id : UInt64)
  | message (id : UInt64)
  | timer (id : UInt64)
deriving DecidableEq, Repr

/-- What a worker does outside its own state. -/
inductive Effect where
  | spawn (requestId : UInt64) (botId : UInt32) (connected : Bool)
  | overloaded (requestId : UInt64) (botId : UInt32)
  | publish (topic : String) (payload : SharedValue)
  | stopBot (botId : UInt32)
  | shutdown

/-- What happened to callbacks, and which calls were made. -/
inductive Trace where
  | registered (requestId : UInt64)
  | evicted (requestId : UInt64)
  | invoked (what : Invocation)
deriving DecidableEq, Repr

/-- The cells of `WorkerState`. -/
inductive Cell where
  | instructionCounter
  | handlers
  | callbacks
  | disabledBots
  | consecutiveErrors
  | configBuilder
  | configTx
  | started
  | pubsub
  | timers
deriving DecidableEq, Repr

/-- The contents of the cells that the worker reads, its report, and what it has done so far. -/
structure WorkerState where
  handlers : HandlerRegistry
  pending : AList fun _ : UInt64 => PendingCallback
  disabledBots : List UInt32
  consecutiveErrors : AList fun _ : UInt32 => UInt32
  started : Option StartupPayload
  pubsub : AList fun _ : String => List Handler
  timers : TimerRegistry
  report : WorkerReport
  effects : List Effect
  trace : List Trace
  draws : ℕ

def WorkerState.start : WorkerState where
  handlers := ⟨∅, ∅, 0⟩
  pending := ∅
  disabledBots := []
  consecutiveErrors := ∅
  started := none
  pubsub := ∅
  timers := ⟨∅, 0⟩
  report := ⟨0, 0, 0, 0⟩
  effects := []
  trace := []
  draws := 0

abbrev Worker (α : Type) := Borrow Cell WorkerState α

end State

section Scripts

/-- A call of the API, with the arguments that passed their own validation. -/
inductive Call where
  /-- The methods that only start an action: movement, looking, chat, hands. -/
  | action (botId : UInt32)
  /-- `click_gui` and `click_inventory` -/
  | click (botId : UInt32) (callback : Option LuaFn)
  | botOn (botId : UInt32) (name : String) (func : LuaFn) (once : Bool)
  | swarmOn (name : String) (func : LuaFn) (once : Bool)
  | off (id : UInt64)
  | onMessage (topic : String) (func : LuaFn)
  | publish (topic : String) (payload : SharedValue)
  | botTimer (botId : UInt32) (delay : ℕ) (interval : Option ℕ) (func : LuaFn)
  | swarmTimer (delay : ℕ) (interval : Option ℕ) (func : LuaFn)
  | botClearTimer (id : UInt64)
  | swarmClearTimer (id : UInt64)
  /-- Every lookup in the started swarm. -/
  | query
  /-- `disconnect` and `stop` of one bot -/
  | stopBot (botId : UInt32)
  | disconnectAll
  | stop
  /-- The registry's verdict on a configuration call is part of the call. -/
  | addServer (accepted : Bool)
  | addBot (accepted : Bool)
  | addGroup (bots : List Bool) (accepted : Bool)
  | connectAll (outcome : Option StartupPayload)

inductive Response where
  | nil
  | id (value : UInt64)
  | bool (value : Bool)
  | raised
deriving DecidableEq, Repr

/-- What a Lua function does: it returns or fails, or it calls the API and goes on. -/
inductive LuaProg where
  | done (ok : Bool)
  | call (call : Call) (next : Response → LuaProg)

/-- Everything a worker runs with and cannot choose. -/
structure Context where
  workerIndex : ℕ
  workerCount : ℕ
  isCoordinator : Bool
  consecutiveErrorThreshold : UInt32
  callbackTimeout : ℕ
  script : Invocation → LuaFn → ℕ → LuaProg
  clock : ℕ → ℕ
  requestIds : ℕ → UInt64
  permits : ℕ → Bool
  allocates : ℕ → Bool
  converts : ℕ → Bool
  order : ℕ → List UInt64 → List UInt64
  order_perm : ∀ n ids, (order n ids).Perm ids

end Scripts

section Draws

variable (ctx : Context)

/-- The number of the next draw from the context. -/
def draw : Worker ℕ := do
  let s ← get
  modify fun s => { s with draws := s.draws + 1 }
  pure s.draws

/-- `Instant::now` -/
def instant : Worker ℕ := do
  let n ← draw
  pure (ctx.clock n)

/-- Whether a Lua table or object could be built. -/
def convert : Worker Bool := do
  let n ← draw
  pure (ctx.converts n)

/-- `create_registry_value` -/
def allocate : Worker Bool := do
  let n ← draw
  pure (ctx.allocates n)

/-- The keys of a hash map, in the order in which it is walked. -/
def walk (keys : WorkerState → List UInt64) : Worker (List UInt64) := do
  let n ← draw
  let s ← get
  pure (ctx.order n (keys s))

def emit (effect : Effect) : Worker Unit := modify fun s => { s with effects := s.effects ++ [effect] }

def log (event : Trace) : Worker Unit := modify fun s => { s with trace := s.trace ++ [event] }

def workerIndexFor (botId : UInt32) : ℕ := botId.toNat % ctx.workerCount

end Draws

section Handlers

def appendHandler {κ : Type} [DecidableEq κ] (handlers : AList fun _ : κ => List Handler) (key : κ)
    (handler : Handler) :
    AList fun _ : κ => List Handler :=
  handlers.insert key ((handlers.lookup key).getD [] ++ [handler])

def holds (id : UInt64) (handlers : Option (List Handler)) : Bool :=
  (handlers.getD []).any fun handler => handler.id == id

/-- Removes the first handler with the id, if any list has one. -/
def removeHandler {κ : Type} [DecidableEq κ] (handlers : AList fun _ : κ => List Handler) (id : UInt64) :
    Option (AList fun _ : κ => List Handler) :=
  (handlers.keys.find? fun key => holds id (handlers.lookup key)).map fun key =>
    handlers.insert key (((handlers.lookup key).getD []).eraseP fun handler => handler.id == id)

namespace HandlerRegistry

def registerGlobal (registry : HandlerRegistry) (name : EventName) (key : LuaFn) (once : Bool) :
    UInt64 × HandlerRegistry :=
  let id := registry.nextId + 1
  (id, { registry with global := appendHandler registry.global name ⟨id, key, once⟩, nextId := id })

def registerBot (registry : HandlerRegistry) (botId : UInt32) (name : EventName) (key : LuaFn) (once : Bool) :
    UInt64 × HandlerRegistry :=
  let id := registry.nextId + 1
  (id, { registry with perBot := appendHandler registry.perBot (botId, name) ⟨id, key, once⟩, nextId := id })

def remove (registry : HandlerRegistry) (id : UInt64) : Bool × HandlerRegistry :=
  match removeHandler registry.global id with
  | some global => (true, { registry with global })
  | none =>
    match removeHandler registry.perBot id with
    | some perBot => (true, { registry with perBot })
    | none => (false, registry)

end HandlerRegistry

/-- Changes the handler registry under its exclusive guard and returns what the change returns. -/
def updateHandlers {α : Type} (change : HandlerRegistry → α × HandlerRegistry) : Worker α :=
  withMut .handlers do
    let s ← get
    modify fun s => { s with handlers := (change s.handlers).2 }
    pure (change s.handlers).1

/-- `remove_handler_or_subscription` -/
def removeHandlerOrSubscription (id : UInt64) : Worker Bool := do
  let removed ← updateHandlers fun registry => registry.remove id
  if removed then pure true
  else withMut .pubsub do
    let s ← get
    match removeHandler s.pubsub id with
    | some pubsub => do
      modify fun s => { s with pubsub }
      pure true
    | none => pure false

end Handlers

section Timers

variable (ctx : Context)

def schedule (delay : ℕ) (interval : Option ℕ) (func : LuaFn) (botId : Option UInt32) : Worker Response :=
  withMut .timers do
    let s ← get
    if s.timers.entries.keys.length ≥ maxTimersPerWorker then pure .raised
    else do
      let id := s.timers.nextId + 1
      let now ← instant ctx
      let entry : TimerEntry :=
        ⟨func, interval.map fun i => max i minTimerInterval, now + max delay minTimerInterval, botId⟩
      modify fun s => { s with timers := ⟨s.timers.entries.insert id entry, id⟩ }
      pure (.id id)

def scheduleForBot (botId : UInt32) (delay : ℕ) (interval : Option ℕ) (func : LuaFn) : Worker Response :=
  if workerIndexFor ctx botId ≠ ctx.workerIndex then pure .raised
  else schedule ctx delay interval func (some botId)

/-- `timers::clear` -/
def clearTimer (id : UInt64) : Worker Bool :=
  withMut .timers do
    let s ← get
    modify fun s => { s with timers := { s.timers with entries := s.timers.entries.erase id } }
    pure (s.timers.entries.lookup id).isSome

end Timers

section Actions

variable (ctx : Context)

def botHandle (botId : UInt32) : Worker Bool :=
  withRef .started do
    let s ← get
    pure (s.started.elim false fun payload => payload.handles.contains botId)

/-- The request id is returned at once; the action's result arrives later. -/
def spawnAction (botId : UInt32) : Worker UInt64 := do
  let n ← draw
  let requestId := ctx.requestIds n
  if !ctx.permits n then do
    emit (.overloaded requestId botId)
    pure requestId
  else do
    let connected ← botHandle botId
    emit (.spawn requestId botId connected)
    pure requestId

/-- The pending callback that was registered first, the earlier one in the walk at equal times. -/
def oldest (pending : AList fun _ : UInt64 => PendingCallback) : List UInt64 → Option UInt64
  | [] => none
  | id :: rest =>
    match oldest pending rest with
    | none => some id
    | some other =>
      if ((pending.lookup other).map PendingCallback.registeredAt).getD 0 <
          ((pending.lookup id).map PendingCallback.registeredAt).getD 0
      then some other else some id

/-- Makes room for one callback when the bound is reached. -/
def evictOldest : Worker Unit := do
  let s ← get
  if s.pending.keys.length ≥ maxPendingCallbacks then do
    let ids ← walk ctx fun s => s.pending.keys
    match oldest s.pending ids with
    | none => pure ()
    | some id => do
      modify fun s => { s with pending := s.pending.erase id }
      log (.evicted id)
  else pure ()

/-- Returns whether the callback is registered now. -/
def registerCallback (botId : UInt32) (requestId : UInt64) (func : LuaFn) : Worker Bool := do
  let allocated ← allocate ctx
  if !allocated then pure false
  else withMut .callbacks do
    evictOldest ctx
    let now ← instant ctx
    modify fun s => { s with pending := s.pending.insert requestId ⟨func, botId, now⟩ }
    log (.registered requestId)
    pure true

def click (botId : UInt32) (callback : Option LuaFn) : Worker Response := do
  let requestId ← spawnAction ctx botId
  match callback with
  | none => pure (.id requestId)
  | some func => do
    let registered ← registerCallback ctx botId requestId func
    pure (if registered then .id requestId else .raised)

end Actions

section Api

variable (ctx : Context)

def maxTopicLen : ℕ := 256

/-- Registers a handler for a known event name. -/
def on (name : String) (change : EventName → HandlerRegistry → UInt64 × HandlerRegistry) : Worker Response :=
  match internEventName name with
  | none => pure .raised
  | some name => do
    let allocated ← allocate ctx
    if !allocated then pure .raised
    else do
      let id ← updateHandlers (change name)
      pure (.id id)

def onMessage (topic : String) (func : LuaFn) : Worker Response :=
  if topic.utf8ByteSize > maxTopicLen then pure .raised
  else do
    let allocated ← allocate ctx
    if !allocated then pure .raised
    else do
      let id ← updateHandlers fun registry => (registry.nextId + 1, { registry with nextId := registry.nextId + 1 })
      withMut .pubsub
        (modify fun s => { s with pubsub := appendHandler s.pubsub topic ⟨id, func, false⟩ })
      pure (.id id)

def stopBots : Worker Unit :=
  withRef .started do
    let s ← get
    match s.started with
    | none => pure ()
    | some payload => forEach (fun botId => emit (.stopBot botId)) payload.handles

/-- The batch of a group, one bot after the other; the first refusal rolls back. -/
def addGroupBots : List Bool → Worker Bool
  | [] => pure true
  | accepted :: rest => do
    withMut .configBuilder (pure ())
    if accepted then addGroupBots rest
    else do
      withMut .configBuilder (pure ())
      pure false

def addGroup (bots : List Bool) (accepted : Bool) : Worker Response := do
  let added ← addGroupBots bots
  if !added then pure .nil
  else do
    withMut .configBuilder (pure ())
    if accepted then pure (.bool true)
    else do
      withMut .configBuilder (pure ())
      pure .nil

/-- The coordinator's part of `connect_all`: the finished registry goes to the orchestrator. -/
def sendConfig : Worker Unit :=
  if ctx.isCoordinator then do
    withMut .configBuilder (pure ())
    withMut .configTx (pure ())
  else pure ()

/-- `outcome` is what the startup barrier releases the worker with. -/
def connectAll (outcome : Option StartupPayload) : Worker Response := do
  sendConfig ctx
  match outcome with
  | none => pure .raised
  | some payload => do
    withMut .started (modify fun s => { s with started := some payload })
    pure .nil

def perform : Call → Worker Response
  | .action botId => do
    let requestId ← spawnAction ctx botId
    pure (.id requestId)
  | .click botId callback => click ctx botId callback
  | .botOn botId name func once => on ctx name fun name registry => registry.registerBot botId name func once
  | .swarmOn name func once => on ctx name fun name registry => registry.registerGlobal name func once
  | .off id => do
    let removed ← removeHandlerOrSubscription id
    pure (.bool removed)
  | .onMessage topic func => onMessage ctx topic func
  | .publish topic payload =>
    if topic.utf8ByteSize > maxTopicLen then pure .nil
    else do
      emit (.publish topic payload)
      pure (.bool true)
  | .botTimer botId delay interval func => scheduleForBot ctx botId delay interval func
  | .swarmTimer delay interval func =>
    if !ctx.isCoordinator then pure (.id 0) else schedule ctx delay interval func none
  | .botClearTimer id => do
    let cleared ← clearTimer id
    pure (.bool cleared)
  | .swarmClearTimer id =>
    if !ctx.isCoordinator then pure (.bool false)
    else do
      let cleared ← clearTimer id
      pure (.bool cleared)
  | .query => withRef .started (pure .nil)
  | .stopBot botId => do
    let connected ← botHandle botId
    if connected then do
      emit (.stopBot botId)
      pure (.bool true)
    else pure .nil
  | .disconnectAll => do
    stopBots
    pure .nil
  | .stop => do
    stopBots
    emit .shutdown
    pure .nil
  | .addServer accepted => withMut .configBuilder (pure (if accepted then .bool true else .nil))
  | .addBot accepted => withMut .configBuilder (pure (if accepted then .id 0 else .nil))
  | .addGroup bots accepted => addGroup bots accepted
  | .connectAll outcome => connectAll ctx outcome

/-- Runs a Lua function; false is an error of the script. -/
def runProg : LuaProg → Worker Bool
  | .done ok => pure ok
  | .call call next => do
    let response ← perform ctx call
    runProg (next response)

end Api

section Dispatch

variable (ctx : Context)

def countRun : Worker Unit :=
  modify fun s => { s with report := { s.report with handlersRun := s.report.handlersRun + 1 } }

def countOutcome (ok : Bool) : Worker Unit :=
  if ok then pure ()
  else modify fun s => { s with report := { s.report with handlerErrors := s.report.handlerErrors + 1 } }

def invokeTopLevel (what : Invocation) (func : LuaFn) : Worker Bool := do
  withRef .instructionCounter (pure ())
  let n ← draw
  log (.invoked what)
  runProg ctx (ctx.script what func n)

/-- A call that the report counts. -/
def countedCall (what : Invocation) (func : LuaFn) : Worker Bool := do
  countRun
  let ok ← invokeTopLevel ctx what func
  countOutcome ok
  pure ok

def recordBotHandlerOutcome (botId : UInt32) (succeeded : Bool) : Worker Unit :=
  withMut .consecutiveErrors do
    if succeeded then
      modify fun s => { s with consecutiveErrors := s.consecutiveErrors.erase botId }
    else do
      let s ← get
      let count := (s.consecutiveErrors.lookup botId).getD 0 + 1
      modify fun s => { s with consecutiveErrors := s.consecutiveErrors.insert botId count }
      if count ≥ ctx.consecutiveErrorThreshold then do
        withMut .disabledBots (modify fun s => { s with disabledBots := s.disabledBots.insert botId })
        modify fun s => { s with report := { s.report with botsDisabled := s.report.botsDisabled + 1 } }
      else pure ()

def removeCallback (requestId : UInt64) : Worker (Option PendingCallback) := do
  let s ← get
  match s.pending.lookup requestId with
  | none => pure none
  | some callback => do
    modify fun s => { s with pending := s.pending.erase requestId }
    pure (some callback)

/-- The `if let` that all four resolvers share. The guard of its scrutinee is alive in `body`. -/
def withPending (requestId : UInt64) (body : PendingCallback → Worker Unit) : Worker Unit :=
  withMut .callbacks do
    let removed ← removeCallback requestId
    match removed with
    | none => pure ()
    | some callback => body callback

/-- Calls the callback with an outcome of the worker's own, if its result table could be built. -/
def callPending (requestId : UInt64) (outcome : ActionOutcome) (callback : PendingCallback) : Worker Unit := do
  let converted ← convert ctx
  if converted then do
    let _ ← invokeTopLevel ctx (.callback ⟨requestId, callback.botId, outcome⟩) callback.key
    pure ()
  else pure ()

def resolveCallback (result : ActionResult) : Worker Unit :=
  withPending result.requestId fun callback => do
    let _ ← invokeTopLevel ctx (.callback result) callback.key
    pure ()

def resolveOverflowedCallbacks (failed : List (UInt64 × ScriptError)) : Worker Unit :=
  forEach (fun request => withPending request.1 (callPending ctx request.1 (.error request.2))) failed

def sweepCallbackTimeouts : Worker Unit := do
  let now ← instant ctx
  let expired ← withRef .callbacks do
    let ids ← walk ctx fun s => s.pending.keys
    let s ← get
    pure (ids.filter fun id =>
      (s.pending.lookup id).elim false fun callback => now - callback.registeredAt > ctx.callbackTimeout)
  forEach (fun id => withPending id (callPending ctx id (.error .inventoryTimeout))) expired

/-- Runs the handlers one after the other; whether one of them failed. -/
def runEach : List Handler → Worker Bool
  | [] => pure false
  | handler :: rest => do
    let ok ← countedCall ctx (.handler handler.id) handler.key
    let later ← runEach rest
    pure (!ok || later)

/-- `once` handlers leave after the whole round. -/
def removeOnce (handlers : List Handler) : Worker Unit :=
  let ids := (handlers.filter Handler.once).map Handler.id
  if ids.isEmpty then pure ()
  else updateHandlers fun registry => ((), ids.foldl (fun registry id => (registry.remove id).2) registry)

def handlersFor (select : HandlerRegistry → Option (List Handler)) : Worker (List Handler) :=
  withRef .handlers do
    let s ← get
    pure ((select s.handlers).getD [])

def runGlobalHandlersFor (name : EventName) : Worker Unit := do
  let handlers ← handlersFor fun registry => registry.global.lookup name
  let _ ← runEach ctx handlers
  removeOnce handlers

def runHandlersFor (botId : UInt32) (name : EventName) : Worker Unit := do
  let perBot ← handlersFor fun registry => registry.perBot.lookup (botId, name)
  let global ← handlersFor fun registry => registry.global.lookup name
  let failed ← runEach ctx (perBot ++ global)
  removeOnce (perBot ++ global)
  if (perBot ++ global).isEmpty then pure ()
  else recordBotHandlerOutcome ctx botId (!failed)

def isDisabled (botId : UInt32) : Worker Bool :=
  withRef .disabledBots do
    let s ← get
    pure (s.disabledBots.contains botId)

/-- A bot's timer counts like one of its handlers. -/
def recordTimerOutcome (botId : Option UInt32) (ok : Bool) : Worker Unit :=
  match botId with
  | none => pure ()
  | some botId => recordBotHandlerOutcome ctx botId ok

/-- A timer that has fired leaves, or waits for its next time if the callback did not clear it. -/
def rearm (id : UInt64) (interval : Option ℕ) : Worker Unit :=
  withMut .timers do
    match interval with
    | none => modify fun s => { s with timers := { s.timers with entries := s.timers.entries.erase id } }
    | some interval => do
      let now ← instant ctx
      modify fun s =>
        match s.timers.entries.lookup id with
        | none => s
        | some entry =>
          { s with timers :=
            { s.timers with entries := s.timers.entries.insert id { entry with nextFire := now + interval } } }

/-- `fire_one`, once the timer is found and its bot is not disabled. -/
def fireEntry (id : UInt64) (entry : TimerEntry) : Worker Unit := do
  let ok ← countedCall ctx (.timer id) entry.key
  recordTimerOutcome ctx entry.botId ok
  rearm ctx id entry.interval

def fireOne (id : UInt64) : Worker Unit := do
  let entry ← withRef .timers do
    let s ← get
    pure (s.timers.entries.lookup id)
  match entry with
  | none => pure ()
  | some entry =>
    match entry.botId with
    | none => fireEntry ctx id entry
    | some botId => do
      let disabled ← isDisabled botId
      if disabled then pure () else fireEntry ctx id entry

def fireDue : Worker Unit := do
  let now ← instant ctx
  let due ← withRef .timers do
    let ids ← walk ctx fun s => s.timers.entries.keys
    let s ← get
    pure (ids.filter fun id => (s.timers.entries.lookup id).elim false fun entry => entry.nextFire ≤ now)
  forEach (fireOne ctx) due

/-- The subscribers of a topic, in order. -/
def deliverMessage (topic : String) : Worker Unit := do
  let handlers ← withRef .pubsub do
    let s ← get
    pure ((s.pubsub.lookup topic).getD [])
  if handlers.isEmpty then pure ()
  else do
    let converted ← convert ctx
    if converted then
      forEach (fun handler => do
        let _ ← countedCall ctx (.message handler.id) handler.key
        pure ()) handlers
    else pure ()

/-- The bot object, then the handlers. -/
def runWithBot (botId : UInt32) (name : EventName) : Worker Unit := do
  let built ← convert ctx
  if built then runHandlersFor ctx botId name else pure ()

def dispatchOne (envelope : Envelope WorkItem) : Worker Unit :=
  match envelope.event with
  | .bot event => do
    let disabled ← isDisabled envelope.botId
    if disabled then pure ()
    else do
      let converted ← convert ctx
      if converted then runWithBot ctx envelope.botId (botEventName event) else pure ()
  | .actionResult result => do
    let converted ← convert ctx
    if converted then do
      resolveCallback ctx result
      runWithBot ctx envelope.botId .actionResult
    else pure ()
  | .callbackCompletion result => do
    let converted ← convert ctx
    if converted then resolveCallback ctx result else pure ()
  | .message topic _ => deliverMessage ctx topic
  | .timerFired timerId => fireOne ctx timerId
  | .scriptError .. | .scriptDisabled _ => pure ()
  | .workerOverloaded => runGlobalHandlersFor ctx .workerOverload

def dispatchCounted (envelope : Envelope WorkItem) : Worker Unit := do
  modify fun s => { s with report := { s.report with eventsProcessed := s.report.eventsProcessed + 1 } }
  dispatchOne ctx envelope

def clearAllTimers : Worker Unit := do
  let ids ← withRef .timers (walk ctx fun s => s.timers.entries.keys)
  forEach (fun id => do
    let _ ← clearTimer id
    pure ()) ids

def shutdownCleanup : Worker Unit := do
  let ids ← withRef .callbacks (walk ctx fun s => s.pending.keys)
  forEach (fun id => withPending id fun callback => do
    let converted ← convert ctx
    if converted then do
      let _ ← countedCall ctx (.callback ⟨id, callback.botId, .error .shutdown⟩) callback.key
      pure ()
    else pure ()) ids
  clearAllTimers ctx

end Dispatch

end MineRider.Model.Lua
