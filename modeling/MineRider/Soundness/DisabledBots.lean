import MineRider.Soundness.WorkerMoves

/-! # Disabled bots

A bot whose handlers failed too often in a row is disabled, and stays so. Its events and its timers ask
for that before they call a handler, one by one, so that a bot that is disabled in the middle of a batch
or a pass is not called any more. The result of an action does not ask.
-/

namespace MineRider.Soundness.DisabledBots

open Model.Lua Machine Machine.Borrow WorkerCells WorkerMoves

section Turns

/-- What a worker does in one go: a stage of its loop, or one timer of a pass. -/
inductive Turn where
  | load (main : LuaProg)
  | item (envelope : Envelope WorkItem)
  | resolve (failed : List (UInt64 × ScriptError))
  | sweep
  /-- `fire_due` up to its loop. -/
  | collect
  /-- `fire_one` -/
  | timer (id : UInt64)
  | cleanup

def Turn.program (ctx : Context) : Turn → Worker Unit
  | .load main => (Stage.load main).program ctx
  | .item envelope => dispatchCounted ctx envelope
  | .resolve failed => resolveOverflowedCallbacks ctx failed
  | .sweep => sweepCallbackTimeouts ctx
  | .collect => do
    let _ ← instant ctx
    let _ ← Borrow.withRef .timers (walk ctx fun s => s.timers.entries.keys)
    pure ()
  | .timer id => fireOne ctx id
  | .cleanup => shutdownCleanup ctx

/-- A turn starts with no guard alive; a borrow that conflicts ends the worker. -/
def Turn.run (ctx : Context) (s : WorkerState) (turn : Turn) : Except Cell WorkerState :=
  (turn.program ctx (fun _ => .free) s).map Prod.snd

def run (ctx : Context) (s : WorkerState) : List Turn → Except Cell WorkerState
  | [] => .ok s
  | turn :: rest =>
    match turn.run ctx s with
    | .ok s => run ctx s rest
    | .error cell => .error cell

variable {ctx : Context} {s s' : WorkerState}

theorem Turn.run_eq_ok {turn : Turn} :
    turn.run ctx s = .ok s' ↔ turn.program ctx (fun _ => .free) s = .ok ((), s') := by
  rw [Turn.run]
  cases turn.program ctx (fun _ => .free) s with
  | error cell => exact ⟨fun ran => (by cases ran), fun ran => (by cases ran)⟩
  | ok result =>
    constructor
    all_goals
      intro ran
      cases ran
      rfl

theorem run_cons {turn : Turn} {rest : List Turn} (ran : run ctx s (turn :: rest) = .ok s') :
    ∃ middle, turn.run ctx s = .ok middle ∧ run ctx middle rest = .ok s' := by
  rw [run] at ran
  split at ran
  · rename_i middle first
    exact ⟨middle, first, ran⟩
  · cases ran

end Turns

section Disabled

variable {ctx : Context} {s s' : WorkerState} {bot : UInt32}

private theorem move_disabled (move : Move ctx s s') (disabled : bot ∈ s.disabledBots) : bot ∈ s'.disabledBots := by
  cases move with
  | other apart =>
    rw [apart.disabled]
    exact disabled
  | disable botId => exact List.mem_insert_of_mem disabled
  | schedule delay interval func botId room | clear id => exact disabled

private theorem moves_disabled (moves : Moves ctx s s') (disabled : bot ∈ s.disabledBots) : bot ∈ s'.disabledBots := by
  induction moves with
  | refl => exact disabled
  | tail _ move ih => exact move_disabled move ih

private theorem fires_disabled {id : UInt64} (fires : Fires ctx id s s') (disabled : bot ∈ s.disabledBots) :
    bot ∈ s'.disabledBots := by
  cases fires with
  | missing absent | skipped entry found skips => exact disabled
  | called entry found enabled call moves rearm =>
    rw [rearm.disabled]
    refine moves_disabled moves ?_
    rw [call.disabled]
    exact disabled

/-- The part of `dispatch_counted` before the item. -/
theorem dispatchCounted_eq_ok {envelope : Envelope WorkItem} {held : Cell → Guard}
    (ran : dispatchCounted ctx envelope held s = .ok ((), s')) :
    dispatchOne ctx envelope held
      { s with report := { s.report with eventsProcessed := s.report.eventsProcessed + 1 } } = .ok ((), s') :=
  ran

/-- No turn enables a bot again. -/
theorem turn_disabled {turn : Turn} (ran : turn.run ctx s = .ok s') (disabled : bot ∈ s.disabledBots) :
    bot ∈ s'.disabledBots := by
  have program := Turn.run_eq_ok.mp ran
  cases turn with
  | load main => exact moves_disabled (load_moves main _ _ _ _ program) disabled
  | item envelope =>
    by_cases sent : ∃ id, envelope.event = .timerFired id
    · obtain ⟨botId, event⟩ := envelope
      obtain ⟨id, rfl⟩ := sent
      exact fires_disabled (fireOne_fires (dispatchCounted_eq_ok program)) disabled
    · have other : ∀ id, envelope.event ≠ .timerFired id := fun id same => sent ⟨id, same⟩
      exact moves_disabled (dispatchCounted_moves other _ _ _ _ program) disabled
  | resolve failed => exact moves_disabled (resolveOverflowedCallbacks_moves failed _ _ _ _ program) disabled
  | sweep => exact moves_disabled (sweepCallbackTimeouts_moves _ _ _ _ program) disabled
  | collect =>
    have moves : Within (Moves ctx) (Turn.collect.program ctx) :=
      Runs.within fun _ => .bind (instant_runs moves_admits.toAdmits) fun _ =>
        .bind (.withRef False.elim (walk_runs moves_admits.toAdmits _)) fun _ => .pure _
    exact moves_disabled (moves _ _ _ _ program) disabled
  | timer id => exact fires_disabled (fireOne_fires program) disabled
  | cleanup => exact moves_disabled (shutdownCleanup_moves _ _ _ _ program) disabled

theorem run_disabled {turns : List Turn} (ran : run ctx s turns = .ok s') (disabled : bot ∈ s.disabledBots) :
    bot ∈ s'.disabledBots := by
  induction turns generalizing s with
  | nil =>
    cases ran
    exact disabled
  | cons turn rest ih =>
    obtain ⟨middle, first, later⟩ := run_cons ran
    exact ih later (turn_disabled first disabled)

end Disabled

section Silence

/-- Whether an entry of the trace is the call of an event handler or a timer. -/
def isScriptCall : Trace → Bool
  | .invoked (.handler _) | .invoked (.timer _) => true
  | _ => false

/-- The calls of event handlers and timers, in order. -/
def scriptCalls (trace : List Trace) : List Trace := trace.filter isScriptCall

/-- Whether the timer belongs to the bot. -/
def ownsTimer (bot : UInt32) (s : WorkerState) (id : UInt64) : Prop :=
  ∃ entry, s.timers.entries.lookup id = some entry ∧ entry.botId = some bot

/-- The turns that run handlers or timers for a bot, if any are registered. -/
def RunsFor (bot : UInt32) (s : WorkerState) : Turn → Prop
  | .item ⟨botId, .bot _⟩ => botId = bot
  | .item ⟨botId, .actionResult _⟩ => botId = bot
  | .item ⟨_, .timerFired id⟩ => ownsTimer bot s id
  | .timer id => ownsTimer bot s id
  | _ => False

/-- No action result of a disabled bot. -/
def Allowed (s : WorkerState) : Turn → Prop
  | .item ⟨botId, .actionResult _⟩ => botId ∉ s.disabledBots
  | _ => True

variable {ctx : Context} {s s' : WorkerState} {bot : UInt32}

private theorem fires_silent {id : UInt64} (fires : Fires ctx id s s') (owned : ownsTimer bot s id)
    (disabled : bot ∈ s.disabledBots) : s' = s := by
  obtain ⟨entry, found, owner⟩ := owned
  cases fires with
  | missing absent | skipped => rfl
  | called entry' found' enabled call moves rearm =>
    cases found.symm.trans found'
    rw [Timers.skips, owner] at enabled
    exact absurd disabled (by simpa using enabled)

private theorem event_silent {event : Model.Minecraft.BotEvent} {held : Cell → Guard}
    (ran : dispatchOne ctx ⟨bot, .bot event⟩ held s = .ok ((), s')) (disabled : bot ∈ s.disabledBots) : s' = s := by
  obtain ⟨verdict, _, asked, later⟩ := bind_eq_ok ran
  cases withRef_eq_ok asked
  have skips : s.disabledBots.contains bot = true := by simpa using disabled
  rw [skips] at later
  cases later
  rfl

private theorem turn_silent {turn : Turn} (ran : turn.run ctx s = .ok s') (disabled : bot ∈ s.disabledBots)
    (concerned : RunsFor bot s turn) (allowed : Allowed s turn) : s'.trace = s.trace := by
  have program := Turn.run_eq_ok.mp ran
  cases turn with
  | item envelope =>
    obtain ⟨botId, event⟩ := envelope
    cases event with
    | bot event =>
      cases concerned
      rw [event_silent (dispatchCounted_eq_ok program) disabled]
    | actionResult result =>
      cases concerned
      exact absurd disabled allowed
    | timerFired id =>
      have counted := fireOne_fires (dispatchCounted_eq_ok program)
      rw [fires_silent counted concerned disabled]
    | callbackCompletion result => cases concerned
    | message topic payload | scriptError | scriptDisabled | workerOverloaded => cases concerned
  | timer id => rw [fires_silent (fireOne_fires program) concerned disabled]
  | load main | resolve failed | sweep | collect | cleanup => cases concerned

/-- Once a bot is disabled, no later turn of the worker calls a handler or a timer for it, whatever work
items and timers come, if no action result arrives for a bot that is disabled. -/
theorem disabled_bots_are_silent (ctx : Context) (bot : UInt32) (between : List Turn) (turn : Turn)
    (earlier now next : WorkerState) (disabled : bot ∈ earlier.disabledBots)
    (later : run ctx earlier between = .ok now) (concerned : RunsFor bot now turn) (allowed : Allowed now turn)
    (taken : turn.run ctx now = .ok next) :
    scriptCalls next.trace = scriptCalls now.trace := by
  rw [turn_silent taken (run_disabled later disabled) concerned allowed]

section Results

/-- A worker of one bot whose event handlers all fail. -/
def failingContext : Context where
  workerIndex := 0
  workerCount := 1
  isCoordinator := true
  consecutiveErrorThreshold := 3
  callbackTimeout := 10
  script _ _ _ := .done false
  clock _ := 0
  requestIds k := UInt64.ofNat (k + 1)
  permits _ := true
  allocates _ := true
  converts _ := true
  order _ ids := ids
  order_perm _ _ := .refl _

/-- A handler for spawns of bot 7 and one for all action results. -/
def registerTwo : LuaProg :=
  .call (.botOn 7 "spawned" 1 false) fun _ => .call (.swarmOn "action_result" 2 false) fun _ => .done true

/-- The bot's handler fails three times in a row. -/
def failThrice : List Turn :=
  [.load registerTwo, .item ⟨7, .bot .spawned⟩, .item ⟨7, .bot .spawned⟩, .item ⟨7, .bot .spawned⟩]

theorem disabled_bots_are_silent_demo :
    ∃ now next, run failingContext .start failThrice = .ok now ∧ 7 ∈ now.disabledBots ∧
      (Turn.item ⟨7, .bot .spawned⟩).run failingContext now = .ok next ∧
        scriptCalls next.trace = scriptCalls now.trace := by
  refine ⟨_, _, rfl, by decide, rfl, ?_⟩
  exact disabled_bots_are_silent failingContext 7 [] (.item ⟨7, .bot .spawned⟩) _ _ _ (by decide) rfl rfl trivial rfl

/-- The result of an action still calls the handler. -/
theorem result_reaches_disabled_bot :
    ∃ now next, run failingContext .start failThrice = .ok now ∧ 7 ∈ now.disabledBots ∧
      RunsFor 7 now (.item ⟨7, .actionResult ⟨1, 7, .deliveredSent⟩⟩) ∧
        (Turn.item ⟨7, .actionResult ⟨1, 7, .deliveredSent⟩⟩).run failingContext now = .ok next ∧
          scriptCalls next.trace = scriptCalls now.trace ++ [.invoked (.handler 2)] :=
  ⟨_, _, rfl, by decide, rfl, rfl, by decide⟩

end Results

end Silence

end MineRider.Soundness.DisabledBots
