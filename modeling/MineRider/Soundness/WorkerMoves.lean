import Mathlib.Logic.Relation
import MineRider.Model.Lua.Timers
import MineRider.Soundness.WorkerCells

/-! # What a worker does to its timers and its disabled bots

Scripts and handlers change these two parts of a worker only in three ways: a bot is disabled, a timer
is scheduled, a timer is cleared. Every function of the worker but the firing of timers is a sequence
of such moves, so that what the moves keep need not be looked for in the functions again. A timer that
fires is called, its callback makes moves, and then it is rearmed.
-/

namespace MineRider.Soundness.WorkerMoves

open Model.Lua Machine Machine.Borrow WorkerCells

section Moves

def timerCall : Trace → Option UInt64
  | .invoked (.timer id) => some id
  | _ => none

/-- The timers that were called, in order. -/
def timerCalls (trace : List Trace) : List UInt64 := trace.filterMap timerCall

/-- A change of other parts of the worker. -/
structure Apart (s s' : WorkerState) : Prop where
  timers : s'.timers = s.timers
  disabled : s'.disabledBots = s.disabledBots
  calls : timerCalls s'.trace = timerCalls s.trace
  draws : s.draws ≤ s'.draws

/-- The entry of a timer that is scheduled at the time `now`. -/
def armed (now delay : ℕ) (interval : Option ℕ) (func : LuaFn) (botId : Option UInt32) : TimerEntry :=
  ⟨func, interval.map fun i => max i minTimerInterval, now + max delay minTimerInterval, botId⟩

inductive Move (ctx : Context) : WorkerState → WorkerState → Prop
  | other {s s' : WorkerState} (apart : Apart s s') : Move ctx s s'
  | disable (s : WorkerState) (botId : UInt32) :
      Move ctx s { s with disabledBots := s.disabledBots.insert botId }
  | schedule (s : WorkerState) (delay : ℕ) (interval : Option ℕ) (func : LuaFn) (botId : Option UInt32)
      (room : s.timers.entries.keys.length < maxTimersPerWorker) :
      Move ctx s
        { s with
          draws := s.draws + 1
          timers := ⟨s.timers.entries.insert (s.timers.nextId + 1)
            (armed (ctx.clock s.draws) delay interval func botId),
            s.timers.nextId + 1⟩ }
  | clear (s : WorkerState) (id : UInt64) :
      Move ctx s { s with timers := { s.timers with entries := s.timers.entries.erase id } }

abbrev Moves (ctx : Context) : WorkerState → WorkerState → Prop := Relation.ReflTransGen (Move ctx)

variable {ctx : Context}

instance : IsPreorder WorkerState (Moves ctx) where
  refl _ := .refl
  trans _ _ _ := .trans

theorem timerCalls_append {event : Trace} (other : timerCall event = none) (trace : List Trace) :
    timerCalls (trace ++ [event]) = timerCalls trace := by
  rw [timerCalls, List.filterMap_append, List.filterMap_cons_none other, List.filterMap_nil, List.append_nil]
  rfl

/-- A change of the callbacks, with the entry of the trace that goes with it. -/
theorem logged_moves {event : Trace} (other : timerCall event = none) (s : WorkerState) (pending : Pending) :
    Moves ctx s { s with pending, trace := s.trace ++ [event] } :=
  .single (.other ⟨rfl, rfl, timerCalls_append other s.trace, Nat.le_refl _⟩)

theorem moves_admits : AdmitsCalls ctx (Moves ctx) where
  other timers disabled _ trace draws := .single (.other ⟨timers, disabled, by rw [trace], draws⟩)
  disable s botId := .single (.disable s botId)
  schedule s delay interval func botId room := .single (.schedule s delay interval func botId room)
  clear s id := .single (.clear s id)
  handled s _ := logged_moves rfl s s.pending
  delivered s _ := logged_moves rfl s s.pending
  registered s _ _ := logged_moves rfl s _
  evicted s _ _ := logged_moves rfl s _

end Moves

variable {ctx : Context} {held : Cell → Guard}

section Dispatch

/-- Whatever a Lua function does, it makes moves. -/
theorem runProg_moves (prog : LuaProg) : Within (Moves ctx) (runProg ctx prog) :=
  Runs.within fun _ => runProg_runs moves_admits False.elim prog

theorem load_moves (main : LuaProg) : Within (Moves ctx) (runProg ctx main >>= fun _ => pure ()) :=
  Runs.within fun _ => .bind (runProg_runs moves_admits False.elim main) fun _ => .pure _

private theorem callback_runs (result : ActionResult) (func : LuaFn) :
    Runs False held (Moves ctx) (invokeTopLevel ctx (.callback result) func) :=
  invokeTopLevel_runs moves_admits False.elim (fun s => logged_moves rfl s s.pending) func

theorem withPending_runs (requestId : UInt64) {body : PendingCallback → Worker Unit}
    (inside : ∀ held callback, Runs False held (Moves ctx) (body callback)) :
    Runs False held (Moves ctx) (withPending requestId body) := by
  refine .withMut False.elim (.bind (.bind .get fun s => ?_) fun removed => ?_)
  · split
    · exact .pure _
    · exact .bind (.modify fun _ => .single (.other ⟨rfl, rfl, rfl, Nat.le_refl _⟩)) fun _ => .pure _
  · split
    · exact .pure _
    · exact inside _ _

private theorem callPending_runs (requestId : UInt64) (outcome : ActionOutcome) (callback : PendingCallback) :
    Runs False held (Moves ctx) (callPending ctx requestId outcome callback) :=
  .bind (convert_runs moves_admits.toAdmits) fun _ => .ite (.bind (callback_runs _ _) fun _ => .pure _) (.pure _)

private theorem resolveCallback_runs (result : ActionResult) :
    Runs False held (Moves ctx) (resolveCallback ctx result) :=
  withPending_runs _ fun _ _ => .bind (callback_runs _ _) fun _ => .pure _

theorem resolveOverflowedCallbacks_moves (failed : List (UInt64 × ScriptError)) :
    Within (Moves ctx) (resolveOverflowedCallbacks ctx failed) :=
  Runs.within fun _ => .forEach (fun _ => withPending_runs _ fun _ => callPending_runs _ _) _

theorem sweepCallbackTimeouts_moves : Within (Moves ctx) (sweepCallbackTimeouts ctx) := by
  refine Runs.within fun _ => .bind (instant_runs moves_admits.toAdmits) fun _ =>
    .bind (.withRef False.elim ?_) fun _ => ?_
  · exact .bind (walk_runs moves_admits.toAdmits _) fun _ => .bind .get fun _ => .pure _
  · exact .forEach (fun _ => withPending_runs _ fun _ => callPending_runs _ _) _

section

variable {envelope : Envelope WorkItem} (other : ∀ id, envelope.event ≠ .timerFired id)

include other

/-- An item that is not a timer. -/
theorem dispatchOne_runs : Runs False held (Moves ctx) (dispatchOne ctx envelope) := by
  have convert : Runs False held (Moves ctx) (convert ctx) := convert_runs moves_admits.toAdmits
  have runs : ∀ botId name, Runs False held (Moves ctx) (runWithBot ctx botId name) :=
    runWithBot_runs moves_admits False.elim
  obtain ⟨botId, event⟩ := envelope
  cases event with
  | bot event =>
    exact .bind (read_runs False.elim (by decide) _) fun _ =>
      .ite (.pure _) (.bind convert fun _ => .ite (runs _ _) (.pure _))
  | actionResult result =>
    exact .bind convert fun _ => .ite (.bind (resolveCallback_runs _) fun _ => runs _ _) (.pure _)
  | callbackCompletion result => exact .bind convert fun _ => .ite (resolveCallback_runs _) (.pure _)
  | message topic payload => exact deliverMessage_runs moves_admits False.elim topic
  | timerFired id => exact absurd rfl (other id)
  | scriptError | scriptDisabled => exact .pure _
  | workerOverloaded => exact runGlobalHandlersFor_runs moves_admits False.elim _

theorem dispatchCounted_moves : Within (Moves ctx) (dispatchCounted ctx envelope) :=
  Runs.within fun _ => .bind (.modify fun _ => .single (.other ⟨rfl, rfl, rfl, Nat.le_refl _⟩)) fun _ =>
    dispatchOne_runs other

end

theorem shutdownCleanup_moves : Within (Moves ctx) (shutdownCleanup ctx) := by
  refine Runs.within fun _ => .bind (.withRef False.elim (walk_runs moves_admits.toAdmits _)) fun _ =>
    .bind (.forEach (fun id => withPending_runs id fun _ callback => ?_) _) fun _ =>
      clearAllTimers_runs moves_admits.toAdmits False.elim
  refine .bind (convert_runs moves_admits.toAdmits) fun _ => .ite (.bind ?_ fun _ => .pure _) (.pure _)
  exact countedCall_runs moves_admits False.elim (fun s => logged_moves rfl s s.pending) _

end Dispatch

section Firing

/-- The state in which the callback of a timer is entered. -/
structure Called (id : UInt64) (s s' : WorkerState) : Prop where
  timers : s'.timers = s.timers
  disabled : s'.disabledBots = s.disabledBots
  calls : timerCalls s'.trace = timerCalls s.trace ++ [id]
  draws : s.draws ≤ s'.draws

/-- The state after the timer has been rearmed. -/
structure Rearmed (ctx : Context) (id : UInt64) (interval : Option ℕ) (s s' : WorkerState) : Prop where
  timers : s'.timers = Timers.rearmed s.timers (ctx.clock s.draws) id interval
  disabled : s'.disabledBots = s.disabledBots
  calls : timerCalls s'.trace = timerCalls s.trace
  draws : s.draws ≤ s'.draws

/-- What `fire_one` can do. -/
inductive Fires (ctx : Context) (id : UInt64) (s : WorkerState) : WorkerState → Prop
  | missing (absent : s.timers.entries.lookup id = none) : Fires ctx id s s
  | skipped (entry : TimerEntry) (found : s.timers.entries.lookup id = some entry)
      (disabled : Timers.skips s.disabledBots entry = true) : Fires ctx id s s
  | called (entry : TimerEntry) (found : s.timers.entries.lookup id = some entry)
      (enabled : Timers.skips s.disabledBots entry = false) {entered left s' : WorkerState}
      (call : Called id s entered) (moves : Moves ctx entered left)
      (rearm : Rearmed ctx id entry.interval left s') : Fires ctx id s s'

variable {s s' : WorkerState} {id : UInt64}

private theorem countOutcome_moves (ok : Bool) : Within (Moves ctx) (countOutcome ok) :=
  Runs.within fun _ => .ite (.pure _) (.modify fun _ => .single (.other ⟨rfl, rfl, rfl, Nat.le_refl _⟩))

private theorem countedCall_called {func : LuaFn} {ok : Bool}
    (ran : countedCall ctx (.timer id) func held s = .ok (ok, s')) :
    ∃ entered, Called id s entered ∧ Moves ctx entered s' := by
  obtain ⟨_, counted, ran₁, ran₂⟩ := bind_eq_ok ran
  cases ran₁
  obtain ⟨ok, invoked, ran₃, ran₄⟩ := bind_eq_ok ran₂
  obtain ⟨_, _, looked, ran₅⟩ := bind_eq_ok ran₃
  cases withRef_eq_ok looked
  obtain ⟨n, drawn, ran₆, ran₇⟩ := bind_eq_ok ran₅
  cases ran₆
  obtain ⟨_, entered, ran₈, prog⟩ := bind_eq_ok ran₇
  cases ran₈
  obtain ⟨_, left, outcome, done⟩ := bind_eq_ok ran₄
  cases done
  refine ⟨_, ?_, (runProg_moves _ _ _ _ _ prog).trans (countOutcome_moves _ _ _ _ _ outcome)⟩
  exact ⟨rfl, rfl, List.filterMap_append, Nat.le_succ _⟩

private theorem recordTimerOutcome_moves (botId : Option UInt32) (ok : Bool) :
    Within (Moves ctx) (recordTimerOutcome ctx botId ok) :=
  Runs.within fun _ => recordTimerOutcome_runs moves_admits False.elim botId ok

private theorem rearm_rearmed {interval : Option ℕ} (ran : rearm ctx id interval held s = .ok ((), s')) :
    Rearmed ctx id interval s s' := by
  have body := withMut_eq_ok ran
  cases interval with
  | none =>
    cases body
    exact ⟨rfl, rfl, rfl, Nat.le_refl _⟩
  | some interval =>
    cases body
    cases found : s.timers.entries.lookup id with
    | none | some entry =>
      simp only [found]
      exact ⟨by simp only [Timers.rearmed, found], rfl, rfl, Nat.le_succ _⟩

private theorem fireEntry_fires {entry : TimerEntry} (found : s.timers.entries.lookup id = some entry)
    (enabled : Timers.skips s.disabledBots entry = false) (ran : fireEntry ctx id entry held s = .ok ((), s')) :
    Fires ctx id s s' := by
  obtain ⟨ok, called, ran₁, ran₂⟩ := bind_eq_ok ran
  obtain ⟨_, recorded, ran₃, ran₄⟩ := bind_eq_ok ran₂
  obtain ⟨entered, call, moves⟩ := countedCall_called ran₁
  exact .called entry found enabled call (moves.trans (recordTimerOutcome_moves _ _ _ _ _ _ ran₃)) (rearm_rearmed ran₄)

theorem fireOne_fires (ran : fireOne ctx id held s = .ok ((), s')) : Fires ctx id s s' := by
  obtain ⟨entry, _, looked, ran₁⟩ := bind_eq_ok ran
  cases withRef_eq_ok looked
  cases found : s.timers.entries.lookup id with
  | none =>
    simp only [found] at ran₁
    cases ran₁
    exact .missing found
  | some entry =>
    simp only [found] at ran₁
    cases owner : entry.botId with
    | none =>
      simp only [owner] at ran₁
      exact fireEntry_fires found (by rw [Timers.skips, owner]; rfl) ran₁
    | some botId =>
      simp only [owner] at ran₁
      obtain ⟨disabled, _, asked, ran₂⟩ := bind_eq_ok ran₁
      cases withRef_eq_ok asked
      have verdict : Timers.skips s.disabledBots entry = s.disabledBots.contains botId := by
        rw [Timers.skips, owner]
        rfl
      split at ran₂
      · rename_i skips
        cases ran₂
        exact .skipped entry found (verdict.trans skips)
      · rename_i runs
        exact fireEntry_fires found (verdict.trans (Bool.not_eq_true _ ▸ runs)) ran₂

/-- `fire_due` reads the clock, walks the map and visits what is due. -/
theorem fireDue_visits (ran : fireDue ctx held s = .ok ((), s')) :
    ∃ order : List UInt64, order.Perm s.timers.entries.keys ∧
      forEach (fireOne ctx) (order.filter (Timers.isDue s.timers (ctx.clock s.draws))) held
        { s with draws := s.draws + 2 } = .ok ((), s') := by
  obtain ⟨now, clocked, ran₁, ran₂⟩ := bind_eq_ok ran
  cases ran₁
  obtain ⟨due, collected, looked, visits⟩ := bind_eq_ok ran₂
  cases withRef_eq_ok looked
  exact ⟨_, ctx.order_perm _ _, visits⟩

end Firing

section Stages

/-- The stages of `run_worker` that touch the worker's state. -/
inductive Stage where
  | load (main : LuaProg)
  | item (envelope : Envelope WorkItem)
  | resolve (failed : List (UInt64 × ScriptError))
  | sweep
  | due
  | cleanup

def Stage.program (ctx : Context) : Stage → Worker Unit
  | .load main => do
    let _ ← runProg ctx main
    pure ()
  | .item envelope => dispatchCounted ctx envelope
  | .resolve failed => resolveOverflowedCallbacks ctx failed
  | .sweep => sweepCallbackTimeouts ctx
  | .due => fireDue ctx
  | .cleanup => shutdownCleanup ctx

/-- The states that some stages lead to, as long as no borrow conflicts. -/
inductive Reaches (ctx : Context) : WorkerState → List Stage → WorkerState → Prop
  | nil (s : WorkerState) : Reaches ctx s [] s
  | cons {s middle s' : WorkerState} {stage : Stage} {rest : List Stage}
      (ran : stage.program ctx (fun _ => .free) s = .ok ((), middle)) (later : Reaches ctx middle rest s') :
      Reaches ctx s (stage :: rest) s'

end Stages

end MineRider.Soundness.WorkerMoves
