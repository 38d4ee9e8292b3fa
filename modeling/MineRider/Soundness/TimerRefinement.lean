import MineRider.Soundness.DisabledBots
import MineRider.Soundness.Timers

/-! # The worker's timers are the timers of the step model

A worker's state matches a state of the timers: the registries are equal, the clock is not ahead, and
the timers that fired are the timers the worker called. Every stage of the worker's loop is followed by
steps of the timers, so that what holds of every run of the timers holds of every worker. A work item
that fires a timer directly is never sent, and would not ask whether the timer is due.
-/

namespace MineRider.Soundness.TimerRefinement

open List Model.Lua Machine Machine.Borrow Timers WorkerMoves

def firedId : TimerRecord → Option UInt64
  | .fired id .. => some id
  | _ => none

/-- The timers that fired, in order. -/
def firedIds (log : List TimerRecord) : List UInt64 := log.filterMap firedId

structure Matches (ctx : Context) (timers : Model.Lua.Timers) (s : WorkerState) : Prop where
  registry : timers.registry = s.timers
  clock : timers.clock ≤ ctx.clock s.draws
  fired : firedIds timers.log = timerCalls s.trace

/-- From every matching state, steps of the timers lead to a matching state, with the pass and the
running callback as given. -/
def Leads (ctx : Context) (s s' : WorkerState) (due due' : List UInt64)
    (running running' : Option (UInt64 × Option ℕ)) : Prop :=
  ∀ timers, Matches ctx timers s → timers.due = due → timers.running = running →
    ∃ steps timers', timers.run steps = some timers' ∧ Matches ctx timers' s' ∧ timers'.due = due' ∧
      timers'.running = running'

variable {ctx : Context} {s middle s' : WorkerState} {due due' due'' : List UInt64}
  {running running' running'' : Option (UInt64 × Option ℕ)}

theorem Leads.refl : Leads ctx s s due due running running :=
  fun timers matched pass busy => ⟨[], timers, rfl, matched, pass, busy⟩

theorem Leads.trans (first : Leads ctx s middle due due' running running')
    (second : Leads ctx middle s' due' due'' running' running'') : Leads ctx s s' due due'' running running'' := by
  intro timers matched pass busy
  obtain ⟨steps, timers', ran, matched', pass', busy'⟩ := first timers matched pass busy
  obtain ⟨steps', timers'', ran', matched'', pass'', busy''⟩ := second timers' matched' pass' busy'
  refine ⟨steps ++ steps', timers'', ?_, matched'', pass'', busy''⟩
  rw [run_append, ran]
  exact ran'

/-- One step is enough. -/
theorem Leads.single {timers timers' : Model.Lua.Timers} {step : TimerStep}
    (stepped : timers.step step = some timers') :
    timers.run [step] = some timers' := by
  rw [Model.Lua.Timers.run, stepped]
  rfl

section Moves

variable (monotone : Monotone ctx.clock)

include monotone

theorem Matches.later {timers : Model.Lua.Timers} (matched : Matches ctx timers s) (draws : s.draws ≤ s'.draws) :
    timers.clock ≤ ctx.clock s'.draws :=
  matched.clock.trans (monotone draws)

private theorem move_leads (move : Move ctx s s') : Leads ctx s s' due due running running := by
  intro timers matched pass busy
  cases move with
  | other apart =>
    refine ⟨[], timers, rfl, ⟨?_, matched.later monotone apart.draws, ?_⟩, pass, busy⟩
    · rw [apart.timers]
      exact matched.registry
    · rw [apart.calls]
      exact matched.fired
  | disable botId => exact ⟨[], timers, rfl, ⟨matched.registry, matched.clock, matched.fired⟩, pass, busy⟩
  | schedule delay interval func botId room =>
    refine ⟨[.schedule (ctx.clock s.draws) delay interval func botId], _, Leads.single (if_pos matched.clock), ?_⟩
    rw [Model.Lua.Timers.schedule, matched.registry, if_neg (not_le.mpr room)]
    refine ⟨⟨rfl, monotone (Nat.le_succ _), ?_⟩, pass, busy⟩
    refine Eq.trans ?_ matched.fired
    exact (filterMap_append).trans (append_nil _)
  | clear id =>
    refine ⟨[.clear id], _, Leads.single rfl, ?_⟩
    rw [Model.Lua.Timers.clear, matched.registry]
    split
    · rename_i absent
      refine ⟨⟨?_, matched.clock, matched.fired⟩, pass, busy⟩
      have same : s.timers.entries.erase id = s.timers.entries := by
        apply AList.ext
        exact kerase_of_notMem_keys (AList.lookup_eq_none.mp absent)
      simp only [same]
      exact matched.registry
    · refine ⟨⟨rfl, matched.clock, ?_⟩, pass, busy⟩
      refine Eq.trans ?_ matched.fired
      exact (filterMap_append).trans (append_nil _)

private theorem moves_lead (moves : Moves ctx s s') : Leads ctx s s' due due running running := by
  induction moves with
  | refl => exact .refl
  | tail _ move ih => exact ih.trans (move_leads monotone move)

end Moves

section Firing

variable (monotone : Monotone ctx.clock)

include monotone

/-- Visiting one id of a pass. -/
theorem fires_lead {id : UInt64} (fires : Fires ctx id s s') : Leads ctx s s' (id :: due) due none none := by
  intro timers matched pass idle
  have step : ∀ disabled, timers.step (.fire timers.clock disabled) =
      some (timers.fire timers.clock disabled id due) := by
    intro disabled
    simp only [Model.Lua.Timers.step, idle, pass, le_refl, if_true]
  cases fires with
  | missing absent =>
    refine ⟨[.fire timers.clock s.disabledBots], _, Leads.single (step _), ?_⟩
    simp only [Model.Lua.Timers.fire, matched.registry, absent]
    exact ⟨⟨rfl, matched.clock, matched.fired⟩, trivial, idle⟩
  | skipped entry found disabled =>
    refine ⟨[.fire timers.clock s.disabledBots], _, Leads.single (step _), ?_⟩
    simp only [Model.Lua.Timers.fire, matched.registry, found, disabled, if_true]
    exact ⟨⟨rfl, matched.clock, matched.fired⟩, trivial, idle⟩
  | @called entry found enabled entered left _ call moves rearm =>
    have started : Matches ctx (timers.fire timers.clock s.disabledBots id due) entered ∧
        (timers.fire timers.clock s.disabledBots id due).due = due ∧
        (timers.fire timers.clock s.disabledBots id due).running = some (id, entry.interval) := by
      simp only [Model.Lua.Timers.fire, matched.registry, found, enabled, Bool.false_eq_true, if_false]
      refine ⟨⟨call.timers.symm, matched.later monotone call.draws, ?_⟩, trivial, trivial⟩
      rw [call.calls, ← matched.fired]
      exact filterMap_append
    obtain ⟨entering, pass₁, busy₁⟩ := started
    obtain ⟨steps, timers₂, ran, leaving, pass₂, busy₂⟩ := moves_lead monotone moves _ entering pass₁ busy₁
    have finished : timers₂.step (.finish (ctx.clock left.draws)) =
        some (timers₂.finish (ctx.clock left.draws) id entry.interval) := by
      simp only [Model.Lua.Timers.step, busy₂, leaving.clock, if_true]
    refine ⟨.fire timers.clock s.disabledBots :: (steps ++ [.finish (ctx.clock left.draws)]),
      timers₂.finish (ctx.clock left.draws) id entry.interval, ?_, ⟨?_, monotone rearm.draws, ?_⟩, pass₂, rfl⟩
    · rw [Model.Lua.Timers.run, step, Option.bind_some, run_append, ran, Option.bind_some]
      exact Leads.single finished
    · rw [rearm.timers, ← leaving.registry]
      rfl
    · rw [rearm.calls, ← leaving.fired]
      rfl

/-- The rest of a pass. -/
theorem visits_lead {held : Cell → Guard} (ran : forEach (fireOne ctx) due held s = .ok ((), s')) :
    Leads ctx s s' due [] none none := by
  induction due generalizing s with
  | nil =>
    cases ran
    exact .refl
  | cons id rest ih =>
    obtain ⟨_, middle, ran₁, ran₂⟩ := bind_eq_ok ran
    exact (fires_lead monotone (fireOne_fires ran₁)).trans (ih ran₂)

private theorem fireDue_leads {held : Cell → Guard} (ran : fireDue ctx held s = .ok ((), s')) :
    Leads ctx s s' [] [] none none := by
  obtain ⟨order, walk, visits⟩ := fireDue_visits ran
  intro timers matched pass idle
  have collected : timers.step (.collect (ctx.clock s.draws) order) =
      some (timers.collect (ctx.clock s.draws) order) := by
    refine if_pos ⟨matched.clock, pass, idle, ?_⟩
    rw [matched.registry]
    exact walk
  have pass' : (timers.collect (ctx.clock s.draws) order).due =
      order.filter (Model.Lua.Timers.isDue s.timers (ctx.clock s.draws)) := by
    rw [Model.Lua.Timers.collect, matched.registry]
  have matched' : Matches ctx (timers.collect (ctx.clock s.draws) order) { s with draws := s.draws + 2 } :=
    ⟨matched.registry, monotone (Nat.le_add_right _ _), matched.fired⟩
  obtain ⟨steps, timers', ran', done⟩ := visits_lead monotone visits _ matched' pass' idle
  refine ⟨.collect (ctx.clock s.draws) order :: steps, timers', ?_, done⟩
  rw [Model.Lua.Timers.run, collected]
  exact ran'

/-- A stage that does not fire a timer by a work item. -/
theorem stage_leads {stage : Stage} (sent : ∀ botId id, stage ≠ .item ⟨botId, .timerFired id⟩)
    (ran : stage.program ctx (fun _ => .free) s = .ok ((), s')) : Leads ctx s s' [] [] none none := by
  cases stage with
  | load main => exact moves_lead monotone (load_moves main _ _ _ _ ran)
  | item envelope =>
    obtain ⟨botId, event⟩ := envelope
    have other : ∀ id, event ≠ .timerFired id := by
      rintro id rfl
      exact sent botId id rfl
    exact moves_lead monotone (dispatchCounted_moves other _ _ _ _ ran)
  | resolve failed => exact moves_lead monotone (resolveOverflowedCallbacks_moves failed _ _ _ _ ran)
  | sweep => exact moves_lead monotone (sweepCallbackTimeouts_moves _ _ _ _ ran)
  | due => exact fireDue_leads monotone ran
  | cleanup => exact moves_lead monotone (shutdownCleanup_moves _ _ _ _ ran)

/-- Whatever a worker does, its timers have made a run of the step model. -/
theorem worker_refines_timers {stages : List Stage} (sent : ∀ botId id, .item ⟨botId, .timerFired id⟩ ∉ stages)
    (reached : Reaches ctx .start stages s) :
    ∃ steps timers, Model.Lua.Timers.start.run steps = some timers ∧ timers.registry = s.timers ∧
      firedIds timers.log = timerCalls s.trace := by
  have leads : ∀ {first last : WorkerState} {stages : List Stage},
      (∀ botId id, .item ⟨botId, .timerFired id⟩ ∉ stages) → Reaches ctx first stages last →
        Leads ctx first last [] [] none none := by
    intro first last stages sent reached
    induction reached with
    | nil => exact .refl
    | cons ran _ ih =>
      refine (stage_leads monotone ?_ ran).trans (ih fun botId id member => sent botId id (mem_cons_of_mem _ member))
      rintro botId id rfl
      exact sent botId id mem_cons_self
  have matched : Matches ctx .start .start := ⟨rfl, Nat.zero_le _, rfl⟩
  obtain ⟨steps, timers, ran, matched', _, _⟩ := leads sent reached _ matched rfl rfl
  exact ⟨steps, timers, ran, matched'.registry, matched'.fired⟩

end Firing

def ticking : Context := { DisabledBots.failingContext with clock := (minTimerInterval * ·) }

/-- A script starts a timer, which fires in the next pass. -/
theorem due_timer_is_refined :
    ∃ steps timers, Model.Lua.Timers.start.run steps = some timers ∧ firedIds timers.log = [1] := by
  have monotone : Monotone ticking.clock := fun _ _ => Nat.mul_le_mul_left _
  have reached : Reaches ticking .start [.load (.call (.swarmTimer 0 none 1) fun _ => .done true), .due] _ :=
    .cons rfl (.cons rfl (.nil _))
  obtain ⟨steps, timers, ran, _, fired⟩ := worker_refines_timers monotone (by simp) reached
  exact ⟨steps, timers, ran, fired.trans (by decide)⟩

end MineRider.Soundness.TimerRefinement
