import MineRider.Model.Lua.Worker

/-! # What a worker's functions do to its cells

A worker calls Lua functions that call back into its API, which takes guards of its own. Outside the
resolution of one-shot callbacks nothing is guarded while Lua runs, so a function may do anything.
While a one-shot callback runs, the guard on the callback registry is still alive, because it is a
temporary of the `if let` that removed the callback; a callback that starts no other one-shot callback
never asks for it.

What the functions do is said once, for every preorder that has the worker's own steps. An invariant of
the pending callbacks and the trace is one such preorder, if those steps keep it.
-/

namespace MineRider.Soundness.WorkerCells

open List Model.Lua Machine Machine.Borrow

abbrev Pending := AList fun _ : UInt64 => PendingCallback

/-- Whether a call starts a one-shot callback. -/
def registers : Call → Bool
  | .click _ (some _) => true
  | _ => false

/-- A Lua function that starts no one-shot callback, whatever the API answers. -/
inductive NoCallback : LuaProg → Prop
  | done (ok : Bool) : NoCallback (.done ok)
  | call {call : Call} {next : Response → LuaProg} (silent : registers call = false)
      (rest : ∀ response, NoCallback (next response)) : NoCallback (.call call next)

/-- Nothing but the callback registry is guarded. -/
def Quiet (held : Cell → Guard) : Prop := ∀ c, c ≠ .callbacks → held c = .free

variable {ctx : Context} {held : Cell → Guard} {inv before after : Pending → List Trace → Prop}

/-- An invariant of the pending callbacks and the trace. -/
abbrev On (inv : Pending → List Trace → Prop) (s : WorkerState) : Prop := inv s.pending s.trace

section Silent

/-- What is done to a worker apart from its callbacks and its trace. -/
structure Admits (ctx : Context) (R : WorkerState → WorkerState → Prop) : Prop where
  other : ∀ {s s' : WorkerState}, s'.timers = s.timers → s'.disabledBots = s.disabledBots → s'.pending = s.pending →
    s'.trace = s.trace → s.draws ≤ s'.draws → R s s'
  disable : ∀ s botId, R s { s with disabledBots := s.disabledBots.insert botId }
  schedule : ∀ (s : WorkerState) (delay : ℕ) (interval : Option ℕ) func botId,
    s.timers.entries.keys.length < maxTimersPerWorker →
    R s { s with
      draws := s.draws + 1
      timers := ⟨s.timers.entries.insert (s.timers.nextId + 1) ⟨func, interval.map fun i => max i minTimerInterval,
        ctx.clock s.draws + max delay minTimerInterval, botId⟩, s.timers.nextId + 1⟩ }
  clear : ∀ s id, R s { s with timers := { s.timers with entries := s.timers.entries.erase id } }

variable {safe : Prop} {R : WorkerState → WorkerState → Prop} [IsPreorder WorkerState R] {α : Type}
  (admits : Admits ctx R) (quiet : safe → Quiet held)

variable {c : Cell}

omit [IsPreorder WorkerState R] in
theorem withMut_runs (quiet : safe → Quiet held) (other : c ≠ .callbacks) {body : Worker α}
    (inside : Runs safe (Function.update held c .writing) R body) : Runs safe held R (withMut c body) :=
  .withMut (fun isSafe => quiet isSafe c other) inside

omit [IsPreorder WorkerState R] in
theorem withRef_runs (quiet : safe → Quiet held) (other : c ≠ .callbacks) {body : Worker α}
    (inside : Runs safe (Function.update held c .reading) R body) : Runs safe held R (withRef c body) :=
  .withRef (fun isSafe => by rw [quiet isSafe c other]; decide) inside

include admits

theorem draw_runs : Runs safe held R draw :=
  .bind .get fun _ => .bind (.modify fun _ => admits.other rfl rfl rfl rfl (Nat.le_succ _)) fun _ => .pure _

theorem instant_runs : Runs safe held R (instant ctx) := .bind (draw_runs admits) fun _ => .pure _

theorem convert_runs : Runs safe held R (convert ctx) := .bind (draw_runs admits) fun _ => .pure _

theorem allocate_runs : Runs safe held R (allocate ctx) := .bind (draw_runs admits) fun _ => .pure _

theorem walk_runs (keys : WorkerState → List UInt64) : Runs safe held R (walk ctx keys) :=
  .bind (draw_runs admits) fun _ => .bind .get fun _ => .pure _

omit [IsPreorder WorkerState R] in
theorem emit_runs (effect : Effect) : Runs safe held R (emit effect) :=
  .modify fun _ => admits.other rfl rfl rfl rfl le_rfl

include quiet

theorem updateHandlers_runs (change : HandlerRegistry → α × HandlerRegistry) :
    Runs safe held R (updateHandlers change) :=
  withMut_runs quiet (by decide) (.bind .get fun _ =>
    .bind (.modify fun _ => admits.other rfl rfl rfl rfl le_rfl) fun _ => .pure _)

private theorem removeHandlerOrSubscription_runs (id : UInt64) : Runs safe held R (removeHandlerOrSubscription id) := by
  refine .bind (updateHandlers_runs admits quiet _) fun removed =>
    .ite (.pure _) (withMut_runs quiet (by decide) (.bind .get fun now => ?_))
  split
  · exact .bind (.modify fun _ => admits.other rfl rfl rfl rfl le_rfl) fun _ => .pure _
  · exact .pure _

private theorem schedule_runs (delay : ℕ) (interval : Option ℕ) (func : LuaFn) (botId : Option UInt32) :
    Runs safe held R (schedule ctx delay interval func botId) := by
  refine withMut_runs quiet (by decide) (.of_spec fun start => Spec.get fun now => ?_)
  split_ifs with full
  · exact Spec.pure fun s here => here.1 ▸ refl s
  · rintro s ⟨rfl, rfl⟩
    exact ⟨_, _, rfl, admits.schedule s delay interval func botId (not_le.mp full)⟩

private theorem clearTimer_runs (id : UInt64) : Runs safe held R (clearTimer id) :=
  withMut_runs quiet (by decide) (.bind .get fun _ => .bind (.modify fun s => admits.clear s id) fun _ => .pure _)

theorem clearAllTimers_runs : Runs safe held R (clearAllTimers ctx) :=
  .bind (withRef_runs quiet (by decide) (walk_runs admits _)) fun _ =>
    .forEach (fun _ => .bind (clearTimer_runs admits quiet _) fun _ => .pure _) _

omit admits in
/-- A look into a cell. -/
theorem read_runs (other : c ≠ .callbacks) (look : WorkerState → α) :
    Runs safe held R (withRef c (get >>= fun s => pure (look s))) :=
  withRef_runs quiet other (.bind .get fun _ => .pure _)

private theorem spawnAction_runs (botId : UInt32) : Runs safe held R (spawnAction ctx botId) :=
  .bind (draw_runs admits) fun _ => .ite (.bind (emit_runs admits _) fun _ => .pure _)
    (.bind (read_runs quiet (by decide) _) fun _ => .bind (emit_runs admits _) fun _ => .pure _)

private theorem on_runs (name : String) (change : EventName → HandlerRegistry → UInt64 × HandlerRegistry) :
    Runs safe held R (on ctx name change) := by
  rw [on]
  split
  · exact .pure _
  · exact .bind (allocate_runs admits) fun _ =>
      .ite (.pure _) (.bind (updateHandlers_runs admits quiet _) fun _ => .pure _)

private theorem onMessage_runs (topic : String) (func : LuaFn) : Runs safe held R (onMessage ctx topic func) := by
  refine .ite (.pure _) (.bind (allocate_runs admits) fun _ => .ite (.pure _) ?_)
  refine .bind (updateHandlers_runs admits quiet _) fun _ => .bind (withMut_runs quiet (by decide) ?_) fun _ => .pure _
  exact .modify fun _ => admits.other rfl rfl rfl rfl le_rfl

private theorem stopBots_runs : Runs safe held R stopBots := by
  refine withRef_runs quiet (by decide) (.bind .get fun now => ?_)
  split
  · exact .pure _
  · exact .forEach (fun _ => emit_runs admits _) _

omit admits in
/-- A guard that is taken and given back at once. -/
theorem touch_runs (other : c ≠ .callbacks) (a : α) : Runs safe held R (withMut c (pure a)) :=
  withMut_runs quiet other (.pure a)

omit admits in
private theorem addGroupBots_runs (bots : List Bool) : Runs safe held R (addGroupBots bots) := by
  induction bots with
  | nil => exact .pure _
  | cons accepted rest ih =>
    exact .bind (touch_runs quiet (by decide) _) fun _ =>
      .ite ih (.bind (touch_runs quiet (by decide) _) fun _ => .pure _)

omit admits in
private theorem addGroup_runs (bots : List Bool) (accepted : Bool) : Runs safe held R (addGroup bots accepted) :=
  .bind (addGroupBots_runs quiet bots) fun _ => .ite (.pure _) (.bind (touch_runs quiet (by decide) _) fun _ =>
    .ite (.pure _) (.bind (touch_runs quiet (by decide) _) fun _ => .pure _))

private theorem connectAll_runs (outcome : Option StartupPayload) : Runs safe held R (connectAll ctx outcome) := by
  refine .bind (.ite (.bind (touch_runs quiet (by decide) _) fun _ => touch_runs quiet (by decide) _) (.pure _))
    fun _ => ?_
  split
  · exact .pure _
  · refine .bind (withMut_runs quiet (by decide) ?_) fun _ => .pure _
    exact .modify fun _ => admits.other rfl rfl rfl rfl le_rfl

/-- A call that starts no one-shot callback gets by with the callback registry guarded. -/
theorem perform_silent {call : Call} (silent : registers call = false) : Runs safe held R (perform ctx call) := by
  cases call with
  | action botId => exact .bind (spawnAction_runs admits quiet botId) fun _ => .pure _
  | click botId callback =>
    cases callback with
    | none => exact .bind (spawnAction_runs admits quiet botId) fun _ => .pure _
    | some func => cases silent
  | botOn botId name func once | swarmOn name func once => exact on_runs admits quiet name _
  | off id => exact .bind (removeHandlerOrSubscription_runs admits quiet id) fun _ => .pure _
  | onMessage topic func => exact onMessage_runs admits quiet topic func
  | publish topic payload => exact .ite (.pure _) (.bind (emit_runs admits _) fun _ => .pure _)
  | botTimer botId delay interval func => exact .ite (.pure _) (schedule_runs admits quiet _ _ _ _)
  | swarmTimer delay interval func => exact .ite (.pure _) (schedule_runs admits quiet _ _ _ _)
  | botClearTimer id => exact .bind (clearTimer_runs admits quiet id) fun _ => .pure _
  | swarmClearTimer id => exact .ite (.pure _) (.bind (clearTimer_runs admits quiet id) fun _ => .pure _)
  | query => exact withRef_runs quiet (by decide) (.pure _)
  | stopBot botId =>
    exact .bind (read_runs quiet (by decide) _) fun _ => .ite (.bind (emit_runs admits _) fun _ => .pure _) (.pure _)
  | disconnectAll => exact .bind (stopBots_runs admits quiet) fun _ => .pure _
  | stop => exact .bind (stopBots_runs admits quiet) fun _ => .bind (emit_runs admits _) fun _ => .pure _
  | addServer accepted | addBot accepted => exact touch_runs quiet (by decide) _
  | addGroup bots accepted => exact addGroup_runs quiet bots accepted
  | connectAll outcome => exact connectAll_runs admits quiet outcome

private theorem runProg_silent {prog : LuaProg} (silent : NoCallback prog) : Runs safe held R (runProg ctx prog) := by
  induction silent with
  | done ok => exact .pure _
  | call silent _ ih => exact .bind (perform_silent admits quiet silent) ih

end Silent

section Loud

/-- What is done to a worker apart from the calls of timers and one-shot callbacks. -/
structure AdmitsCalls (ctx : Context) (R : WorkerState → WorkerState → Prop) : Prop extends Admits ctx R where
  handled : ∀ (s : WorkerState) id, R s { s with trace := s.trace ++ [.invoked (.handler id)] }
  delivered : ∀ (s : WorkerState) id, R s { s with trace := s.trace ++ [.invoked (.message id)] }
  registered : ∀ (s : WorkerState) id callback, R s
    { s with pending := s.pending.insert id callback, trace := s.trace ++ [.registered id] }
  evicted : ∀ (s : WorkerState) id, id ∈ s.pending → R s
    { s with pending := s.pending.erase id, trace := s.trace ++ [.evicted id] }

private theorem oldest_mem {pending : Pending} {ids : List UInt64} {id : UInt64}
    (found : oldest pending ids = some id) :
    id ∈ ids := by
  induction ids generalizing id with
  | nil => cases found
  | cons first rest ih =>
    rw [oldest] at found
    cases later : oldest pending rest with
    | none =>
      rw [later] at found
      cases found
      exact mem_cons_self
    | some other =>
      simp only [later] at found
      split_ifs at found
      · cases found
        exact mem_cons_of_mem _ (ih later)
      · cases found
        exact mem_cons_self

variable {safe : Prop} {R : WorkerState → WorkerState → Prop} [IsPreorder WorkerState R] (admits : AdmitsCalls ctx R)
  (free : safe → ∀ c, held c = .free)

theorem quiet_of_free (free : safe → ∀ c, held c = .free) : safe → Quiet held := fun isSafe c _ => free isSafe c

include admits

private theorem evictOldest_runs : Runs safe held R (evictOldest ctx) := by
  refine .of_spec fun start => Spec.get fun now => ?_
  split_ifs
  · have walked : Spec held (fun s => s = start ∧ s = now) (walk ctx fun s => s.pending.keys) fun ids s =>
        R start s ∧ s.pending = now.pending ∧ ids.Perm now.pending.keys := by
      rintro s ⟨rfl, rfl⟩
      exact ⟨_, _, rfl, admits.other rfl rfl rfl rfl (Nat.le_succ _), rfl, ctx.order_perm _ _⟩
    refine Spec.bind walked fun ids => ?_
    cases found : oldest now.pending ids with
    | none => exact Spec.pure fun _ here => here.1
    | some id =>
      rintro s ⟨reached, same, perm⟩
      have member : id ∈ s.pending := same ▸ perm.subset (oldest_mem found)
      exact ⟨_, _, rfl, IsTrans.trans _ _ _ reached (admits.evicted s id member)⟩
  · exact Spec.pure fun s here => here.1 ▸ refl s

include free

private theorem perform_runs (call : Call) : Runs safe held R (perform ctx call) := by
  have quiet := quiet_of_free free
  by_cases silent : registers call = false
  · exact perform_silent admits.toAdmits quiet silent
  · cases call with
    | click botId callback =>
      cases callback with
      | none => exact absurd rfl silent
      | some func =>
        refine .bind (spawnAction_runs admits.toAdmits quiet botId) fun requestId => .bind ?_ fun _ => .pure _
        refine .bind (allocate_runs admits.toAdmits) fun _ => .ite (.pure _) (.withMut (fun isSafe => free isSafe _) ?_)
        refine .bind (evictOldest_runs admits) fun _ => .bind (instant_runs admits.toAdmits) fun now => ?_
        exact fun s => admits.registered s requestId ⟨func, botId, now⟩
    | _ => exact absurd rfl silent

/-- With nothing guarded, a Lua function may do anything. -/
theorem runProg_runs (prog : LuaProg) : Runs safe held R (runProg ctx prog) := by
  induction prog with
  | done ok => exact .pure _
  | call call next ih => exact .bind (perform_runs admits free call) ih

section

variable {what : Invocation} (logged : ∀ s : WorkerState, R s { s with trace := s.trace ++ [.invoked what] })
  (func : LuaFn)

include logged func

theorem invokeTopLevel_runs : Runs safe held R (invokeTopLevel ctx what func) :=
  .bind (.withRef (fun isSafe => by rw [free isSafe]; decide) (.pure _)) fun _ =>
    .bind (draw_runs admits.toAdmits) fun _ => .bind (.modify logged) fun _ => runProg_runs admits free _

theorem countedCall_runs : Runs safe held R (countedCall ctx what func) := by
  refine .bind (.modify fun _ => admits.other rfl rfl rfl rfl le_rfl) fun _ => ?_
  refine .bind (invokeTopLevel_runs admits free logged func) fun ok => .bind (.ite (.pure _) ?_) fun _ => .pure _
  exact .modify fun _ => admits.other rfl rfl rfl rfl le_rfl

end

private theorem recordBotHandlerOutcome_runs (botId : UInt32) (succeeded : Bool) :
    Runs safe held R (recordBotHandlerOutcome ctx botId succeeded) := by
  refine .withMut (fun isSafe => free isSafe _) (.ite (.modify fun _ => admits.other rfl rfl rfl rfl le_rfl) ?_)
  refine .bind .get fun now => .bind (.modify fun _ => admits.other rfl rfl rfl rfl le_rfl) fun _ => .ite ?_ (.pure _)
  refine .bind (.withMut (fun isSafe => free isSafe _) (.modify fun s => admits.disable s botId)) fun _ => ?_
  exact .modify fun _ => admits.other rfl rfl rfl rfl le_rfl

private theorem runEach_runs (handlers : List Handler) : Runs safe held R (runEach ctx handlers) := by
  induction handlers with
  | nil => exact .pure _
  | cons handler rest ih =>
    exact .bind (countedCall_runs admits free (admits.handled · _) _) fun _ => .bind ih fun _ => .pure _

private theorem removeOnce_runs (handlers : List Handler) : Runs safe held R (removeOnce handlers) :=
  .ite (.pure _) (updateHandlers_runs admits.toAdmits (quiet_of_free free) _)

theorem runGlobalHandlersFor_runs (name : EventName) : Runs safe held R (runGlobalHandlersFor ctx name) :=
  .bind (read_runs (quiet_of_free free) (by decide) _) fun _ => .bind (runEach_runs admits free _) fun _ =>
    removeOnce_runs admits free _

private theorem runHandlersFor_runs (botId : UInt32) (name : EventName) :
    Runs safe held R (runHandlersFor ctx botId name) :=
  .bind (read_runs (quiet_of_free free) (by decide) _) fun _ =>
    .bind (read_runs (quiet_of_free free) (by decide) _) fun _ => .bind (runEach_runs admits free _) fun _ =>
      .bind (removeOnce_runs admits free _) fun _ => .ite (.pure _) (recordBotHandlerOutcome_runs admits free _ _)

theorem runWithBot_runs (botId : UInt32) (name : EventName) : Runs safe held R (runWithBot ctx botId name) :=
  .bind (convert_runs admits.toAdmits) fun _ => .ite (runHandlersFor_runs admits free _ _) (.pure _)

theorem recordTimerOutcome_runs (botId : Option UInt32) (ok : Bool) :
    Runs safe held R (recordTimerOutcome ctx botId ok) := by
  cases botId with
  | none => exact .pure _
  | some botId => exact recordBotHandlerOutcome_runs admits free botId ok

theorem deliverMessage_runs (topic : String) : Runs safe held R (deliverMessage ctx topic) := by
  refine .bind (read_runs (quiet_of_free free) (by decide) _) fun _ => .ite (.pure _) ?_
  refine .bind (convert_runs admits.toAdmits) fun _ => .ite (.forEach (fun handler => ?_) _) (.pure _)
  exact .bind (countedCall_runs admits free (admits.delivered · _) _) fun _ => .pure _

end Loud

section Callbacks

/-- What the worker's own steps do to the pending callbacks and the trace keeps the property. A
callback is only lost when its result table cannot be built. -/
structure Stable (ctx : Context) (inv : Pending → List Trace → Prop) : Prop where
  called : ∀ {pending trace what}, (∀ result, what ≠ .callback result) → inv pending trace →
    inv pending (trace ++ [.invoked what])
  registered : ∀ {pending trace} (id : UInt64) (callback : PendingCallback), inv pending trace →
    inv (pending.insert id callback) (trace ++ [.registered id])
  evicted : ∀ {pending trace id}, id ∈ pending → inv pending trace →
    inv (pending.erase id) (trace ++ [.evicted id])
  fired : ∀ {pending trace} {result : ActionResult}, result.requestId ∈ pending → inv pending trace →
    inv (pending.erase result.requestId) (trace ++ [.invoked (.callback result)])
  lost : ∀ {n pending trace id}, ctx.converts n = false → id ∈ pending → inv pending trace →
    inv (pending.erase id) trace

/-- What touches neither the pending callbacks nor the trace keeps every property of them. -/
theorem admits_on (ctx : Context) (inv : Pending → List Trace → Prop) : Admits ctx (Preserves (On inv)) where
  other _ _ pending trace _ holds := by
    rw [On, pending, trace]
    exact holds
  disable _ _ holds := holds
  schedule _ _ _ _ _ _ holds := holds
  clear _ _ holds := holds

theorem Stable.admits (stable : Stable ctx inv) : AdmitsCalls ctx (Preserves (On inv)) :=
  { admits_on ctx inv with
    handled := fun _ _ => stable.called fun _ => Invocation.noConfusion
    delivered := fun _ _ => stable.called fun _ => Invocation.noConfusion
    registered := fun _ id callback => stable.registered id callback
    evicted := fun _ _ => stable.evicted }

/-- No one-shot callback starts another one. -/
def CallbacksQuiet (ctx : Context) : Prop := ∀ result func n, NoCallback (ctx.script (.callback result) func n)

/-- The callback `id` has been taken out and not been accounted for yet. -/
def Removed (inv : Pending → List Trace → Prop) (id : UInt64) (rest : Pending) (trace : List Trace) : Prop :=
  ∃ pending, id ∈ pending ∧ inv pending trace ∧ rest = pending.erase id

theorem Removed.fired (stable : Stable ctx inv) {result : ActionResult} {pending : Pending} {trace : List Trace}
    (removed : Removed inv result.requestId pending trace) : inv pending (trace ++ [.invoked (.callback result)]) := by
  obtain ⟨old, member, before, rfl⟩ := removed
  exact stable.fired member before

theorem Removed.lost (stable : Stable ctx inv) {n : ℕ} {id : UInt64} {pending : Pending} {trace : List Trace}
    (failed : ctx.converts n = false) (removed : Removed inv id pending trace) : inv pending trace := by
  obtain ⟨old, member, before, rfl⟩ := removed
  exact stable.lost failed member before

private theorem quiet_writing (free : ∀ c, held c = .free) : Quiet (Function.update held .callbacks .writing) := by
  intro c other
  rw [Function.update_of_ne other]
  exact free c

private theorem walk_pending : Spec held (On inv) (walk ctx fun s => s.pending.keys) fun ids =>
    On fun pending trace => inv pending trace ∧ ids.Perm pending.keys := by
  intro s before
  exact ⟨_, { s with draws := s.draws + 1 }, rfl, before, ctx.order_perm _ _⟩

/-- The call of a one-shot callback, with the registry still guarded. -/
theorem invokeTopLevel_fires (quietCallbacks : CallbacksQuiet ctx) (quiet : Quiet held)
    {result : ActionResult} (func : LuaFn) (fired : ∀ {pending trace}, before pending trace →
      after pending (trace ++ [.invoked (.callback result)])) :
    Spec held (On before) (invokeTopLevel ctx (.callback result) func) fun _ => On after := by
  have reset : Keeps held (On before) (withRef .instructionCounter (pure ()) : Worker Unit) :=
    Spec.withRef (by rw [quiet _ (by decide)]; decide) (Spec.pure fun _ holds => holds)
  have logged : Spec held (On before) (log (.invoked (.callback result))) fun _ => On after :=
    Spec.modify fun _ => fired
  refine Spec.bind reset fun _ => Spec.bind (draw_runs (admits_on ctx before)).keeps fun n => ?_
  refine Spec.bind logged fun _ => ?_
  exact (runProg_silent (admits_on ctx after) (fun _ => quiet) (quietCallbacks result func n)).keeps

theorem removeCallback_spec (id : UInt64) : Spec held (On before) (removeCallback id) fun removed s =>
    match removed with
    | none => On before s ∧ id ∉ s.pending
    | some _ => On (Removed before id) s := by
  apply Spec.get
  intro now
  cases found : now.pending.lookup id with
  | none =>
    apply Spec.pure
    rintro s ⟨holds, rfl⟩
    exact ⟨holds, AList.lookup_eq_none.mp found⟩
  | some callback =>
    have taken : Spec held (fun s => On before s ∧ s = now)
        (modify fun s => { s with pending := s.pending.erase id }) fun _ => On (Removed before id) := by
      apply Spec.modify
      rintro s ⟨holds, rfl⟩
      exact ⟨s.pending, AList.lookup_isSome.mp (Option.isSome_of_eq_some found), holds, rfl⟩
    apply Spec.bind taken
    intro _
    exact Spec.pure fun _ after => after

/-- A resolver's body accounts for the callback it is given. -/
theorem withPending_spec (free : ∀ c, held c = .free) {id : UInt64} {body : PendingCallback → Worker Unit}
    (missing : ∀ {pending trace}, id ∉ pending → before pending trace → after pending trace)
    (fires : ∀ callback, Spec (Function.update held .callbacks .writing) (On (Removed before id)) (body callback)
      fun _ => On after) : Spec held (On before) (withPending id body) fun _ => On after := by
  apply Spec.withMut (free _)
  apply Spec.bind (removeCallback_spec id)
  intro removed
  cases removed with
  | none => exact Spec.pure fun _ kept => missing kept.2 kept.1
  | some callback => exact fires callback

theorem countedCall_spec {what : Invocation} {func : LuaFn}
    (called : Spec held (On before) (invokeTopLevel ctx what func) fun _ => On after) :
    Spec held (On before) (countedCall ctx what func) fun _ => On after := by
  have counted : Keeps held (On before) countRun := Spec.modify fun _ holds => holds
  have outcome : ∀ ok, Keeps held (On after) (countOutcome ok) := by
    intro ok
    rw [countOutcome]
    split_ifs
    · exact Spec.pure fun _ holds => holds
    · exact Spec.modify fun _ holds => holds
  refine Spec.bind counted fun _ => Spec.bind called fun ok => ?_
  exact Spec.bind (outcome ok) fun _ => Spec.pure fun _ holds => holds

/-- What the resolvers do with a callback once they hold it: it is called if its result table can be
built, and lost otherwise. -/
theorem converted_fires {call : Worker Bool} (fires : Spec held (On before) call fun _ => On after)
    (lost : ∀ {n pending trace}, ctx.converts n = false → before pending trace → after pending trace) :
    Spec held (On before)
      (convert ctx >>= fun converted => if converted then call >>= fun _ => pure () else pure ())
      fun _ => On after := by
  have drawn : Spec held (On before) (convert ctx) fun converted s =>
      On before s ∧ ∃ n, ctx.converts n = converted :=
    fun s holds => ⟨_, { s with draws := s.draws + 1 }, rfl, holds, s.draws, rfl⟩
  apply Spec.bind drawn
  intro converted
  cases converted with
  | true => exact Spec.bind (fires.weaken (fun _ holds => holds.1) fun _ _ done => done) fun _ =>
      Spec.pure fun _ done => done
  | false =>
    apply Spec.pure
    rintro s ⟨holds, n, failed⟩
    exact lost failed holds

end Callbacks

section Dispatch

/-! The worker calls everything else with no guard alive. -/

variable (stable : Stable ctx inv) (quietCallbacks : CallbacksQuiet ctx) (free : ∀ c, held c = .free)

include free in
private theorem rearm_runs (id : UInt64) (interval : Option ℕ) :
    Runs True held (Preserves (On inv)) (rearm ctx id interval) := by
  refine .withMut (fun _ => free _) ?_
  cases interval with
  | none => exact .modify fun _ holds => holds
  | some interval =>
    refine .bind (instant_runs (admits_on ctx inv)) fun now => .modify fun s holds => ?_
    split
    · exact holds
    · exact holds

include stable free in
private theorem fireEntry_runs (id : UInt64) (entry : TimerEntry) :
    Runs True held (Preserves (On inv)) (fireEntry ctx id entry) := by
  have logged : ∀ s : WorkerState, On inv s → inv s.pending (s.trace ++ [.invoked (.timer id)]) :=
    fun _ => stable.called fun _ => Invocation.noConfusion
  exact .bind (countedCall_runs stable.admits (fun _ => free) logged _) fun ok =>
    .bind (recordTimerOutcome_runs stable.admits (fun _ => free) _ _) fun _ => rearm_runs free id _

include stable free in
private theorem fireOne_runs (id : UInt64) : Runs True held (Preserves (On inv)) (fireOne ctx id) := by
  refine .bind (read_runs (quiet_of_free fun _ => free) (by decide) _) fun entry => ?_
  cases entry with
  | none => exact .pure _
  | some entry =>
    dsimp only
    split
    · exact fireEntry_runs stable free id entry
    · exact .bind (read_runs (quiet_of_free fun _ => free) (by decide) _) fun _ =>
        .ite (.pure _) (fireEntry_runs stable free id entry)

include free in
/-- A walk over the keys of a map that picks some of them. -/
theorem pick_runs (c : Cell) (keys : WorkerState → List UInt64) (choose : WorkerState → UInt64 → Bool) :
    Runs True held (Preserves (On inv)) (withRef c (walk ctx keys >>= fun ids =>
      get >>= fun s => pure (ids.filter (choose s)))) :=
  .withRef (fun _ => by rw [free]; decide)
    (.bind (walk_runs (admits_on ctx inv) keys) fun _ => .bind .get fun _ => .pure _)

include stable free in
theorem fireDue_keeps : Keeps held (On inv) (fireDue ctx) :=
  Runs.keeps (.bind (instant_runs (admits_on ctx inv)) fun _ => .bind (pick_runs free .timers _ _) fun _ =>
    .forEach (fireOne_runs stable free) _)

include stable quietCallbacks free in
private theorem callback_fires (result : ActionResult) (func : LuaFn) :
    Spec (Function.update held .callbacks .writing) (On (Removed inv result.requestId))
      (invokeTopLevel ctx (.callback result) func) fun _ => On inv :=
  invokeTopLevel_fires quietCallbacks (quiet_writing free) func fun removed => removed.fired stable

include stable quietCallbacks free in
private theorem resolveCallback_keeps (result : ActionResult) : Keeps held (On inv) (resolveCallback ctx result) := by
  apply withPending_spec free fun _ kept => kept
  intro callback
  apply Spec.bind (callback_fires stable quietCallbacks free result callback.key)
  exact fun _ => Spec.pure fun _ done => done

include stable quietCallbacks free in
private theorem callPending_keeps (id : UInt64) (outcome : ActionOutcome) :
    Keeps held (On inv) (withPending id (callPending ctx id outcome)) := by
  apply withPending_spec free fun _ kept => kept
  intro callback
  have fires := callback_fires stable quietCallbacks free ⟨id, callback.botId, outcome⟩ callback.key
  exact converted_fires fires fun failed removed => removed.lost stable failed

include stable quietCallbacks free in
theorem resolveOverflowedCallbacks_keeps (failed : List (UInt64 × ScriptError)) :
    Keeps held (On inv) (resolveOverflowedCallbacks ctx failed) := by
  refine Spec.forEach (fun _ => On inv) (fun request _ => ?_) failed
  exact callPending_keeps stable quietCallbacks free request.1 _

include stable quietCallbacks free in
theorem sweepCallbackTimeouts_keeps : Keeps held (On inv) (sweepCallbackTimeouts ctx) := by
  refine Spec.bind (instant_runs (admits_on ctx inv)).keeps fun now => ?_
  refine Spec.bind (pick_runs free .callbacks _ _).keeps fun expired => ?_
  exact Spec.forEach (fun _ => On inv) (fun id _ => callPending_keeps stable quietCallbacks free id _) expired

include stable quietCallbacks free in
private theorem dispatchOne_keeps (envelope : Envelope WorkItem) : Keeps held (On inv) (dispatchOne ctx envelope) := by
  have convert : Keeps held (On inv) (convert ctx) := (convert_runs (admits_on ctx inv)).keeps
  have skip : Keeps held (On inv) (pure () : Worker Unit) := Spec.pure fun _ holds => holds
  have runs : ∀ botId name, Keeps held (On inv) (runWithBot ctx botId name) := fun botId name =>
    (runWithBot_runs stable.admits (fun _ => free) botId name).keeps
  rw [dispatchOne]
  split
  · refine Spec.bind (read_runs (quiet_of_free fun _ => free) (by decide) _).keeps fun disabled => ?_
    split_ifs
    · exact skip
    · refine Spec.bind convert fun converted => ?_
      split_ifs
      · exact runs _ _
      · exact skip
  · refine Spec.bind convert fun converted => ?_
    split_ifs
    · exact Spec.bind (resolveCallback_keeps stable quietCallbacks free _) fun _ => runs _ _
    · exact skip
  · refine Spec.bind convert fun converted => ?_
    split_ifs
    · exact resolveCallback_keeps stable quietCallbacks free _
    · exact skip
  · exact (deliverMessage_runs stable.admits (fun _ => free) _).keeps
  · exact (fireOne_runs stable free _).keeps
  · exact skip
  · exact skip
  · exact (runGlobalHandlersFor_runs stable.admits (fun _ => free) _).keeps

include stable quietCallbacks free in
theorem dispatchCounted_keeps (envelope : Envelope WorkItem) : Keeps held (On inv) (dispatchCounted ctx envelope) :=
  Spec.bind (Spec.modify fun _ holds => holds) fun _ => dispatchOne_keeps stable quietCallbacks free envelope

/-- Only the callbacks in `ids` are left to resolve. -/
def Left (inv : Pending → List Trace → Prop) (ids : List UInt64) (pending : Pending) (trace : List Trace) : Prop :=
  inv pending trace ∧ ∀ id ∈ pending, id ∈ ids

theorem Left.of_missing {id : UInt64} {rest : List UInt64} {pending : Pending} {trace : List Trace}
    (missing : id ∉ pending) (left : Left inv (id :: rest) pending trace) : Left inv rest pending trace := by
  refine ⟨left.1, fun other member => ?_⟩
  rcases mem_cons.mp (left.2 other member) with rfl | later
  · exact absurd member missing
  · exact later

/-- A callback that is taken out is not left. -/
theorem Left.of_removed {id : UInt64} {rest : List UInt64} {pending : Pending} {trace : List Trace}
    (removed : Removed (Left inv (id :: rest)) id pending trace) :
    Removed inv id pending trace ∧ ∀ other ∈ pending, other ∈ rest := by
  obtain ⟨old, member, left, rfl⟩ := removed
  refine ⟨⟨old, member, left.1, rfl⟩, fun other remains => ?_⟩
  obtain ⟨different, old⟩ := AList.mem_erase.mp remains
  exact (mem_cons.mp (left.2 other old)).resolve_left different

include stable quietCallbacks free in
/-- The cleanup resolves every callback. -/
theorem shutdownCleanup_spec : Spec held (On inv) (shutdownCleanup ctx) fun _ =>
    On fun pending trace => inv pending trace ∧ ∀ id, id ∉ pending := by
  have walked : Spec held (On inv) (withRef .callbacks (walk ctx fun s => s.pending.keys)) fun ids =>
      On (Left inv ids) := by
    apply Spec.withRef (by rw [free]; decide)
    refine walk_pending.weaken (fun _ holds => holds) fun ids s done => ⟨done.1, fun id member => ?_⟩
    exact done.2.symm.subset member
  apply Spec.bind walked
  intro ids
  apply Spec.bind
  · apply Spec.forEach (fun rest => On (Left inv rest))
    intro id rest
    apply withPending_spec free Left.of_missing
    intro callback
    have fires : Spec (Function.update held .callbacks .writing) (On (Removed (Left inv (id :: rest)) id))
        (invokeTopLevel ctx (.callback ⟨id, callback.botId, .error .shutdown⟩) callback.key)
        fun _ => On (Left inv rest) :=
      invokeTopLevel_fires quietCallbacks (quiet_writing free) callback.key fun removed =>
        ⟨Removed.fired stable (Left.of_removed removed).1, (Left.of_removed removed).2⟩
    exact converted_fires (countedCall_spec fires) fun failed removed =>
      ⟨(Left.of_removed removed).1.lost stable failed, (Left.of_removed removed).2⟩
  · intro _
    refine Spec.weaken (clearAllTimers_runs (admits_on ctx _) (quiet_of_free fun _ => free)).keeps
      (fun _ holds => holds) fun _ s done => ⟨done.1, fun id member => ?_⟩
    exact not_mem_nil (done.2 id member)

end Dispatch

end MineRider.Soundness.WorkerCells
