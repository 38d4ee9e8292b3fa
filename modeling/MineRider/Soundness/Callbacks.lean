import MineRider.Soundness.Reentrancy

/-! # One-shot callbacks fire once

The result of an action can reach a worker's callback as an action result, as a completion from the
bot's own worker, as a recorded failure, by its timeout, or in the final cleanup, and more than one of
these may happen. All of them take the callback out of the registry before they call it. The trace
therefore balances: a registered callback is waiting, or was called once, or was evicted.
-/

namespace MineRider.Soundness.Callbacks

open List Model.Lua WorkerCells Reentrancy

/-- How often the callback of `id` has been called, with whatever result. -/
def calls (id : UInt64) (trace : List Trace) : ℕ :=
  trace.countP fun event =>
    match event with
    | .invoked (.callback result) => result.requestId == id
    | _ => false

/-- What became of the registrations of `id`. -/
def accounted (pending : Pending) (trace : List Trace) (id : UInt64) : ℕ :=
  calls id trace + trace.count (.evicted id) + if id ∈ pending then 1 else 0

/-- A registration is accounted for at most once, and exactly once unless a second one replaced it. -/
def Balanced (pending : Pending) (trace : List Trace) : Prop :=
  ∀ id, accounted pending trace id ≤ trace.count (.registered id) ∧
    (trace.count (.registered id) ≤ 1 → accounted pending trace id = trace.count (.registered id))

variable {ctx : Context} {pending : Pending} {trace : List Trace}

private theorem balanced_start : Balanced ∅ [] := fun _ => ⟨le_rfl, fun _ => rfl⟩

/-- What moves a registration from one account to another keeps the balance. -/
theorem Balanced.move {pending' : Pending} {event : Trace} (balanced : Balanced pending trace)
    (other : ∀ id, event ≠ .registered id)
    (same : ∀ id, accounted pending' (trace ++ [event]) id = accounted pending trace id) :
    Balanced pending' (trace ++ [event]) := by
  intro id
  have registered : (trace ++ [event]).count (.registered id) = trace.count (.registered id) := by
    rw [count_append, count_singleton, if_neg (by simpa using other id), Nat.add_zero]
  rw [registered, same]
  exact balanced id

theorem calls_append (id : UInt64) (first second : List Trace) :
    calls id (first ++ second) = calls id first + calls id second := countP_append

private theorem accounted_called {what : Invocation} (other : ∀ result, what ≠ .callback result) (id : UInt64) :
    accounted pending (trace ++ [.invoked what]) id = accounted pending trace id := by
  have silent : calls id [.invoked what] = 0 := by
    cases what with
    | callback result => exact absurd rfl (other result)
    | _ => rfl
  simp [accounted, calls_append, silent]

private theorem accounted_fired {result : ActionResult} (member : result.requestId ∈ pending) (other : UInt64) :
    accounted (pending.erase result.requestId) (trace ++ [.invoked (.callback result)]) other =
      accounted pending trace other := by
  by_cases same : other = result.requestId
  · subst same
    have called : calls result.requestId [.invoked (.callback result)] = 1 := by simp [calls]
    simp [accounted, calls_append, called, member]
    omega
  · have called : calls other [.invoked (.callback result)] = 0 := by simp [calls, Ne.symm same]
    simp [accounted, calls_append, called, same]

private theorem accounted_evicted {id : UInt64} (member : id ∈ pending) (other : UInt64) :
    accounted (pending.erase id) (trace ++ [.evicted id]) other = accounted pending trace other := by
  have silent : calls other [.evicted id] = 0 := rfl
  by_cases same : other = id
  · subst same
    simp [accounted, calls_append, silent, member]
    omega
  · simp [accounted, calls_append, silent, same, Ne.symm same]

theorem Balanced.register (balanced : Balanced pending trace) (id : UInt64) (callback : PendingCallback) :
    Balanced (pending.insert id callback) (trace ++ [.registered id]) := by
  intro other
  obtain ⟨bounded, exactly⟩ := balanced other
  have silent : calls other [.registered id] = 0 := rfl
  by_cases same : other = id
  · subst same
    -- If `other` is registered for the first time, nothing was accounted for before.
    have waiting : accounted (pending.insert other callback) (trace ++ [.registered other]) other =
        calls other trace + trace.count (.evicted other) + 1 := by
      simp [accounted, calls_append, silent]
    have counted : (trace ++ [Trace.registered other]).count (.registered other) =
        trace.count (.registered other) + 1 := by
      simp
    rw [accounted] at bounded
    constructor <;> omega
  · have unmoved : accounted (pending.insert id callback) (trace ++ [.registered id]) other =
        accounted pending trace other := by
      simp [accounted, calls_append, silent, same]
    have counted : (trace ++ [Trace.registered id]).count (.registered other) = trace.count (.registered other) := by
      simp [Ne.symm same]
    rw [unmoved, counted]
    exact ⟨bounded, exactly⟩

/-- If result tables can always be built, no callback is lost and the worker keeps the balance. -/
theorem balanced_stable (converts : ∀ k, ctx.converts k = true) : Stable ctx Balanced where
  called other balanced := balanced.move (fun _ => nofun) (accounted_called other)
  registered id callback balanced := balanced.register id callback
  evicted member balanced := balanced.move (fun _ => nofun) (accounted_evicted member)
  fired member balanced := balanced.move (fun _ => nofun) (accounted_fired member)
  lost {n} _ _ _ failed _ _ := by
    rw [converts n] at failed
    contradiction

variable {n : ℕ} [NeZero n]

/-- In every run, whatever path the results take, a one-shot callback whose request id is registered
once is called at most once. When its worker has returned it has been called once, unless the bound on
pending callbacks evicted it. -/
theorem callbacks_fire_once (deployment : Deployment n) (quietCallbacks : ∀ i, CallbacksQuiet (deployment.context i))
    (converts : ∀ i k, (deployment.context i).converts k = true) (steps : List (PoolStep n)) (i : Fin n) (id : UInt64)
    (unique : ((Pool.run deployment steps).threads i).state.trace.count (.registered id) ≤ 1) :
    calls id ((Pool.run deployment steps).threads i).state.trace ≤ 1 ∧
      ∀ report, ((Pool.run deployment steps).threads i).phase = .returned report →
        .registered id ∈ ((Pool.run deployment steps).threads i).state.trace →
        .evicted id ∉ ((Pool.run deployment steps).threads i).state.trace →
        calls id ((Pool.run deployment steps).threads i).state.trace = 1 := by
  have sound := run_sound (fun i => balanced_stable (converts i)) quietCallbacks balanced_start steps i
  generalize (Pool.run deployment steps).threads i = thread at *
  have balance := (sound.holds id).2 unique
  rw [accounted] at balance
  constructor
  · omega
  · intro report returned registered kept
    have positive : 0 < thread.state.trace.count (.registered id) := count_pos_iff.mpr registered
    rw [count_eq_zero.mpr kept, if_neg (sound.drained report returned id)] at balance
    omega

/-- A click on a bot of the second worker from the first one, and then a shutdown. -/
def remoteClickRun : List (PoolStep 2) :=
  [.worker 0, .worker 1, .dispatch (.actionResult 0 ⟨1, 1, .deliveredSent⟩), .push 0, .push 0, .push 0, .push 0] ++
    List.replicate 9 (.worker 0) ++ [.shutdown] ++ List.replicate 4 (.worker 0)

theorem remote_callback_fires_once :
    ((Pool.run (team plainClick fun _ => clickOnce 1) remoteClickRun).threads 0).phase = .returned ⟨1, 0, 0, 0⟩ ∧
      calls 1 ((Pool.run (team plainClick fun _ => clickOnce 1) remoteClickRun).threads 0).state.trace = 1 := by
  have once := callbacks_fire_once (team plainClick fun _ => clickOnce 1) (plainClick_quiet _) (fun _ _ => rfl)
    remoteClickRun 0 1 (by decide)
  exact ⟨rfl, once.2 _ rfl (by decide) (by decide)⟩

end MineRider.Soundness.Callbacks
