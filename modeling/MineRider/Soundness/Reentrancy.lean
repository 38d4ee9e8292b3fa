import MineRider.Model.Lua.Pool
import MineRider.Soundness.WorkerCells

/-! # Runs of the worker set, and re-entrancy

Each stage of a worker's loop starts with no guard alive. A run therefore keeps every property of the
pending callbacks that the worker's functions keep, and no borrow conflicts, as long as no one-shot
callback starts another one. With such a callback a worker panics, and the run is a short one.
-/

namespace MineRider.Soundness.Reentrancy

open Model.Lua Machine.Borrow WorkerCells Pool

variable {ctx : Context} {inv : Pending → List Trace → Prop}

/-- The property holds, no borrow has conflicted, and no callback is left once the worker has returned. -/
structure Sound (inv : Pending → List Trace → Prop) (thread : Thread) : Prop where
  holds : On inv thread.state
  alive : ∀ cell, thread.phase ≠ .panicked cell
  drained : ∀ report, thread.phase = .returned report → ∀ id, id ∉ thread.state.pending

/-- The phases in which a worker goes on, or has failed to load. -/
def live : Phase → Bool
  | .returned _ | .panicked _ => false
  | _ => true

theorem Sound.of_live {state : WorkerState} {phase : Phase} (holds : On inv state) (going : live phase = true) :
    Sound inv ⟨state, phase⟩ := by
  refine ⟨holds, ?_, ?_⟩
  · rintro cell rfl
    cases going
  · rintro report rfl
    cases going

variable {thread : Thread}

private theorem exec_sound {α : Type} {program : Worker α} {next : α → WorkerState → Phase}
    {post : α → WorkerState → Prop} (spec : Spec (fun _ => .free) (On inv) program post)
    (sound : Sound inv thread) (arrives : ∀ a state, post a state → Sound inv ⟨state, next a state⟩) :
    Sound inv (thread.exec program next) := by
  obtain ⟨a, state, ran, after⟩ := spec thread.state sound.holds
  rw [Thread.exec, ran]
  exact arrives a state after

/-- A stage that cannot be the last one. -/
theorem exec_keeps {α : Type} {program : Worker α} {next : α → WorkerState → Phase}
    (keeps : Keeps (fun _ => .free) (On inv) program) (sound : Sound inv thread)
    (going : ∀ a state, live (next a state) = true) : Sound inv (thread.exec program next) :=
  exec_sound keeps sound fun a state holds => .of_live holds (going a state)

private theorem thread_step_sound (stable : Stable ctx inv) (quietCallbacks : CallbacksQuiet ctx) (main : LuaProg)
    (shutdown : Bool) (queue : WorkerQueue) (sound : Sound inv thread) :
    Sound inv (thread.step ctx main shutdown queue).1 := by
  have free : ∀ c : Cell, (fun _ : Cell => Machine.Guard.free) c = .free := fun _ => rfl
  rw [Thread.step]
  split
  · refine exec_keeps (runProg_runs stable.admits (fun _ => free) main).keeps sound fun ok _ => ?_
    cases ok with
    | true | false => rfl
  · exact .of_live sound.holds rfl
  · exact .of_live sound.holds rfl
  · refine .of_live sound.holds ?_
    split_ifs
    · rfl
    · rfl
  · exact .of_live sound.holds rfl
  · exact exec_keeps (dispatchCounted_keeps stable quietCallbacks free _) sound fun _ _ => rfl
  · exact .of_live sound.holds rfl
  · exact exec_keeps (resolveOverflowedCallbacks_keeps stable quietCallbacks free _) sound fun _ _ => rfl
  · exact exec_keeps (sweepCallbackTimeouts_keeps stable quietCallbacks free) sound fun _ _ => rfl
  · exact exec_keeps (fireDue_keeps stable free) sound fun _ _ => rfl
  · apply exec_sound (shutdownCleanup_spec stable quietCallbacks free) sound
    intro _ state done
    exact ⟨done.1, fun _ => Phase.noConfusion, fun _ _ => done.2⟩
  all_goals exact sound

variable {n : ℕ} [NeZero n]

section

variable {deployment : Deployment n} (stable : ∀ i, Stable (deployment.context i) inv)
  (quietCallbacks : ∀ i, CallbacksQuiet (deployment.context i))

include stable quietCallbacks

theorem step_sound {pool : Pool n} (sound : ∀ i, Sound inv (pool.threads i)) (step : PoolStep n) (i : Fin n) :
    Sound inv ((pool.step deployment step).threads i) := by
  cases step with
  | worker j =>
    by_cases same : i = j
    · subst same
      have stepped := thread_step_sound (stable i) (quietCallbacks i) (deployment.main i) pool.shutdown
        (pool.queues i) (sound i)
      simpa [step, setQueue] using stepped
    · simpa [step, setQueue, Function.update_of_ne same] using sound i
  | dispatch dispatch | close j | shutdown => exact sound i
  | push k =>
    rw [step]
    split
    · exact sound i
    · exact sound i

/-- A property that the worker's functions keep holds of every worker in every run. -/
theorem run_sound (initially : inv ∅ []) (steps : List (PoolStep n))
    (i : Fin n) : Sound inv ((run deployment steps).threads i) := by
  apply List.foldlRecOn (motive := fun pool => ∀ i, Sound inv (pool.threads i)) steps (step deployment)
  · exact fun _ => .of_live initially rfl
  · intro pool sound step _ i
    exact step_sound stable quietCallbacks sound step i

end

/-- If no one-shot callback starts another one, no worker ever panics on a borrow, whatever else the
Lua functions do and however the workers, the dispatches and the shutdown interleave. -/
theorem borrows_never_conflict (deployment : Deployment n)
    (quietCallbacks : ∀ i, CallbacksQuiet (deployment.context i)) (steps : List (PoolStep n)) (i : Fin n)
    (cell : Cell) : ((Pool.run deployment steps).threads i).phase ≠ .panicked cell := by
  have stable : ∀ i, Stable (deployment.context i) fun _ _ => True := fun i =>
    ⟨fun _ _ => trivial, fun _ _ _ => trivial, fun _ _ => trivial, fun _ _ => trivial, fun _ _ _ => trivial⟩
  exact (run_sound stable quietCallbacks trivial steps i).alive cell

section Clicks

/-- Workers whose VMs never run out of memory. -/
def team (script : Invocation → LuaFn → ℕ → LuaProg) (main : Fin n → LuaProg) : Deployment n where
  context i :=
    { workerIndex := i, workerCount := n, isCoordinator := i.val = 0, consecutiveErrorThreshold := 20,
      callbackTimeout := 10, script, clock := fun _ => 0, requestIds := fun k => UInt64.ofNat (k + 1),
      permits := fun _ => true, allocates := fun _ => true, converts := fun _ => true, order := fun _ ids => ids,
      order_perm := fun _ _ => .refl _ }
  indexed _ := ⟨rfl, rfl⟩
  main := main
  highCapacity := 8
  lowCapacity := 8

/-- The top level of a script that connects its bot and clicks, with a callback. -/
def clickOnce (botId : UInt32) : LuaProg :=
  .call (.connectAll (some ⟨[botId], [botId]⟩)) fun _ => .call (.click botId (some 1)) fun _ => .done true

/-- The script loads, the result of its click arrives, and the worker dispatches it. -/
def clickRun : List (PoolStep 1) :=
  [.worker 0, .dispatch (.actionResult 0 ⟨1, 0, .deliveredSent⟩), .push 0, .push 0, .worker 0, .worker 0, .worker 0,
    .worker 0]

/-- Every one-shot callback clicks again, with another callback. -/
def nestedClick : Invocation → LuaFn → ℕ → LuaProg
  | .callback _, func, _ => .call (.click 0 (some (func + 1))) fun _ => .done true
  | _, _, _ => .done true

theorem nested_click_panics :
    ((Pool.run (team nestedClick fun _ => clickOnce 0) clickRun).threads 0).phase = .panicked .callbacks := by
  rfl

/-- Every one-shot callback clicks again, without one. -/
def plainClick : Invocation → LuaFn → ℕ → LuaProg
  | .callback _, _, _ => .call (.click 0 none) fun _ => .done true
  | _, _, _ => .done true

omit [NeZero n] in
theorem plainClick_quiet (main : Fin n → LuaProg) (i : Fin n) :
    CallbacksQuiet ((team plainClick main).context i) :=
  fun _ _ _ => .call rfl fun _ => .done true

theorem plain_click_does_not_panic :
    .invoked (.callback ⟨1, 0, .deliveredSent⟩) ∈
      ((Pool.run (team plainClick fun _ => clickOnce 0) clickRun).threads 0).state.trace ∧
      ((Pool.run (team plainClick fun _ => clickOnce 0) clickRun).threads 0).phase ≠ .panicked .callbacks :=
  ⟨by decide, borrows_never_conflict _ (plainClick_quiet _) clickRun 0 .callbacks⟩

end Clicks

end MineRider.Soundness.Reentrancy
