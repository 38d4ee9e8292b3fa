import MineRider.Model.Lua.Worker

/-! # The worker set

The threads of `run_worker`, their queues, and the dispatches that other threads are in the middle of.
A worker's thread looks at what it shares with the others (the shutdown flag and its queue) only
between the stages of its loop, so a stage is one step of it. A push touches its queue several times,
and anything may happen in between.

The rest of the process may start a dispatch, close a queue or raise the shutdown flag at any time.
That covers the actions, messages and stop requests of the workers' own scripts, whose effects are not
followed any further.
-/

namespace MineRider.Model.Lua

open Minecraft

section Dispatch

/-- What is left of a push, up to its next access to the queue. -/
inductive PushStep where
  /-- Reads the closed flag. -/
  | check (envelope : Envelope WorkItem)
  /-- Pushes under the lock. -/
  | enqueue (envelope : Envelope WorkItem)
  | recordFailure (request : Option UInt64) (error : ScriptError)
  /-- Pushes the notice of an overflow. -/
  | notify

/-- One access to the queue, and what it leaves to do. -/
def PushStep.run (queue : WorkerQueue) : PushStep → List PushStep × WorkerQueue
  | .check envelope =>
    if queue.closed then ([.recordFailure envelope.event.requestId? .shutdown], queue)
    else ([.enqueue envelope], queue)
  | .enqueue envelope =>
    let (outcome, queue) := queue.lockedPush envelope
    if outcome = .criticalOverflow then
      ([.recordFailure envelope.event.requestId? .workerOverloaded, .notify], queue)
    else ([], queue)
  | .recordFailure request error => ([], queue.recordFailure request error)
  | .notify => ([], queue.pushOverloaded)

/-- What is left of some pushes, run to the end with nothing in between; the number bounds the accesses. -/
def runAlone : ℕ → List PushStep → WorkerQueue → WorkerQueue
  | accesses + 1, step :: rest, queue => runAlone accesses ((step.run queue).1 ++ rest) (step.run queue).2
  | _, _, queue => queue

/-- A push makes at most four accesses, and if nothing comes between them it is `WorkerQueue.push`. -/
theorem push_eq_runAlone (queue : WorkerQueue) (botId : UInt32) (item : WorkItem) :
    runAlone 4 [.check ⟨botId, item⟩] queue = (queue.push botId item).2 := by
  by_cases closed : queue.closed
  · simp [runAlone, PushStep.run, WorkerQueue.push, closed]
  · by_cases overflow : (queue.lockedPush ⟨botId, item⟩).1 = .criticalOverflow
    all_goals simp [runAlone, PushStep.run, WorkerQueue.push, closed, overflow]

variable {n : ℕ} [NeZero n]

/-- What `DispatcherHandle` is called for. -/
inductive Dispatch (n : ℕ) where
  | botEvent (botId : UInt32) (event : BotEvent)
  | actionResult (origin : Fin n) (result : ActionResult)
  | timer (botId : UInt32) (timerId : UInt64)
  | message (topic : String) (payload : SharedValue)

/-- `worker_index_for` -/
def owner (botId : UInt32) : Fin n := Fin.ofNat n botId.toNat

def pushTo (worker : Fin n) (botId : UInt32) (item : WorkItem) : Fin n × PushStep := (worker, .check ⟨botId, item⟩)

def dispatchActionResult (origin : Fin n) (result : ActionResult) : List (Fin n × PushStep) :=
  if origin = owner result.botId then [pushTo (owner result.botId) result.botId (.actionResult result)]
  else [pushTo (owner result.botId) result.botId (.actionResult result),
    pushTo origin result.botId (.callbackCompletion result)]

def broadcastMessage (topic : String) (payload : SharedValue) : List (Fin n × PushStep) :=
  (List.finRange n).map fun worker => pushTo worker 0 (.message topic payload)

/-- The pushes of a dispatch, in order. -/
def Dispatch.pushes : Dispatch n → List (Fin n × PushStep)
  | .botEvent botId event => [pushTo (owner botId) botId (.bot event)]
  | .actionResult origin result => dispatchActionResult origin result
  | .timer botId timerId => [pushTo (owner botId) botId (.timerFired timerId)]
  | .message topic payload => broadcastMessage topic payload

end Dispatch

section Threads

/-- Where a thread stands in `run_worker`. -/
inductive Phase where
  | loading
  /-- The head of the loop. -/
  | top
  | waiting
  | checking (batch : List (Envelope WorkItem))
  | dispatching (batch : List (Envelope WorkItem))
  | taking
  | resolving (failed : List (UInt64 × ScriptError))
  | sweeping
  | firing
  | cleaning
  /-- `run_worker` has returned `Ok`. -/
  | returned (report : WorkerReport)
  /-- The script failed to load. -/
  | failed
  /-- A borrow of the cell conflicted with one that was alive. -/
  | panicked (cell : Cell)

structure Thread where
  state : WorkerState
  phase : Phase

namespace Thread

/-- Runs a program with no guard alive and goes on to the phase it leads to. -/
def exec {α : Type} (program : Worker α) (next : α → WorkerState → Phase) (thread : Thread) : Thread :=
  match program (fun _ => .free) thread.state with
  | .ok (a, state) => ⟨state, next a state⟩
  | .error cell => { thread with phase := .panicked cell }

/-- One stage of `run_worker`. -/
def step (ctx : Context) (main : LuaProg) (shutdown : Bool) (queue : WorkerQueue) (thread : Thread) :
    Thread × WorkerQueue :=
  match thread.phase with
  | .loading => (thread.exec (runProg ctx main) fun ok _ => if ok then .top else .failed, queue)
  | .top => ({ thread with phase := .waiting }, if shutdown then queue.close else queue)
  | .waiting =>
    let (batch, queue) := queue.waitForBatch
    ({ thread with phase := .checking batch }, queue)
  | .checking batch =>
    ({ thread with phase := if batch.isEmpty && shutdown then .cleaning else .dispatching batch }, queue)
  | .dispatching [] => ({ thread with phase := .taking }, queue)
  | .dispatching (envelope :: rest) =>
    (thread.exec (dispatchCounted ctx envelope) fun _ _ => .dispatching rest, queue)
  | .taking =>
    let (failed, queue) := queue.takeFailedRequests
    ({ thread with phase := .resolving failed }, queue)
  | .resolving failed => (thread.exec (resolveOverflowedCallbacks ctx failed) fun _ _ => .sweeping, queue)
  | .sweeping => (thread.exec (sweepCallbackTimeouts ctx) fun _ _ => .firing, queue)
  | .firing => (thread.exec (fireDue ctx) fun _ _ => .top, queue)
  | .cleaning => (thread.exec (shutdownCleanup ctx) fun _ state => .returned state.report, queue)
  | .returned _ | .failed | .panicked _ => (thread, queue)

end Thread

end Threads

section Pool

variable {n : ℕ} [NeZero n]

/-- What a worker set is started with. -/
structure Deployment (n : ℕ) where
  context : Fin n → Context
  indexed : ∀ i, (context i).workerIndex = i ∧ (context i).workerCount = n
  /-- What the top level of the script does on each worker. -/
  main : Fin n → LuaProg
  highCapacity : ℕ
  lowCapacity : ℕ

structure Pool (n : ℕ) where
  threads : Fin n → Thread
  queues : Fin n → WorkerQueue
  /-- The pushes that are left of each dispatch under way. -/
  dispatches : List (List (Fin n × PushStep))
  shutdown : Bool

inductive PoolStep (n : ℕ) where
  | worker (i : Fin n)
  | dispatch (dispatch : Dispatch n)
  /-- The `k`th dispatch under way makes its next access. -/
  | push (k : ℕ)
  | close (i : Fin n)
  | shutdown

namespace Pool

def start (deployment : Deployment n) : Pool n where
  threads _ := ⟨.start, .loading⟩
  queues _ := .new deployment.highCapacity deployment.lowCapacity
  dispatches := []
  shutdown := false

def setQueue (pool : Pool n) (i : Fin n) (queue : WorkerQueue) : Pool n :=
  { pool with queues := Function.update pool.queues i queue }

def step (deployment : Deployment n) (pool : Pool n) : PoolStep n → Pool n
  | .worker i =>
    let (thread, queue) :=
      (pool.threads i).step (deployment.context i) (deployment.main i) pool.shutdown (pool.queues i)
    { pool with threads := Function.update pool.threads i thread }.setQueue i queue
  | .dispatch dispatch => { pool with dispatches := pool.dispatches ++ [dispatch.pushes] }
  | .push k =>
    match pool.dispatches[k]? with
    | some ((i, push) :: rest) =>
      let (more, queue) := push.run (pool.queues i)
      { pool with dispatches := pool.dispatches.set k (more.map (Prod.mk i) ++ rest) }.setQueue i queue
    | _ => pool
  | .close i => pool.setQueue i (pool.queues i).close
  | .shutdown => { pool with shutdown := true }

def run (deployment : Deployment n) (steps : List (PoolStep n)) : Pool n :=
  steps.foldl (step deployment) (start deployment)

end Pool

end Pool

end MineRider.Model.Lua
