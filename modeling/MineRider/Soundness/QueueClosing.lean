import MineRider.Machine.Callers
import MineRider.Machine.Run
import MineRider.Soundness.Lanes
import MineRider.Soundness.Reentrancy

/-! # Results pushed while a worker stops

A push reads the closed flag before it takes the lock, and a worker reads the shutdown flag after its drain.
So a result can enter a queue after the worker's last drain, and is then lost although its push was accepted:
either the push had passed its check and its worker has left the loop since, or it came between an empty drain
and the look at a shutdown flag that was raised in the meantime. Where neither happens, a worker that has left
its loop has drained every accepted result. A result that is refused is always recorded.

The ledger of a worker is kept beside the worker set and does not change what that does.
-/

namespace MineRider.Soundness.QueueClosing

open List Model.Lua Machine Lanes PriorityQueue WorkItem
open Function (update update_of_ne update_self)

section Statement

/-- An `ActionResult` or a `CallbackCompletion`. -/
def resolvable (envelope : Envelope WorkItem) : Bool := envelope.event.requestId?.isSome

structure Ledger where
  /-- The results whose push was accepted. -/
  accepted : List (Envelope WorkItem)
  drained : List (Envelope WorkItem)
  /-- The requests whose result was refused. -/
  refused : List UInt64
  /-- The failed requests that the worker has taken. -/
  taken : List UInt64

/-- The outcome of a push, when this access to the queue decides it. -/
def decided (queue : WorkerQueue) : PushStep → Option (Envelope WorkItem × PushOutcome)
  | .check envelope => if queue.closed then some (envelope, .closed) else none
  | .enqueue envelope => some (envelope, (queue.lockedPush envelope).1)
  | .recordFailure .. | .notify => none

def Ledger.access (queue : WorkerQueue) (push : PushStep) (ledger : Ledger) : Ledger :=
  match decided queue push with
  | some (envelope, .accepted) => { ledger with accepted := ledger.accepted ++ [envelope].filter resolvable }
  | some (envelope, _) => { ledger with refused := ledger.refused ++ envelope.event.requestId?.toList }
  | none => ledger

def Ledger.stage (phase : Phase) (queue : WorkerQueue) (ledger : Ledger) : Ledger :=
  match phase with
  | .waiting => { ledger with drained := ledger.drained ++ queue.waitForBatch.1.filter resolvable }
  | .taking => { ledger with taken := ledger.taken ++ queue.takeFailedRequests.1.map Prod.fst }
  | _ => ledger

variable {n : ℕ} [NeZero n]

/-- A worker set with a ledger for every worker. -/
structure Audited (n : ℕ) where
  pool : Pool n
  ledgers : Fin n → Ledger

def Audited.start (deployment : Deployment n) : Audited n := ⟨.start deployment, fun _ => ⟨[], [], [], []⟩⟩

def Audited.step (deployment : Deployment n) (a : Audited n) (step : PoolStep n) : Audited n where
  pool := a.pool.step deployment step
  ledgers :=
    match step with
    | .worker i =>
      update a.ledgers i ((a.ledgers i).stage (a.pool.threads i).phase (a.pool.queues i))
    | .push k =>
      match a.pool.dispatches[k]? with
      | some ((i, push) :: _) => update a.ledgers i ((a.ledgers i).access (a.pool.queues i) push)
      | _ => a.ledgers
    | .dispatch _ | .close _ | .shutdown => a.ledgers

def Audited.run (deployment : Deployment n) (steps : List (PoolStep n)) : Audited n :=
  steps.foldl (Audited.step deployment) (.start deployment)

/-- The worker has left its loop. -/
def exited : Phase → Bool
  | .cleaning | .returned _ => true
  | _ => false

/-- The requests that an access to the queue will record as failed. -/
def owed : PushStep → List UInt64
  | .recordFailure request _ => request.toList
  | .check _ | .enqueue _ | .notify => []

/-- What a list of pushes has still to record for a worker. -/
def owedTo (i : Fin n) (pushes : List (Fin n × PushStep)) : List UInt64 :=
  pushes.flatMap fun push => if push.1 = i then owed push.2 else []

/-- The failures that pushes under way have still to record for a worker. -/
def outstanding (i : Fin n) (pool : Pool n) : List UInt64 := owedTo i pool.dispatches.flatten

/-- Every refused result is in the list of failed requests, or was taken from it by the worker, unless its push
has not got there yet. -/
def RefusedRecorded (i : Fin n) (a : Audited n) : Prop :=
  (a.ledgers i).refused.Perm
    ((a.ledgers i).taken ++ (a.pool.queues i).failedRequests.map Prod.fst ++ outstanding i a.pool)

/-- A worker that has left its loop has drained the accepted results, in the order they were accepted. -/
def AcceptedDrained (i : Fin n) (a : Audited n) : Prop :=
  exited (a.pool.threads i).phase = true → (a.ledgers i).accepted = (a.ledgers i).drained

/-- The results in the queue. -/
def waiting (queue : WorkerQueue) : List (Envelope WorkItem) := queue.state.high.filter resolvable

/-- The worker is about to leave its loop. -/
def leaving (shutdown : Bool) : Phase → Bool
  | .checking batch => batch.isEmpty && shutdown
  | _ => false

/-- The access puts a result into the queue, if there is room for it. -/
def entering : PushStep → Bool
  | .enqueue envelope => resolvable envelope
  | .check _ | .recordFailure .. | .notify => false

def hasRoom (queue : WorkerQueue) : Bool := queue.state.high.length < queue.state.highCapacity

/-- No result enters the queue of a worker that has left its loop, and a worker only leaves it if no result has
entered its queue since the last drain. -/
def Timely (a : Audited n) : PoolStep n → Prop
  | .worker i => leaving a.pool.shutdown (a.pool.threads i).phase = true → (waiting (a.pool.queues i)).isEmpty = true
  | .push k => ∀ pushes ∈ a.pool.dispatches[k]?, ∀ push ∈ pushes.head?, entering push.2 = true →
    hasRoom (a.pool.queues push.1) = true → exited (a.pool.threads push.1).phase = false
  | .dispatch _ | .close _ | .shutdown => True

instance (a : Audited n) : ∀ step, Decidable (Timely a step)
  | .worker i => inferInstanceAs (Decidable (leaving a.pool.shutdown (a.pool.threads i).phase = true → _))
  | .push k => inferInstanceAs (Decidable (∀ pushes ∈ a.pool.dispatches[k]?, ∀ push ∈ pushes.head?,
      entering push.2 = true → hasRoom (a.pool.queues push.1) = true → _))
  | .dispatch _ | .close _ | .shutdown => .isTrue trivial

end Statement

section Accesses

variable {queue : WorkerQueue} {envelope : Envelope WorkItem} {ledger : Ledger} {highCapacity lowCapacity : ℕ}

/-- Results go to the high lane. -/
theorem high_of_resolvable (isResult : resolvable envelope = true) : envelope.event.priority = .high := by
  obtain ⟨botId, item⟩ := envelope
  cases item with
  | actionResult | callbackCompletion => rfl
  | _ => cases isResult

/-- A result is accepted where there is room, and refused otherwise. -/
theorem lockedPush_result (isResult : resolvable envelope = true) : queue.lockedPush envelope =
    if hasRoom queue = true then
      (.accepted, { queue with state := { queue.state with high := queue.state.high ++ [envelope] } })
    else (.criticalOverflow, queue) := by
  rw [WorkerQueue.lockedPush, push, high_of_resolvable isResult]
  by_cases room : queue.state.high.length < queue.state.highCapacity
  · simp [pushHigh, hasRoom, room, Nat.not_le.mpr room]
  · simp [pushHigh, hasRoom, room, Nat.not_lt.mp room]

/-- Nothing else changes which results are in the queue. -/
theorem waiting_lockedPush (other : resolvable envelope = false) :
    waiting (queue.lockedPush envelope).2 = waiting queue := by
  have skipped : ∀ items : List (Envelope WorkItem),
      (items ++ [envelope]).filter resolvable = items.filter resolvable := by
    intro items
    rw [filter_append, filter_cons_of_neg (by simp [other]), filter_nil, append_nil]
  simp only [waiting, WorkerQueue.lockedPush, push]
  cases envelope.event.priority with
  | high =>
    dsimp only [pushHigh]
    split
    · rfl
    · exact skipped _
  | coalescible =>
    dsimp only [pushCoalescible]
    split <;> rfl
  | low =>
    dsimp only [pushLow]
    split <;> rfl

/-- The lanes of the queue are as its pushes have left them. -/
def Kept (highCapacity lowCapacity : ℕ) (queue : WorkerQueue) : Prop :=
  ∃ t : Lanes.Trace WorkItem, t.queue = queue.state ∧ Held priority name highCapacity lowCapacity t

section

variable (kept : Kept highCapacity lowCapacity queue)

include kept

theorem Kept.lockedPush (envelope : Envelope WorkItem) :
    Kept highCapacity lowCapacity (queue.lockedPush envelope).2 := by
  obtain ⟨t, same, held⟩ := kept
  refine ⟨t.step priority name (.push envelope), ?_, step_held held _⟩
  change (t.queue.push _ _ envelope).2 = _
  rw [same]
  rfl

theorem Kept.waitForBatch : Kept highCapacity lowCapacity queue.waitForBatch.2 := by
  obtain ⟨t, same, held⟩ := kept
  refine ⟨t.step priority name .drain, ?_, step_held held _⟩
  change t.queue.drainReady.2 = _
  rw [same]
  rfl

/-- A drain takes exactly the results in the queue. -/
theorem Kept.filter_batch : queue.waitForBatch.1.filter resolvable = waiting queue := by
  obtain ⟨t, same, held⟩ := kept
  have high := held.filter_drainReady
  rw [same] at high
  change queue.state.drainReady.1.filter resolvable = queue.state.high.filter resolvable
  rw [← high, filter_filter]
  refine filter_congr fun envelope _ => ?_
  cases isResult : resolvable envelope with
  | false => rfl
  | true => simp [inLane, high_of_resolvable isResult]

end

/-- What the ledger of a worker says about its queue, when `pending` are the failures still to be recorded. -/
structure Books (highCapacity lowCapacity : ℕ) (queue : WorkerQueue) (pending : List UInt64) (ledger : Ledger) :
    Prop where
  kept : Kept highCapacity lowCapacity queue
  accepted : ledger.accepted = ledger.drained ++ waiting queue
  refused : ledger.refused.Perm (ledger.taken ++ queue.failedRequests.map Prod.fst ++ pending)

theorem Books.start : Books highCapacity lowCapacity (.new highCapacity lowCapacity) [] ⟨[], [], [], []⟩ :=
  ⟨⟨⟨_, [], []⟩, rfl, Holds.new⟩, rfl, .refl _⟩

theorem Books.perm {pending pending' : List UInt64} (books : Books highCapacity lowCapacity queue pending ledger)
    (perm : pending.Perm pending') : Books highCapacity lowCapacity queue pending' ledger :=
  { books with refused := books.refused.trans (perm.append_left _) }

variable {rest : List UInt64}

/-- A result is refused, and its failure is still to be recorded. -/
theorem Books.refuse (books : Books highCapacity lowCapacity queue rest ledger)
    (requests : List UInt64) : Books highCapacity lowCapacity queue (requests ++ rest)
      { ledger with refused := ledger.refused ++ requests } where
  kept := books.kept
  accepted := books.accepted
  refused := by
    refine (books.refused.append_right requests).trans ?_
    rw [append_assoc]
    exact perm_append_comm.append_left _

theorem Books.record {request : Option UInt64} (error : ScriptError)
    (books : Books highCapacity lowCapacity queue (request.toList ++ rest) ledger) :
    Books highCapacity lowCapacity (queue.recordFailure request error) rest ledger := by
  cases request with
  | none => exact books
  | some id =>
    refine ⟨books.kept, books.accepted, ?_⟩
    have refused := books.refused
    simpa [WorkerQueue.recordFailure, append_assoc] using refused

/-- Something that is not a result is pushed. -/
theorem Books.pushOther (books : Books highCapacity lowCapacity queue rest ledger)
    (other : resolvable envelope = false) :
    Books highCapacity lowCapacity (queue.lockedPush envelope).2 rest ledger where
  kept := books.kept.lockedPush envelope
  accepted := by rw [waiting_lockedPush other, books.accepted]
  refused := books.refused

theorem Books.accept (books : Books highCapacity lowCapacity queue rest ledger)
    (isResult : resolvable envelope = true) (room : hasRoom queue = true) :
    Books highCapacity lowCapacity (queue.lockedPush envelope).2 rest
      { ledger with accepted := ledger.accepted ++ [envelope].filter resolvable } where
  kept := books.kept.lockedPush envelope
  accepted := by
    rw [lockedPush_result isResult, if_pos room, books.accepted, append_assoc, waiting, waiting, filter_append]
  refused := by
    exact books.refused

private theorem access_other (other : resolvable envelope = false) :
    ledger.access queue (.enqueue envelope) = ledger := by
  have silent : envelope.event.requestId? = none := by simpa [resolvable] using other
  simp only [Ledger.access, decided]
  split <;> simp_all

/-- One access of a push. -/
theorem Books.access (push : PushStep) (books : Books highCapacity lowCapacity queue (owed push ++ rest) ledger) :
    Books highCapacity lowCapacity (push.run queue).2 ((push.run queue).1.flatMap owed ++ rest)
      (ledger.access queue push) := by
  cases push with
  | check envelope =>
    by_cases closed : queue.closed
    · simp only [PushStep.run, Ledger.access, decided, if_pos closed, flatMap_singleton]
      exact books.refuse _
    · simp only [PushStep.run, Ledger.access, decided, if_neg closed, flatMap_singleton]
      exact books
  | enqueue envelope =>
    cases isResult : resolvable envelope with
    | true =>
      by_cases room : hasRoom queue = true
      · have accepted := books.accept isResult room
        simp only [PushStep.run, Ledger.access, decided, lockedPush_result isResult, if_pos room] at accepted ⊢
        exact accepted
      · simp only [PushStep.run, Ledger.access, decided, lockedPush_result isResult, if_neg room]
        simpa [owed] using books.refuse envelope.event.requestId?.toList
    | false =>
      have silent : envelope.event.requestId? = none := by simpa [resolvable] using isResult
      have pushed := books.pushOther isResult
      rw [access_other isResult]
      simp only [PushStep.run, silent]
      split <;> exact pushed
  | recordFailure request error => exact books.record error
  | notify =>
    have other : resolvable ⟨0, .workerOverloaded⟩ = false := rfl
    exact books.pushOther other

/-- One stage of the worker. -/
theorem Books.stage {pending : List UInt64} (books : Books highCapacity lowCapacity queue pending ledger)
    (ctx : Context) (main : LuaProg) (shutdown : Bool) (thread : Thread) :
    Books highCapacity lowCapacity (thread.step ctx main shutdown queue).2 pending
      (ledger.stage thread.phase queue) := by
  obtain ⟨state, phase⟩ := thread
  cases phase with
  | top => cases shutdown <;> exact ⟨books.kept, books.accepted, books.refused⟩
  | waiting =>
    refine ⟨books.kept.waitForBatch, ?_, books.refused⟩
    change ledger.accepted = ledger.drained ++ queue.waitForBatch.1.filter resolvable ++ []
    rw [books.kept.filter_batch, append_nil, books.accepted]
  | taking =>
    refine ⟨books.kept, books.accepted, ?_⟩
    change ledger.refused.Perm (ledger.taken ++ queue.failedRequests.map Prod.fst ++ [] ++ pending)
    rw [append_nil]
    exact books.refused
  | dispatching batch => cases batch <;> exact books
  | _ => exact books

end Accesses

section Exits

private theorem exec_exited {α : Type} (program : Worker α) {next : α → WorkerState → Phase} (thread : Thread)
    (goesOn : ∀ a state, exited (next a state) = false) : exited (thread.exec program next).phase = false := by
  rw [Thread.exec]
  split
  · exact goesOn _ _
  · rfl

/-- A worker has left its loop only if it had before, or was about to leave it. -/
theorem exited_step {ctx : Context} {main : LuaProg} {shutdown : Bool} {queue : WorkerQueue} {thread : Thread}
    (after : exited (thread.step ctx main shutdown queue).1.phase = true) :
    (exited thread.phase = true ∨ leaving shutdown thread.phase = true) ∧
      (thread.step ctx main shutdown queue).2 = queue := by
  obtain ⟨state, phase⟩ := thread
  cases phase with
  | checking batch =>
    refine ⟨.inr ?_, rfl⟩
    by_contra stays
    rw [Thread.step] at after
    simp only [leaving] at stays
    simp [stays, exited] at after
  | cleaning | returned report => exact ⟨.inl rfl, rfl⟩
  | dispatching batch =>
    cases batch with
    | nil => cases after
    | cons envelope rest =>
      rw [Thread.step, exec_exited _ _ fun _ _ => rfl] at after
      cases after
  | loading =>
    rw [Thread.step, exec_exited _ _ fun ok _ => by cases ok <;> rfl] at after
    cases after
  | resolving failed | sweeping | firing =>
    rw [Thread.step, exec_exited _ _ fun _ _ => rfl] at after
    cases after
  | top | waiting | taking | failed | panicked => cases after

end Exits

section Pushes

variable {n : ℕ} {i j : Fin n}

theorem owedTo_append (i : Fin n) (first second : List (Fin n × PushStep)) :
    owedTo i (first ++ second) = owedTo i first ++ owedTo i second := flatMap_append

private theorem owedTo_own (i : Fin n) (steps : List PushStep) :
    owedTo i (steps.map (Prod.mk i)) = steps.flatMap owed := by
  simp [owedTo, flatMap_map]

private theorem owedTo_other (other : j ≠ i) (steps : List PushStep) : owedTo i (steps.map (Prod.mk j)) = [] := by
  simp [owedTo, flatMap_map, other]

theorem owedTo_cons (i : Fin n) (push : PushStep) (rest : List (Fin n × PushStep)) :
    owedTo i ((j, push) :: rest) = (if j = i then owed push else []) ++ owedTo i rest := flatMap_cons

private theorem owedTo_perm (i : Fin n) {first second : List (Fin n × PushStep)} (perm : first.Perm second) :
    (owedTo i first).Perm (owedTo i second) := perm.flatMap_right _

/-- A dispatch starts with its checks. -/
theorem owedTo_dispatch [NeZero n] (i : Fin n) (dispatch : Dispatch n) : owedTo i dispatch.pushes = [] := by
  cases dispatch with
  | botEvent botId event | timer botId timerId => simp [Dispatch.pushes, owedTo, pushTo, owed]
  | actionResult origin result =>
    rw [Dispatch.pushes, dispatchActionResult]
    split <;> simp [owedTo, pushTo, owed]
  | message topic payload => simp [Dispatch.pushes, broadcastMessage, owedTo, pushTo, owed, flatMap_map]

end Pushes

section Runs

variable {n : ℕ} [NeZero n] {deployment : Deployment n} {a : Audited n}

/-- The books of all workers. -/
def AllBooks (deployment : Deployment n) (a : Audited n) : Prop :=
  ∀ i, Books deployment.highCapacity deployment.lowCapacity (a.pool.queues i) (outstanding i a.pool) (a.ledgers i)

omit [NeZero n] in
theorem AllBooks.start (deployment : Deployment n) : AllBooks deployment (.start deployment) := fun _ => Books.start

theorem step_worker (j : Fin n) : a.step deployment (.worker j) =
    ⟨{ a.pool with
        threads := update a.pool.threads j ((a.pool.threads j).step (deployment.context j) (deployment.main j)
          a.pool.shutdown (a.pool.queues j)).1 }.setQueue j
      ((a.pool.threads j).step (deployment.context j) (deployment.main j) a.pool.shutdown (a.pool.queues j)).2,
      update a.ledgers j ((a.ledgers j).stage (a.pool.threads j).phase (a.pool.queues j))⟩ := rfl

theorem AllBooks.worker (books : AllBooks deployment a) (j : Fin n) :
    AllBooks deployment (a.step deployment (.worker j)) := by
  intro i
  change Books _ _ (update a.pool.queues j _ i) (outstanding i a.pool) (update a.ledgers j _ i)
  by_cases same : i = j
  · subst same
    rw [update_self, update_self]
    exact (books i).stage _ _ _ _
  · rw [update_of_ne same, update_of_ne same]
    exact books i

theorem AllBooks.dispatch (books : AllBooks deployment a) (dispatch : Dispatch n) :
    AllBooks deployment (a.step deployment (.dispatch dispatch)) := by
  intro i
  have same : owedTo i (a.pool.dispatches ++ [dispatch.pushes]).flatten = outstanding i a.pool := by
    rw [flatten_append, flatten_singleton, owedTo_append, owedTo_dispatch, append_nil, outstanding]
  change Books _ _ (a.pool.queues i) (owedTo i (a.pool.dispatches ++ [dispatch.pushes]).flatten) (a.ledgers i)
  rw [same]
  exact books i

theorem AllBooks.close (books : AllBooks deployment a) (j : Fin n) :
    AllBooks deployment (a.step deployment (.close j)) := by
  intro i
  change Books _ _ (update a.pool.queues j _ i) (outstanding i a.pool) (a.ledgers i)
  by_cases same : i = j
  · subst same
    rw [update_self]
    exact ⟨(books i).kept, (books i).accepted, (books i).refused⟩
  · rw [update_of_ne same]
    exact books i

theorem step_push {k : ℕ} {j : Fin n} {push : PushStep} {rest : List (Fin n × PushStep)}
    (found : a.pool.dispatches[k]? = some ((j, push) :: rest)) : a.step deployment (.push k) =
      ⟨{ a.pool with
          dispatches := a.pool.dispatches.set k ((push.run (a.pool.queues j)).1.map (Prod.mk j) ++ rest) }.setQueue j
        (push.run (a.pool.queues j)).2,
        update a.ledgers j ((a.ledgers j).access (a.pool.queues j) push)⟩ := by
  simp only [Audited.step, Pool.step, found]

theorem AllBooks.push (books : AllBooks deployment a) {k : ℕ} {j : Fin n} {push : PushStep}
    {rest : List (Fin n × PushStep)} (found : a.pool.dispatches[k]? = some ((j, push) :: rest)) :
    AllBooks deployment (a.step deployment (.push k)) := by
  rw [step_push found]
  intro i
  obtain ⟨others, before, after⟩ := flatten_set_perm found ((push.run (a.pool.queues j)).1.map (Prod.mk j) ++ rest)
  have before := owedTo_perm i before
  have after := owedTo_perm i after
  rw [owedTo_append, owedTo_cons, append_assoc] at before
  rw [owedTo_append, owedTo_append, append_assoc] at after
  change Books _ _ (update a.pool.queues j _ i) (owedTo i (List.set _ _ _).flatten)
    (update a.ledgers j _ i)
  by_cases same : i = j
  · subst same
    rw [update_self, update_self]
    rw [if_pos rfl] at before
    rw [owedTo_own] at after
    exact (((books i).perm before).access push).perm after.symm
  · rw [update_of_ne same, update_of_ne same]
    rw [if_neg (Ne.symm same)] at before
    rw [owedTo_other (Ne.symm same)] at after
    exact (books i).perm (before.trans after.symm)

theorem step_books (books : AllBooks deployment a) (step : PoolStep n) :
    AllBooks deployment (a.step deployment step) := by
  cases step with
  | worker j => exact books.worker j
  | dispatch dispatch => exact books.dispatch dispatch
  | close j => exact books.close j
  | shutdown => exact books
  | push k =>
    match found : a.pool.dispatches[k]? with
    | some ((j, push) :: rest) => exact books.push found
    | some [] | none =>
      have idle : a.step deployment (.push k) = a := by simp only [Audited.step, Pool.step, found]
      rw [idle]
      exact books

/-- Nothing waits for a worker that has left its loop. -/
def ExitsEmpty (a : Audited n) : Prop :=
  ∀ i, exited (a.pool.threads i).phase = true → waiting (a.pool.queues i) = []

private theorem waiting_run {queue : WorkerQueue} (push : PushStep)
    (outside : entering push = true → hasRoom queue = false) :
    waiting (push.run queue).2 = waiting queue := by
  cases push with
  | check envelope =>
    rw [PushStep.run]
    split <;> rfl
  | enqueue envelope =>
    have unchanged : waiting (queue.lockedPush envelope).2 = waiting queue := by
      cases isResult : resolvable envelope with
      | true => rw [lockedPush_result isResult, outside isResult]; rfl
      | false => exact waiting_lockedPush isResult
    rw [← unchanged, PushStep.run]
    dsimp only
    split <;> rfl
  | recordFailure request error => cases request <;> rfl
  | notify =>
    have other : resolvable ⟨0, .workerOverloaded⟩ = false := rfl
    exact waiting_lockedPush other

theorem step_exitsEmpty (exits : ExitsEmpty a) (step : PoolStep n) (timely : Timely a step) :
    ExitsEmpty (a.step deployment step) := by
  intro i
  cases step with
  | worker j =>
    rw [step_worker]
    change exited (update a.pool.threads j _ i).phase = true →
      waiting (update a.pool.queues j _ i) = []
    by_cases same : i = j
    · subst same
      rw [update_self, update_self]
      intro after
      obtain ⟨before | leaves, unchanged⟩ := exited_step after
      · rw [unchanged]
        exact exits i before
      · rw [unchanged]
        exact isEmpty_iff.mp (timely leaves)
    · rw [update_of_ne same, update_of_ne same]
      exact exits i
  | dispatch dispatch | shutdown => exact exits i
  | close j =>
    change _ → waiting (update a.pool.queues j _ i) = []
    by_cases same : i = j
    · subst same
      rw [update_self]
      exact exits i
    · rw [update_of_ne same]
      exact exits i
  | push k =>
    match found : a.pool.dispatches[k]? with
    | some ((j, push) :: rest) =>
      rw [step_push found]
      change exited (a.pool.threads i).phase = true → waiting (update a.pool.queues j _ i) = []
      by_cases same : i = j
      · subst same
        rw [update_self]
        intro out
        rw [waiting_run push fun enters => ?_, exits i out]
        by_contra room
        have inside := timely _ found (i, push) rfl enters (by simpa using room)
        rw [out] at inside
        cases inside
      · rw [update_of_ne same]
        exact exits i
    | some [] | none =>
      have idle : a.step deployment (.push k) = a := by simp only [Audited.step, Pool.step, found]
      rw [idle]
      exact exits i

theorem run_books (deployment : Deployment n) (steps : List (PoolStep n)) :
    AllBooks deployment (Audited.run deployment steps) :=
  List.foldlRecOn (motive := AllBooks deployment) steps _ (.start deployment) fun _ books step _ =>
    step_books books step

/-- The ledgers only watch. -/
theorem run_pool (deployment : Deployment n) (steps : List (PoolStep n)) :
    (Audited.run deployment steps).pool = Pool.run deployment steps :=
  (foldl_hom Audited.pool fun _ _ => rfl).symm

/-- Refused results are always recorded; accepted ones are drained before their worker leaves its loop, unless they
come too late. -/
theorem results_are_settled (deployment : Deployment n) (steps : List (PoolStep n)) :
    (∀ i, RefusedRecorded i (Audited.run deployment steps)) ∧
      (Along (Audited.step deployment) Timely (.start deployment) steps →
        ∀ i, AcceptedDrained i (Audited.run deployment steps)) := by
  have books := run_books deployment steps
  refine ⟨fun i => (books i).refused, fun timely i out => ?_⟩
  have exits : ExitsEmpty (Audited.run deployment steps) :=
    timely.invariant (fun _ step exits allowed => step_exitsEmpty exits step allowed) fun _ => nofun
  rw [(books i).accepted, exits i out, append_nil]

/-- No accepted result is lost, repeated or overtaken: it was drained, or it waits in its worker's queue. -/
theorem results_are_conserved (deployment : Deployment n) (steps : List (PoolStep n)) (i : Fin n) :
    ((Audited.run deployment steps).ledgers i).accepted =
      ((Audited.run deployment steps).ledgers i).drained ++ waiting ((Pool.run deployment steps).queues i) := by
  rw [← run_pool]
  exact (run_books deployment steps i).accepted

end Runs

section Stops

/-- One worker whose script does nothing. -/
def idleWorker : Deployment 1 := Reentrancy.team (fun _ _ _ => .done true) fun _ => .done true

/-- Its index. -/
def sole : Fin 1 := ⟨0, Nat.one_pos⟩

def result : ActionResult := ⟨1, 0, .deliveredSent⟩

/-- A result arrives, the worker drains it, and leaves its loop in the round after that. -/
def promptResult : List (PoolStep 1) :=
  List.flatten [[.worker sole, .dispatch (.actionResult sole result), .push 0, .push 0, .shutdown],
    List.replicate 9 (.worker sole), List.replicate 3 (.worker sole)]

theorem prompt_result_is_drained : Along (Audited.step idleWorker) Timely (.start idleWorker) promptResult ∧
    exited ((Audited.run idleWorker promptResult).pool.threads 0).phase = true ∧
    ((Audited.run idleWorker promptResult).ledgers 0).accepted =
      ((Audited.run idleWorker promptResult).ledgers 0).drained := by
  have timely : Along (Audited.step idleWorker) Timely (.start idleWorker) promptResult := by decide
  have out : exited ((Audited.run idleWorker promptResult).pool.threads 0).phase = true := by decide
  exact ⟨timely, out, (results_are_settled idleWorker promptResult).2 timely 0 out⟩

/-- A push passes its check; then the worker is stopped, drains its empty queue and leaves its loop. -/
def lateResult : List (PoolStep 1) :=
  List.flatten [[.worker sole, .dispatch (.actionResult sole result), .push 0, .shutdown],
    List.replicate 3 (.worker sole), [.push 0]]

/-- The result is accepted all the same, and nobody will drain it. -/
theorem late_result_is_lost : ¬AcceptedDrained 0 (Audited.run idleWorker lateResult) := by
  intro settled
  have drained := settled (by decide)
  exact absurd (congrArg List.length drained) (by decide)

/-- It is still in the queue. -/
theorem late_result_waits : ((Audited.run idleWorker lateResult).ledgers 0).accepted =
    waiting ((Pool.run idleWorker lateResult).queues 0) :=
  results_are_conserved idleWorker lateResult 0

end Stops

end MineRider.Soundness.QueueClosing
