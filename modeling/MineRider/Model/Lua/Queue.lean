import MineRider.Model.Lua.Event

/-! # A worker's inbound queue

The queue has three lanes: a high lane that rejects when it is full, one slot per bot and event name
in which the newest value replaces the older one, and a low lane that drops its oldest item. Around it
stands the part that producers and the worker's thread share: the closed flag, and the requests whose
result could not be queued. A push is several atomic steps of its producer; they are separate functions
here, and `push` is their composition.
-/

namespace MineRider.Model.Lua

structure Envelope (ε : Type) where
  botId : UInt32
  event : ε

inductive PushOutcome where
  | accepted
  | droppedOldest
  | coalesced
  | criticalOverflow
  | closed
deriving DecidableEq, Repr

/-- `PriorityQueue` without its counters (those are in `CountedQueue`), over any item with a priority and a name. -/
structure PriorityQueue (ε : Type) where
  high : List (Envelope ε)
  highCapacity : ℕ
  coalesced : AList fun _ : UInt32 × EventName => Envelope ε
  coalesceOrder : List (UInt32 × EventName)
  low : List (Envelope ε)
  lowCapacity : ℕ

namespace PriorityQueue

variable {ε : Type}

def new (highCapacity lowCapacity : ℕ) : PriorityQueue ε := ⟨[], highCapacity, ∅, [], [], lowCapacity⟩

def pushHigh (queue : PriorityQueue ε) (envelope : Envelope ε) : PushOutcome × PriorityQueue ε :=
  if queue.high.length ≥ queue.highCapacity then (.criticalOverflow, queue)
  else (.accepted, { queue with high := queue.high ++ [envelope] })

def pushCoalescible (queue : PriorityQueue ε) (key : UInt32 × EventName) (envelope : Envelope ε) :
    PushOutcome × PriorityQueue ε :=
  let coalesced := queue.coalesced.insert key envelope
  if key ∈ queue.coalesced then (.coalesced, { queue with coalesced })
  else (.accepted, { queue with coalesced, coalesceOrder := queue.coalesceOrder ++ [key] })

def pushLow (queue : PriorityQueue ε) (envelope : Envelope ε) : PushOutcome × PriorityQueue ε :=
  if queue.low.length ≥ queue.lowCapacity then
    (.droppedOldest, { queue with low := queue.low.tail ++ [envelope] })
  else (.accepted, { queue with low := queue.low ++ [envelope] })

def push (priority : ε → Priority) (name : ε → EventName) (queue : PriorityQueue ε) (envelope : Envelope ε) :
    PushOutcome × PriorityQueue ε :=
  match priority envelope.event with
  | .high => queue.pushHigh envelope
  | .coalescible => queue.pushCoalescible (envelope.botId, name envelope.event) envelope
  | .low => queue.pushLow envelope

/-- Takes the coalesced values out in the order of their keys. -/
def drainCoalesced (coalesced : AList fun _ : UInt32 × EventName => Envelope ε) :
    List (UInt32 × EventName) → List (Envelope ε) × AList fun _ : UInt32 × EventName => Envelope ε
  | [] => ([], coalesced)
  | key :: order =>
    let (later, rest) := drainCoalesced (coalesced.erase key) order
    ((coalesced.lookup key).toList ++ later, rest)

/-- Everything that is ready: the high lane, then the coalesced values, then the low lane. -/
def drainReady (queue : PriorityQueue ε) : List (Envelope ε) × PriorityQueue ε :=
  let (values, coalesced) := drainCoalesced queue.coalesced queue.coalesceOrder
  (queue.high ++ values ++ queue.low,
    { queue with high := [], coalesced, coalesceOrder := [], low := [] })

def depth (queue : PriorityQueue ε) : ℕ := queue.high.length + queue.coalesced.keys.length + queue.low.length

end PriorityQueue

structure QueueStats where
  accepted : ℕ := 0
  coalesced : ℕ := 0
  dropped : ℕ := 0
  peakDepth : ℕ := 0

/-- What a lane notes of a push that leaves it with `len` items. -/
def QueueStats.record (stats : QueueStats) (len : ℕ) : PushOutcome → QueueStats
  | .accepted => { stats with accepted := stats.accepted + 1, peakDepth := max stats.peakDepth len }
  | .coalesced => { stats with coalesced := stats.coalesced + 1, peakDepth := max stats.peakDepth len }
  | .droppedOldest => { stats with dropped := stats.dropped + 1, peakDepth := max stats.peakDepth len }
  | .criticalOverflow => { stats with dropped := stats.dropped + 1 }
  | .closed => stats

/-- `PriorityQueue` with the counters of its lanes. -/
structure CountedQueue (ε : Type) where
  queue : PriorityQueue ε
  statsHigh : QueueStats := {}
  statsCoalesced : QueueStats := {}
  statsLow : QueueStats := {}

namespace CountedQueue

variable {ε : Type}

def new (highCapacity lowCapacity : ℕ) : CountedQueue ε := { queue := .new highCapacity lowCapacity }

def push (priority : ε → Priority) (name : ε → EventName) (counted : CountedQueue ε) (envelope : Envelope ε) :
    PushOutcome × CountedQueue ε :=
  let (outcome, queue) := counted.queue.push priority name envelope
  match priority envelope.event with
  | .high => (outcome, { counted with queue, statsHigh := counted.statsHigh.record queue.high.length outcome })
  | .coalescible =>
    let statsCoalesced := counted.statsCoalesced.record queue.coalesced.keys.length outcome
    (outcome, { counted with queue, statsCoalesced })
  | .low => (outcome, { counted with queue, statsLow := counted.statsLow.record queue.low.length outcome })

def drainReady (counted : CountedQueue ε) : List (Envelope ε) × CountedQueue ε :=
  let (batch, queue) := counted.queue.drainReady
  (batch, { counted with queue })

/-- `QueueDesign::peak_depth` of a priority queue -/
def peakDepth (counted : CountedQueue ε) : ℕ :=
  counted.statsHigh.peakDepth + counted.statsCoalesced.peakDepth + counted.statsLow.peakDepth

end CountedQueue

/-- The queue of one worker, as its producers and its thread see it. -/
structure WorkerQueue where
  state : PriorityQueue WorkItem
  closed : Bool
  failedRequests : List (UInt64 × ScriptError)

namespace WorkerQueue

def new (highCapacity lowCapacity : ℕ) : WorkerQueue := ⟨.new highCapacity lowCapacity, false, []⟩

def recordFailure (queue : WorkerQueue) (request : Option UInt64) (error : ScriptError) : WorkerQueue :=
  match request with
  | none => queue
  | some id => { queue with failedRequests := queue.failedRequests ++ [(id, error)] }

/-- The push under the lock. -/
def lockedPush (queue : WorkerQueue) (envelope : Envelope WorkItem) : PushOutcome × WorkerQueue :=
  let (outcome, state) := queue.state.push WorkItem.priority WorkItem.name envelope
  (outcome, { queue with state })

/-- The notice of an overflow, which goes to the low lane. -/
def pushOverloaded (queue : WorkerQueue) : WorkerQueue := (queue.lockedPush ⟨0, .workerOverloaded⟩).2

/-- A push that nothing interrupts. -/
def push (queue : WorkerQueue) (botId : UInt32) (event : WorkItem) : PushOutcome × WorkerQueue :=
  if queue.closed then (.closed, queue.recordFailure event.requestId? .shutdown)
  else
    let (outcome, queue) := queue.lockedPush ⟨botId, event⟩
    if outcome = .criticalOverflow then
      (outcome, (queue.recordFailure event.requestId? .workerOverloaded).pushOverloaded)
    else (outcome, queue)

def takeFailedRequests (queue : WorkerQueue) : List (UInt64 × ScriptError) × WorkerQueue :=
  (queue.failedRequests, { queue with failedRequests := [] })

/-- What `wait_for_batch` returns with: everything that is ready, which is nothing when the wait timed
out or the queue was closed empty. -/
def waitForBatch (queue : WorkerQueue) : List (Envelope WorkItem) × WorkerQueue :=
  let (batch, state) := queue.state.drainReady
  (batch, { queue with state })

def close (queue : WorkerQueue) : WorkerQueue := { queue with closed := true }

end WorkerQueue

end MineRider.Model.Lua
