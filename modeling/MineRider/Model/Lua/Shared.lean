import MineRider.Model.Lua.Event

/-! # Shared state of the workers

`swarm.shared`: one store of versioned values behind a mutex, used by the scripts of all workers. `get` and
`set` take the lock once. `update` takes it once to read and once to compare and swap, and runs a function of
the script in between, so everything else may happen there. What that function returns is an input.

Every write that takes effect is also kept in `writes`, which the code does not have.
-/

namespace MineRider.Model.Lua

section Store

def maxStoreKeys : ℕ := 4096

/-- In bytes. -/
def maxKeyLen : ℕ := 256

structure Versioned where
  value : SharedValue
  version : UInt64

structure SharedState where
  store : AList fun _ : String => Versioned

/-- The errors of the store itself. -/
inductive SharedStateError where
  | storeFull
  | keyTooLong
deriving DecidableEq, Repr

def SharedStateError.display : SharedStateError → String
  | .storeFull => "shared store is full (max 4096 keys)"
  | .keyTooLong => "shared-state key exceeds the 256-byte limit"

namespace SharedState

def new : SharedState := ⟨∅⟩

def get (s : SharedState) (key : String) : Option SharedValue := (s.store.lookup key).map Versioned.value

/-- There is no room for one more key. -/
def full (s : SharedState) (key : String) : Bool := key ∉ s.store ∧ s.store.keys.length ≥ maxStoreKeys

def insert (s : SharedState) (key : String) (entry : Versioned) : SharedState := ⟨s.store.insert key entry⟩

def set (s : SharedState) (key : String) (value : SharedValue) : Except SharedStateError Unit × SharedState :=
  if key.utf8ByteSize > maxKeyLen then (.error .keyTooLong, s)
  else if s.full key then (.error .storeFull, s)
  else
    let version := match s.store.lookup key with
      | some entry => entry.version + 1
      | none => 0
    (.ok (), s.insert key ⟨value, version⟩)

def readForUpdate (s : SharedState) (key : String) : SharedValue × UInt64 :=
  match s.store.lookup key with
  | some entry => (entry.value, entry.version)
  | none => (.nil, 0)

/-- The version that `compare_and_swap` compares with. -/
def currentVersion (s : SharedState) (key : String) : UInt64 := ((s.store.lookup key).map Versioned.version).getD 0

def compareAndSwap (s : SharedState) (key : String) (expectedVersion : UInt64) (newValue : SharedValue) :
    Except SharedStateError Bool × SharedState :=
  if key.utf8ByteSize > maxKeyLen then (.error .keyTooLong, s)
  else if s.currentVersion key ≠ expectedVersion then (.ok false, s)
  else if s.full key then (.error .storeFull, s)
  else (.ok true, s.insert key ⟨newValue, expectedVersion + 1⟩)

end SharedState

end Store

section Updates

def maxUpdateRetries : ℕ := 8

/-- What an update has read. -/
structure Reading where
  current : SharedValue
  version : UInt64
  /-- How many writes had taken effect by then. -/
  seen : ℕ

/-- How the function of the script ends. -/
inductive Updater where
  | raises
  /-- It returns something that is not a `SharedValue`. -/
  | unsupported (message : String)
  | returns (value : SharedValue)

inductive UpdateResult where
  | updated (value : SharedValue)
  | failed (error : ScriptError)
  | raised

inductive UpdateStage where
  | reading
  /-- The function of the script runs. -/
  | calling (read : Reading)
  | swapping (read : Reading) (newValue : SharedValue)
  | returned (result : UpdateResult)

/-- One call of `update`. -/
structure UpdateCall where
  key : String
  /-- The rounds of the loop that are left, with the one in progress. -/
  rounds : ℕ
  stage : UpdateStage

namespace UpdateCall

def start (key : String) : UpdateCall := ⟨key, maxUpdateRetries, .reading⟩

def finish (call : UpdateCall) (result : UpdateResult) : UpdateCall := { call with stage := .returned result }

def invalidConfiguration (message : String) : ScriptError := .new "invalid_configuration" message

/-- The compare-and-swap has failed. -/
def again (call : UpdateCall) : UpdateCall :=
  if call.rounds ≤ 1 then
    call.finish (.failed
      { invalidConfiguration "shared:update contention exceeded retry limit" with retryable := true })
  else { call with rounds := call.rounds - 1, stage := .reading }

/-- The function of the script returns. -/
def called (call : UpdateCall) (read : Reading) : Updater → UpdateCall
  | .raises => call.finish .raised
  | .unsupported message => call.finish (.failed (invalidConfiguration message))
  | .returns value => { call with stage := .swapping read value }

end UpdateCall

end Updates

section System

inductive WriteOrigin where
  | set
  | update (caller : ℕ) (read : Reading)

structure SharedWrite where
  key : String
  value : SharedValue
  origin : WriteOrigin

/-- The store with the updates called so far; a caller is known by the place of its call. -/
structure Sharing where
  state : SharedState
  updates : List UpdateCall
  /-- Every write that took effect, the oldest first. -/
  writes : List SharedWrite

inductive SharedStep where
  | get (key : String)
  | set (key : String) (value : SharedValue)
  | update (key : String)
  /-- An update goes on; `updater` matters when its function is running. -/
  | resume (caller : ℕ) (updater : Updater)

namespace Sharing

def new : Sharing := ⟨.new, [], []⟩

def setCall (c : Sharing) (caller : ℕ) (call : UpdateCall) : Sharing := { c with updates := c.updates.set caller call }

def write (c : Sharing) (state : SharedState) (entry : SharedWrite) : Sharing :=
  { c with state, writes := c.writes ++ [entry] }

def set (c : Sharing) (key : String) (value : SharedValue) : Sharing :=
  match c.state.set key value with
  | (.ok (), state) => c.write state ⟨key, value, .set⟩
  | (.error _, _) => c

def read (c : Sharing) (key : String) : Reading where
  current := (c.state.readForUpdate key).1
  version := (c.state.readForUpdate key).2
  seen := c.writes.length

def swap (c : Sharing) (caller : ℕ) (call : UpdateCall) (read : Reading) (newValue : SharedValue) : Sharing :=
  match c.state.compareAndSwap call.key read.version newValue with
  | (.ok true, state) =>
    (c.write state ⟨call.key, newValue, .update caller read⟩).setCall caller (call.finish (.updated newValue))
  | (.ok false, _) => c.setCall caller call.again
  | (.error error, _) => c.setCall caller (call.finish (.failed (UpdateCall.invalidConfiguration error.display)))

def resume (c : Sharing) (caller : ℕ) (call : UpdateCall) (updater : Updater) : Sharing :=
  match call.stage with
  | .reading => c.setCall caller { call with stage := .calling (c.read call.key) }
  | .calling read => c.setCall caller (call.called read updater)
  | .swapping read newValue => c.swap caller call read newValue
  | .returned _ => c

def step (c : Sharing) : SharedStep → Sharing
  | .get _ => c
  | .set key value => c.set key value
  | .update key => { c with updates := c.updates ++ [.start key] }
  | .resume caller updater =>
    match c.updates[caller]? with
    | some call => c.resume caller call updater
    | none => c

def run (steps : List SharedStep) : Sharing := steps.foldl step .new

end Sharing

end System

end MineRider.Model.Lua
