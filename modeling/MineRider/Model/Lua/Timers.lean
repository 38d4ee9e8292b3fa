import MineRider.Model.Lua.Worker

/-! # The timers of a worker, step by step

`timers.rs` as its callbacks interleave with it. A pass of `fire_due` collects the ids that are due
and then visits them one after the other, and the callback of each may schedule and clear timers. So
may any other Lua code of the worker at any other moment. Every step that reads the clock carries the
time it reads, and the clock never goes back. The log records what the steps did.
-/

namespace MineRider.Model.Lua

inductive TimerRecord where
  /-- with the delay and the interval as they were asked for -/
  | scheduled (id : UInt64) (time delay : ℕ) (interval : Option ℕ)
  /-- a clear that found its timer -/
  | cleared (id : UInt64)
  /-- with the interval that `fire_one` read -/
  | fired (id : UInt64) (time : ℕ) (interval : Option ℕ)
deriving DecidableEq, Repr

structure Timers where
  registry : TimerRegistry
  /-- The last time that was read. -/
  clock : ℕ
  /-- What the pass under way has collected and not visited yet. -/
  due : List UInt64
  /-- The timer whose callback is running, with its interval. -/
  running : Option (UInt64 × Option ℕ)
  log : List TimerRecord

inductive TimerStep where
  | schedule (now delay : ℕ) (interval : Option ℕ) (func : LuaFn) (botId : Option UInt32)
  | clear (id : UInt64)
  /-- `fire_due` collects; `order` is the order in which it walks the map. -/
  | collect (now : ℕ) (order : List UInt64)
  /-- `fire_one` up to the call, for the next id of the pass, while the bots in `disabled` are disabled. -/
  | fire (now : ℕ) (disabled : List UInt32)
  /-- `fire_one` after the call. -/
  | finish (now : ℕ)

namespace Timers

def start : Timers where
  registry := ⟨∅, 0⟩
  clock := 0
  due := []
  running := none
  log := []

def schedule (timers : Timers) (now delay : ℕ) (interval : Option ℕ) (func : LuaFn) (botId : Option UInt32) :
    Timers :=
  if timers.registry.entries.keys.length ≥ maxTimersPerWorker then { timers with clock := now }
  else
    let id := timers.registry.nextId + 1
    let entry : TimerEntry :=
      ⟨func, interval.map fun i => max i minTimerInterval, now + max delay minTimerInterval, botId⟩
    { timers with
      registry := ⟨timers.registry.entries.insert id entry, id⟩
      clock := now
      log := timers.log ++ [.scheduled id now delay interval] }

def clear (timers : Timers) (id : UInt64) : Timers :=
  match timers.registry.entries.lookup id with
  | none => timers
  | some _ =>
    { timers with
      registry := { timers.registry with entries := timers.registry.entries.erase id }
      log := timers.log ++ [.cleared id] }

/-- Whether a timer is due at the time `now`. -/
def isDue (registry : TimerRegistry) (now : ℕ) (id : UInt64) : Bool :=
  (registry.entries.lookup id).elim false fun entry => entry.nextFire ≤ now

def collect (timers : Timers) (now : ℕ) (order : List UInt64) : Timers :=
  { timers with clock := now, due := order.filter (isDue timers.registry now) }

/-- Whether the timer belongs to one of the disabled bots. -/
def skips (disabled : List UInt32) (entry : TimerEntry) : Bool :=
  entry.botId.elim false fun botId => disabled.contains botId

def fire (timers : Timers) (now : ℕ) (disabled : List UInt32) (id : UInt64) (rest : List UInt64) : Timers :=
  match timers.registry.entries.lookup id with
  | none => { timers with clock := now, due := rest }
  | some entry =>
    if skips disabled entry then { timers with clock := now, due := rest }
    else
      { timers with
        clock := now
        due := rest
        running := some (id, entry.interval)
        log := timers.log ++ [.fired id now entry.interval] }

/-- The registry after a timer has fired: the timer leaves, or waits for its next time if the callback
did not clear it. -/
def rearmed (registry : TimerRegistry) (now : ℕ) (id : UInt64) : Option ℕ → TimerRegistry
  | none => { registry with entries := registry.entries.erase id }
  | some interval =>
    match registry.entries.lookup id with
    | none => registry
    | some entry => { registry with entries := registry.entries.insert id { entry with nextFire := now + interval } }

def finish (timers : Timers) (now : ℕ) (id : UInt64) (interval : Option ℕ) : Timers :=
  { timers with registry := rearmed timers.registry now id interval, clock := now, running := none }

/-- A step at a time before the last one, or out of turn, is not possible. -/
def step (timers : Timers) : TimerStep → Option Timers
  | .schedule now delay interval func botId =>
    if timers.clock ≤ now then some (timers.schedule now delay interval func botId) else none
  | .clear id => some (timers.clear id)
  | .collect now order =>
    if timers.clock ≤ now ∧ timers.due = [] ∧ timers.running = none ∧ order.Perm timers.registry.entries.keys then
      some (timers.collect now order)
    else none
  | .fire now disabled =>
    match timers.running, timers.due with
    | none, id :: rest => if timers.clock ≤ now then some (timers.fire now disabled id rest) else none
    | _, _ => none
  | .finish now =>
    match timers.running with
    | some (id, interval) => if timers.clock ≤ now then some (timers.finish now id interval) else none
    | none => none

def run (timers : Timers) : List TimerStep → Option Timers
  | [] => some timers
  | step :: rest => (timers.step step).bind fun timers => timers.run rest

end Timers

end MineRider.Model.Lua
