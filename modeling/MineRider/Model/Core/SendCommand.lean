import MineRider.Model.Core.Supervisor

/-! # Commands and their callers

`SupervisorHandle::send_command`, called any number of times beside a running supervisor. A call reads
the status, reads the generation and enters the queue at three different moments, and the supervisor
may do anything in between. After that it waits for its answer, or is dropped while it waits.

The queue is taken to be linearizable: a command that is in the queue when the receiver is dropped
loses its one-shot sender, which its caller sees as `SupervisorStopped`.
-/

namespace MineRider.Model.Core

open Minecraft

section Calls

inductive CallStage where
  /-- The status was `Connected`. -/
  | checked
  /-- The generation was read. -/
  | stamped (generation : ℕ)
  | waiting
  | returned (result : Except ControlError Unit)
  /-- The future was dropped while it waited. -/
  | dropped

/-- One call of `send_command`. -/
structure Call where
  command : BotCommand
  stage : CallStage
  /-- The session of the supervisor when the status was read. -/
  observed : ℕ

namespace Call

/-- Validates the command and reads the status. -/
def start (supervisor : Supervisor) (command : BotCommand) : Call where
  command
  stage :=
    match command.validate with
    | .error error => .returned (.error (.invalidAction error))
    | .ok () =>
      match supervisor.status with
      | .connected => .checked
      | .stopped => .returned (.error .supervisorStopped)
      | _ => .returned (.error .notConnected)
  observed := supervisor.generation

/-- An inventory click names the session it is meant for. -/
def targets (generation : ℕ) : BotCommand → Bool
  | .inventoryClick request => request.generation.toNat = generation
  | _ => true

def readGeneration (supervisor : Supervisor) (call : Call) : Call :=
  { call with
    stage := if targets supervisor.published call.command then .stamped supervisor.published
      else .returned (.error .sessionReplaced) }

/-- How `try_send` ends for the caller. -/
def trySend (supervisor : Supervisor) (call : Call) : Call :=
  { call with
    stage := if supervisor.closed then .returned (.error .supervisorStopped)
      else if supervisor.commands.length ≥ commandChannelCapacity then .returned (.error .queueFull)
      else .waiting }

/-- Looks for the answer. -/
def receive (supervisor : Supervisor) (caller : ℕ) (call : Call) : Call :=
  match supervisor.answers.find? (·.1 == caller) with
  | some (_, result) => { call with stage := .returned result }
  | none => call

end Call

end Calls

section System

/-- A supervisor with the calls made so far; a caller is known by the place of its call. -/
structure Supervised where
  supervisor : Supervisor
  calls : List Call
  /-- Every command that has entered the queue. -/
  entered : List QueuedCommand

inductive SupervisedStep where
  | stop
  | poll (poll : Poll)
  /-- Someone calls `send_command`. -/
  | call (command : BotCommand)
  /-- A call goes on to its next access. -/
  | resume (caller : ℕ)
  | drop (caller : ℕ)

namespace Supervised

def new : Supervised := ⟨.new, [], []⟩

def setCall (c : Supervised) (caller : ℕ) (call : Call) : Supervised := { c with calls := c.calls.set caller call }

/-- `try_send`; a command that is turned away never was in the queue. -/
def enqueue (policy : ReconnectPolicy) (c : Supervised) (command : QueuedCommand) (call : Call) : Supervised :=
  let sent := call.trySend c.supervisor
  let entered := match sent.stage with
    | .waiting => [command]
    | _ => []
  { c with
    supervisor := c.supervisor.step policy (.enqueue command),
    entered := c.entered ++ entered }.setCall command.caller sent

def resume (policy : ReconnectPolicy) (c : Supervised) (caller : ℕ) (call : Call) : Supervised :=
  match call.stage with
  | .checked => c.setCall caller (call.readGeneration c.supervisor)
  | .stamped generation => c.enqueue policy ⟨caller, generation⟩ call
  | .waiting => c.setCall caller (call.receive c.supervisor caller)
  | .returned _ | .dropped => c

def drop (c : Supervised) (caller : ℕ) (call : Call) : Supervised :=
  match call.stage with
  | .waiting => c.setCall caller { call with stage := .dropped }
  | _ => c

def step (policy : ReconnectPolicy) (c : Supervised) : SupervisedStep → Supervised
  | .stop => { c with supervisor := c.supervisor.step policy .stop }
  | .poll poll => { c with supervisor := c.supervisor.step policy (.poll poll) }
  | .call command => { c with calls := c.calls ++ [.start c.supervisor command] }
  | .resume caller =>
    match c.calls[caller]? with
    | some call => c.resume policy caller call
    | none => c
  | .drop caller =>
    match c.calls[caller]? with
    | some call => c.drop caller call
    | none => c

def run (policy : ReconnectPolicy) (steps : List SupervisedStep) : Supervised := steps.foldl (step policy) new

end Supervised

end System

end MineRider.Model.Core
