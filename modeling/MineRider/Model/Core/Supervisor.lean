import MineRider.Machine.Broadcast
import MineRider.Model.Core.Error
import MineRider.Model.Minecraft.Control
import MineRider.Model.Minecraft.Event

/-! # The client supervisor

`ClientSupervisor::run` with `handle_failure` and `run_session`, as a state machine. What other tasks
can watch (the status, the published generation, the events, the command queue and the answers to
commands) changes one action at a time: a straight piece of the code is the list of its actions, and
the next poll that decides anything comes when they are done. Each `select!` is biased, so a poll tries
its branches in the order of the source.

What the world decides comes with the poll: results of the connect and session futures, the events the
session emits while it is polled, the clock. The runtime may also make a ready receiver wait for a
later poll. Play-state snapshots are not followed.
-/

namespace MineRider.Model.Core

open Machine Minecraft

section Policy

inductive RetryLimit where
  | unlimited
  | count (limit : UInt32)
deriving DecidableEq, Repr

inductive RetryDecision where
  | retry
  | stop
deriving DecidableEq, Repr

/-- The fields that shape the backoff enter through the delay they give for an attempt. Durations are
in nanoseconds. -/
structure ReconnectPolicy where
  enabled : Bool
  maxRetries : RetryLimit
  backoffDelay : UInt32 → ℕ
  stableSessionReset : ℕ
  onTransient : RetryDecision
  onServerRejected : RetryDecision
  onAuthFailure : RetryDecision
  onProtocolIncompatible : RetryDecision

namespace ReconnectPolicy

def decisionFor (policy : ReconnectPolicy) (failure : RetryClass) : RetryDecision :=
  if !policy.enabled then .stop
  else
    match failure with
    | .transient => policy.onTransient
    | .serverRejected => policy.onServerRejected
    | .authFailure => policy.onAuthFailure
    | .protocolIncompatible => policy.onProtocolIncompatible

def retriesExhausted (policy : ReconnectPolicy) (attempt : UInt32) : Bool :=
  match policy.maxRetries with
  | .unlimited => false
  | .count limit => attempt ≥ limit

end ReconnectPolicy

end Policy

section State

inductive SupervisorStatus where
  | disconnected
  | connecting
  | connected
  | reconnectScheduled (attempt : UInt32)
  | stopped
deriving DecidableEq, Repr

inductive SupervisorOutcome where
  | cancelled
  | retriesExhausted (lastError : MineRiderError)
  | notRetried (reason : MineRiderError)
deriving DecidableEq, Repr

/-- Why a command did not complete. The supervisor itself gives the last four answers only. -/
inductive ControlError where
  | invalidAction (error : ActionValidationError)
  | queueFull
  | notConnected
  | sessionReplaced
  | disconnected
  | supervisorStopped
deriving DecidableEq, Repr

/-- A command, by the caller that waits for its answer. -/
structure QueuedCommand where
  caller : ℕ
  generation : ℕ
deriving DecidableEq, Repr

def commandChannelCapacity : ℕ := 64

def eventChannelCapacity : ℕ := 256

/-- The events that only a supervisor emits. -/
def lifecycle : BotEvent → Bool
  | .connecting | .connected | .disconnected _ | .reconnectScheduled .. | .retryAttemptStarted _
  | .retriesExhausted | .stoppedByCancellation => true
  | _ => false

/-- An event that a session emits. -/
abbrev PlayEvent := { event : BotEvent // lifecycle event = false }

/-- An event on the supervisor's channel, with the session it falls into. -/
structure Emission where
  generation : ℕ
  relayed : Bool
  event : BotEvent
deriving DecidableEq, Repr

/-- Where `run` waits next, or makes up its mind. -/
inductive Phase where
  | top
  | connecting
  | session (events : Receiver PlayEvent)
  | backoff
  | done (outcome : SupervisorOutcome)
deriving DecidableEq

/-- One visible action of a straight piece of code. -/
inductive Action where
  | setStatus (status : SupervisorStatus)
  | publishGeneration
  | emit (event : BotEvent)
  | markConnected
  | rejectQueuedCommands (error : ControlError)
  /-- `run` returns and drops the receiver of the commands. -/
  | dropReceiver
deriving DecidableEq, Repr

structure Supervisor where
  attempt : UInt32
  generation : ℕ
  /-- What `generation_rx` shows. -/
  published : ℕ
  status : SupervisorStatus
  cancelled : Bool
  commands : List QueuedCommand
  closed : Bool
  connectedAt : ℕ
  phase : Phase
  /-- The actions to take before the next decision. -/
  todo : List Action
  answers : List (ℕ × Except ControlError Unit)
  /-- The commands handed to a session, with the session's generation. -/
  forwarded : List (ℕ × ℕ)
  /-- Every event a session has emitted, with the session's generation. -/
  emitted : List (ℕ × BotEvent)
  /-- Everything sent on the supervisor's channel. -/
  out : List Emission

/-- What the world decides about one poll of the supervisor's task. -/
structure Poll where
  now : ℕ
  connect : Option (Except MineRiderError Unit)
  emitted : List PlayEvent
  finished : Option (Except MineRiderError Unit)
  commandReady : Bool
  /-- Whether the session still takes commands. -/
  controlOpen : Bool
  eventReady : Bool
  slept : Bool

inductive SupervisorStep where
  /-- `SupervisorHandle::stop` -/
  | stop
  | enqueue (command : QueuedCommand)
  | poll (poll : Poll)

end State

namespace Supervisor

def new : Supervisor where
  attempt := 0
  generation := 0
  published := 0
  status := .disconnected
  cancelled := false
  commands := []
  closed := false
  connectedAt := 0
  phase := .top
  todo := []
  answers := []
  forwarded := []
  emitted := []
  out := []

section Actions

def emit (s : Supervisor) (event : BotEvent) : Supervisor :=
  { s with out := s.out ++ [⟨s.generation, false, event⟩] }

def answer (s : Supervisor) (command : QueuedCommand) (result : Except ControlError Unit) : Supervisor :=
  { s with answers := s.answers ++ [(command.caller, result)] }

/-- Takes one action. The drain of the queue is an action for each command and one that finds nothing. -/
def perform (now : ℕ) (s : Supervisor) : Action → Supervisor
  | .setStatus status => { s with status }
  | .publishGeneration => { s with published := s.generation }
  | .emit event => s.emit event
  | .markConnected => { s with connectedAt := now }
  | .rejectQueuedCommands error =>
    match s.commands with
    | [] => s
    | command :: rest =>
      { s with commands := rest, todo := .rejectQueuedCommands error :: s.todo }.answer command (.error error)
  | .dropReceiver =>
    { s with
      closed := true, commands := [],
      answers := s.answers ++ s.commands.map fun command => (command.caller, .error .supervisorStopped) }

end Actions

section Decisions

/-- Goes on to a phase, by way of some actions. -/
def enter (s : Supervisor) (phase : Phase) (actions : List Action) : Supervisor :=
  { s with phase, todo := s.todo ++ actions }

/-- The end of `run`. -/
def finish (s : Supervisor) (outcome : SupervisorOutcome) (actions : List Action) : Supervisor :=
  s.enter (.done outcome) (actions ++ [.rejectQueuedCommands .supervisorStopped, .dropReceiver])

def stopByCancellation (s : Supervisor) : Supervisor :=
  s.finish .cancelled [.setStatus .stopped, .emit .stoppedByCancellation]

/-- `handle_failure`, up to its sleep -/
def handleFailure (policy : ReconnectPolicy) (s : Supervisor) (error : MineRiderError) : Supervisor :=
  if policy.decisionFor error.retryClass = .stop then s.finish (.notRetried error) [.setStatus .stopped]
  else if policy.retriesExhausted s.attempt then s.finish (.retriesExhausted error) [.setStatus .stopped]
  else
    let attempt := s.attempt + 1
    { s with attempt }.enter .backoff [.setStatus (.reconnectScheduled attempt),
      .emit (.reconnectScheduled attempt (policy.backoffDelay attempt))]

/-- The command that a poll of the queue yields. -/
def nextCommand (s : Supervisor) (poll : Poll) : Option (QueuedCommand × List QueuedCommand) :=
  match s.commands with
  | command :: rest => if poll.commandReady then some (command, rest) else none
  | [] => none

/-- The head of the loop. -/
def pollTop (s : Supervisor) : Supervisor :=
  if s.cancelled then s.stopByCancellation
  else s.enter .connecting [.rejectQueuedCommands .notConnected, .setStatus .connecting, .emit .connecting]

def pollConnecting (policy : ReconnectPolicy) (s : Supervisor) (poll : Poll) : Supervisor :=
  if s.cancelled then s.stopByCancellation
  else
    match s.nextCommand poll with
    | some (command, rest) => { s with commands := rest }.answer command (.error .notConnected)
    | none =>
      match poll.connect with
      | none => s
      | some (.error error) => s.handleFailure policy error
      | some (.ok ()) =>
        { s with generation := s.generation + 1 }.enter (.session .new)
          [.publishGeneration, .setStatus .connected, .emit .connected, .markConnected]

/-- A session that returns without an error counts as closed. -/
def sessionError : Except MineRiderError Unit → MineRiderError
  | .error error => error
  | .ok () => .connectionClosed

/-- The attempts that count after a session, which are forgotten if it was stable. -/
def attemptAfterSession (policy : ReconnectPolicy) (s : Supervisor) (now : ℕ) : UInt32 :=
  if now - s.connectedAt ≥ policy.stableSessionReset then 0 else s.attempt

def endSession (policy : ReconnectPolicy) (s : Supervisor) (now : ℕ) (error : MineRiderError) : Supervisor :=
  { s with
    attempt := s.attemptAfterSession policy now,
    todo := s.todo ++ [Action.setStatus .disconnected, Action.emit (.disconnected error.display),
      Action.rejectQueuedCommands .sessionReplaced] }.handleFailure policy error

def forward (s : Supervisor) (poll : Poll) (command : QueuedCommand) : Supervisor :=
  if command.generation ≠ s.generation then s.answer command (.error .sessionReplaced)
  else if poll.controlOpen then
    { s with forwarded := s.forwarded ++ [(command.caller, s.generation)] }.answer command (.ok ())
  else s.answer command (.error .disconnected)

/-- The session future runs for a while and emits events. -/
def progress (s : Supervisor) (events : Receiver PlayEvent) (emitted : List PlayEvent) : Supervisor :=
  { s with
    phase := .session (events.sendAll eventChannelCapacity emitted),
    emitted := s.emitted ++ emitted.map fun event => (s.generation, event.val) }

/-- `recv` on the session's channel; what it yields goes out at once. -/
def relay (s : Supervisor) (events : Receiver PlayEvent) : Supervisor :=
  { s with
    phase := .session events.recv.2,
    out := s.out ++ events.recv.1.toList.map fun event => ⟨s.generation, true, event.val⟩ }

/-- One round of the loop of `run_session`. -/
def pollSession (policy : ReconnectPolicy) (s : Supervisor) (events : Receiver PlayEvent) (poll : Poll) : Supervisor :=
  if s.cancelled then s.stopByCancellation
  else
    let s := s.progress events poll.emitted
    match poll.finished with
    | some result => s.endSession policy poll.now (sessionError result)
    | none =>
      match s.nextCommand poll with
      | some (command, rest) => { s with commands := rest }.forward poll command
      | none => if poll.eventReady then s.relay (events.sendAll eventChannelCapacity poll.emitted) else s

/-- The sleep of `handle_failure`, and what follows it. -/
def pollBackoff (s : Supervisor) (poll : Poll) : Supervisor :=
  if s.cancelled then s.stopByCancellation
  else
    match s.nextCommand poll with
    | some (command, rest) => { s with commands := rest }.answer command (.error .notConnected)
    | none => if poll.slept then s.enter .top [.emit (.retryAttemptStarted s.attempt)] else s

/-- What the next poll does once the actions are done. -/
def resume (policy : ReconnectPolicy) (s : Supervisor) (poll : Poll) : Supervisor :=
  match s.phase with
  | .top => s.pollTop
  | .connecting => s.pollConnecting policy poll
  | .session events => s.pollSession policy events poll
  | .backoff => s.pollBackoff poll
  | .done _ => s

end Decisions

def step (policy : ReconnectPolicy) (s : Supervisor) : SupervisorStep → Supervisor
  | .stop => { s with cancelled := true }
  | .enqueue command =>
    if s.closed ∨ s.commands.length ≥ commandChannelCapacity then s
    else { s with commands := s.commands ++ [command] }
  | .poll poll =>
    match s.todo with
    | action :: rest => { s with todo := rest }.perform poll.now action
    | [] => s.resume policy poll

def run (policy : ReconnectPolicy) (steps : List SupervisorStep) : Supervisor := steps.foldl (step policy) new

end Supervisor

end MineRider.Model.Core
