import MineRider.Model.Core.Supervisor
import MineRider.ToMathlib.Concat

/-! # What a supervisor's observer can see

`resume_cases` says once what a poll can decide, and what is proved about single steps goes through it.

The view of a supervisor keeps what its events depend on. Actions that are still to be taken are
counted as taken, so that a straight piece of code is one move and the actions themselves move
nothing. The properties of events are proved from the moves of the view.
-/

namespace MineRider.Soundness.SupervisorMoves

open Model.Core Model.Minecraft Machine

structure View where
  phase : Phase
  attempt : UInt32
  generation : ℕ
  emitted : List (ℕ × BotEvent)
  /-- Everything sent on the supervisor's channel, and what is about to be. -/
  trace : List Emission

namespace View

def goto (v : View) (phase : Phase) : View := { v with phase }

/-- Sends an event of the supervisor's own. -/
def say (v : View) (event : BotEvent) : View := { v with trace := v.trace ++ [⟨v.generation, false, event⟩] }

def handleFailure (policy : ReconnectPolicy) (v : View) (error : MineRiderError) : View :=
  if policy.decisionFor error.retryClass = .stop then v.goto (.done (.notRetried error))
  else if policy.retriesExhausted v.attempt then v.goto (.done (.retriesExhausted error))
  else
    ({ v with attempt := v.attempt + 1 }.goto .backoff).say
      (.reconnectScheduled (v.attempt + 1) (policy.backoffDelay (v.attempt + 1)))

def progress (v : View) (events : Receiver PlayEvent) (emitted : List PlayEvent) : View :=
  { v with
    phase := .session (events.sendAll eventChannelCapacity emitted),
    emitted := v.emitted ++ emitted.map fun event => (v.generation, event.val) }

def relay (v : View) (events : Receiver PlayEvent) : View :=
  { v with
    phase := .session events.recv.2,
    trace := v.trace ++ events.recv.1.toList.map fun event => ⟨v.generation, true, event.val⟩ }

end View

/-- The events among some actions. -/
def eventsOf (actions : List Action) : List BotEvent :=
  actions.filterMap fun action =>
    match action with
    | .emit event => some event
    | _ => none

def view (s : Supervisor) : View where
  phase := s.phase
  attempt := s.attempt
  generation := s.generation
  emitted := s.emitted
  trace := s.out ++ (eventsOf s.todo).map fun event => ⟨s.generation, false, event⟩

def poll? : SupervisorStep → Option Poll
  | .poll poll => some poll
  | _ => none

/-- A poll at which nothing has happened, but every receiver may go on. -/
def idlePoll : Poll where
  now := 0
  connect := none
  emitted := []
  finished := none
  commandReady := true
  controlOpen := true
  eventReady := true
  slept := false

/-- The poll gets as far as the futures. -/
def Polled (s : Supervisor) : Prop := s.todo = [] ∧ s.cancelled = false

instance (s : Supervisor) : Decidable (Polled s) := inferInstanceAs (Decidable (_ ∧ _))

/-- The failure that a poll hands to `handle_failure`, with the attempts that count then. -/
def failure (policy : ReconnectPolicy) (s : Supervisor) (poll : Poll) : Option (MineRiderError × UInt32) :=
  match s.phase with
  | .connecting =>
    match s.nextCommand poll, poll.connect with
    | none, some (.error error) => some (error, s.attempt)
    | _, _ => none
  | .session _ =>
    poll.finished.map fun result => (Supervisor.sessionError result, s.attemptAfterSession policy poll.now)
  | _ => none

section Decisions

/-- What a poll can decide, once all actions are done. -/
inductive Resumes (policy : ReconnectPolicy) (s : Supervisor) (poll : Poll) : Supervisor → Prop
  | stay : Resumes policy s poll s
  | cancel (running : ∀ outcome, s.phase ≠ .done outcome) : Resumes policy s poll s.stopByCancellation
  | start (top : s.phase = .top) :
      Resumes policy s poll
        (s.enter .connecting [.rejectQueuedCommands .notConnected, .setStatus .connecting, .emit .connecting])
  | turnAway {command : QueuedCommand} {rest : List QueuedCommand}
      (outside : s.phase = .connecting ∨ s.phase = .backoff) (next : s.commands = command :: rest) :
      Resumes policy s poll ({ s with commands := rest }.answer command (.error .notConnected))
  | connect (connecting : s.phase = .connecting) :
      Resumes policy s poll ({ s with generation := s.generation + 1 }.enter (.session .new)
        [.publishGeneration, .setStatus .connected, .emit .connected, .markConnected])
  | refuse {error : MineRiderError} (connecting : s.phase = .connecting) (polled : Polled s)
      (fails : failure policy s poll = some (error, s.attempt)) : Resumes policy s poll (s.handleFailure policy error)
  | progress {events : Receiver PlayEvent} (session : s.phase = .session events) (polled : Polled s) :
      Resumes policy s poll (s.progress events poll.emitted)
  | forward {events : Receiver PlayEvent} {command : QueuedCommand} {rest : List QueuedCommand}
      (session : s.phase = .session events) (polled : Polled s) (next : s.commands = command :: rest) :
      Resumes policy s poll ({ s.progress events poll.emitted with commands := rest }.forward poll command)
  | relay {events : Receiver PlayEvent} (session : s.phase = .session events) (polled : Polled s) :
      Resumes policy s poll
        ((s.progress events poll.emitted).relay (events.sendAll eventChannelCapacity poll.emitted))
  | finish {events : Receiver PlayEvent} {result : Except MineRiderError Unit} (session : s.phase = .session events)
      (polled : Polled s) (finished : poll.finished = some result) :
      Resumes policy s poll
        ((s.progress events poll.emitted).endSession policy poll.now (Supervisor.sessionError result))
  | retry (waiting : s.phase = .backoff) :
      Resumes policy s poll (s.enter .top [.emit (.retryAttemptStarted s.attempt)])

variable {policy : ReconnectPolicy} {s : Supervisor} {poll : Poll}

theorem nextCommand_eq_some {command : QueuedCommand} {rest : List QueuedCommand}
    (ready : s.nextCommand poll = some (command, rest)) : s.commands = command :: rest := by
  rw [Supervisor.nextCommand] at ready
  split at ready
  · rename_i first later waiting
    split_ifs at ready
    cases ready
    exact waiting
  · cases ready

theorem pollConnecting_cases (connecting : s.phase = .connecting) (idle : s.todo = []) :
    Resumes policy s poll (s.pollConnecting policy poll) := by
  rw [Supervisor.pollConnecting]
  by_cases cancelled : s.cancelled
  · rw [if_pos cancelled]
    exact .cancel (by simp [connecting])
  · rw [if_neg cancelled]
    split
    · exact .turnAway (Or.inl connecting) (nextCommand_eq_some ‹_›)
    · rename_i waits
      split
      · exact .stay
      · rename_i refused
        exact .refuse connecting ⟨idle, by simpa using cancelled⟩ (by simp [failure, connecting, waits, refused])
      · exact .connect connecting

theorem pollSession_cases {events : Receiver PlayEvent} (session : s.phase = .session events) (idle : s.todo = []) :
    Resumes policy s poll (s.pollSession policy events poll) := by
  rw [Supervisor.pollSession]
  by_cases cancelled : s.cancelled
  · rw [if_pos cancelled]
    exact .cancel (by simp [session])
  · rw [if_neg cancelled]
    have polled : Polled s := ⟨idle, by simpa using cancelled⟩
    dsimp only
    split
    · exact .finish session polled ‹_›
    · split
      · rename_i ready
        have next := nextCommand_eq_some ready
        exact .forward session polled next
      · split_ifs
        · exact .relay session polled
        · exact .progress session polled

theorem pollBackoff_cases (waiting : s.phase = .backoff) : Resumes policy s poll (s.pollBackoff poll) := by
  rw [Supervisor.pollBackoff]
  by_cases cancelled : s.cancelled
  · rw [if_pos cancelled]
    exact .cancel (by simp [waiting])
  · rw [if_neg cancelled]
    split
    · exact .turnAway (Or.inr waiting) (nextCommand_eq_some ‹_›)
    · split_ifs
      · exact .retry waiting
      · exact .stay

/-- Every decision is one of these. -/
theorem resume_cases (policy : ReconnectPolicy) (poll : Poll) (idle : s.todo = []) :
    Resumes policy s poll (s.resume policy poll) := by
  rw [Supervisor.resume]
  split
  · rename_i top
    rw [Supervisor.pollTop]
    split_ifs
    · exact .cancel (by simp [top])
    · exact .start top
  · exact pollConnecting_cases ‹_› idle
  · exact pollSession_cases ‹_› idle
  · exact pollBackoff_cases ‹_›
  · exact .stay

/-- A poll takes the next action, or decides something. -/
theorem poll_cases (post : Supervisor → Prop)
    (performs : ∀ action rest, s.todo = action :: rest → post ({ s with todo := rest }.perform poll.now action))
    (resumes : ∀ next, s.todo = [] → Resumes policy s poll next → post next) : post (s.step policy (.poll poll)) := by
  rw [Supervisor.step]
  split
  · exact performs _ _ ‹_›
  · exact resumes _ ‹_› (resume_cases policy poll ‹_›)

end Decisions

/-- What one poll can do to the view. -/
inductive Moves (policy : ReconnectPolicy) (s : Supervisor) (poll : Poll) : View → Prop
  | stay : Moves policy s poll (view s)
  | cancel (running : ∀ outcome, s.phase ≠ .done outcome) :
      Moves policy s poll (((view s).goto (.done .cancelled)).say .stoppedByCancellation)
  | start (top : s.phase = .top) : Moves policy s poll (((view s).goto .connecting).say .connecting)
  | connect (connecting : s.phase = .connecting) :
      Moves policy s poll (({ view s with generation := s.generation + 1 }.goto (.session .new)).say .connected)
  | refuse {error : MineRiderError} (connecting : s.phase = .connecting) (polled : Polled s)
      (fails : failure policy s poll = some (error, s.attempt)) :
      Moves policy s poll ((view s).handleFailure policy error)
  | progress {events : Receiver PlayEvent} (session : s.phase = .session events) (polled : Polled s) :
      Moves policy s poll ((view s).progress events poll.emitted)
  | relay {events : Receiver PlayEvent} (session : s.phase = .session events) (polled : Polled s) :
      Moves policy s poll
        (((view s).progress events poll.emitted).relay (events.sendAll eventChannelCapacity poll.emitted))
  | finish {events : Receiver PlayEvent} {error : MineRiderError} {attempt : UInt32}
      (session : s.phase = .session events) (polled : Polled s) (finished : poll.finished.isSome)
      (fails : failure policy s poll = some (error, attempt)) :
      Moves policy s poll (({ (view s).progress events poll.emitted with attempt }.say
        (.disconnected error.display)).handleFailure policy error)
  | retry (waiting : s.phase = .backoff) :
      Moves policy s poll (((view s).goto .top).say (.retryAttemptStarted s.attempt))

variable {policy : ReconnectPolicy} {s : Supervisor} {poll : Poll}

theorem eventsOf_append (first second : List Action) : eventsOf (first ++ second) = eventsOf first ++ eventsOf second :=
  List.filterMap_append

private theorem view_enter_silent {s : Supervisor} {phase : Phase} {actions : List Action}
    (silent : eventsOf actions = []) :
    view (s.enter phase actions) = (view s).goto phase := by
  simp [view, View.goto, Supervisor.enter, eventsOf_append, silent]

private theorem view_enter_event {s : Supervisor} {phase : Phase} {actions : List Action} {event : BotEvent}
    (sent : eventsOf actions = [event]) : view (s.enter phase actions) = ((view s).goto phase).say event := by
  simp [view, View.goto, View.say, Supervisor.enter, eventsOf_append, sent]

theorem view_handleFailure (s : Supervisor) (error : MineRiderError) :
    view (s.handleFailure policy error) = (view s).handleFailure policy error := by
  rw [Supervisor.handleFailure, View.handleFailure]
  split_ifs
  · exact view_enter_silent rfl
  · exact view_enter_silent rfl
  · contradiction
  · contradiction
  · exact view_enter_event rfl

/-- The actions are counted when they are decided on. -/
theorem view_perform {action : Action} {rest : List Action} (next : s.todo = action :: rest) (now : ℕ) :
    view ({ s with todo := rest }.perform now action) = view s := by
  cases action with
  | emit event => simp [view, next, Supervisor.perform, Supervisor.emit, eventsOf]
  | rejectQueuedCommands error =>
    rw [Supervisor.perform]
    split
    · simp [view, next, eventsOf]
    · simp [view, next, eventsOf, Supervisor.answer]
  | _ => simp [view, next, Supervisor.perform, eventsOf]

private theorem view_forward (s : Supervisor) (command : QueuedCommand) : view (s.forward poll command) = view s := by
  rw [Supervisor.forward]
  split_ifs
  · rfl
  · rfl
  · rfl

private theorem view_progress (s : Supervisor) (events : Receiver PlayEvent) (emitted : List PlayEvent) :
    view (s.progress events emitted) = (view s).progress events emitted := rfl

private theorem view_relay (s : Supervisor) (events : Receiver PlayEvent) (idle : s.todo = []) :
    view (s.relay events) = (view s).relay events := by
  simp [view, idle, Supervisor.relay, View.relay, eventsOf]

theorem view_endSession (s : Supervisor) (error : MineRiderError) : view (s.endSession policy poll.now error) =
    ({ view s with attempt := s.attemptAfterSession policy poll.now }.say (.disconnected error.display)).handleFailure
      policy error := by
  rw [Supervisor.endSession, view_handleFailure]
  simp [view, View.say, eventsOf]

/-- Every poll is one of the moves. -/
theorem step_moves (policy : ReconnectPolicy) (s : Supervisor) (poll : Poll) :
    Moves policy s poll (view (s.step policy (.poll poll))) := by
  apply poll_cases fun next => Moves policy s poll (view next)
  · intro action rest next
    rw [view_perform next]
    exact .stay
  · intro next idle resumes
    cases resumes with
    | stay | turnAway _ _ => exact .stay
    | cancel running =>
      rw [Supervisor.stopByCancellation, Supervisor.finish, view_enter_event rfl]
      exact .cancel running
    | start top =>
      rw [view_enter_event rfl]
      exact .start top
    | connect connecting =>
      have bumped : view { s with generation := s.generation + 1 } =
          { view s with generation := s.generation + 1 } := by
        simp [view, idle, eventsOf]
      rw [view_enter_event rfl, bumped]
      exact .connect connecting
    | refuse connecting polled fails =>
      rw [view_handleFailure]
      exact .refuse connecting polled fails
    | progress session polled => exact .progress session polled
    | forward session polled _ =>
      rw [view_forward]
      exact .progress session polled
    | @relay events session polled =>
      rw [view_relay (s.progress events poll.emitted) _ idle]
      exact .relay session polled
    | finish session polled finished =>
      rw [view_endSession, view_progress]
      exact .finish session polled (by simp [finished]) (by simp [failure, session, finished]; rfl)
    | retry waiting =>
      rw [view_enter_event rfl]
      exact .retry waiting

/-- What every move keeps, every step keeps. -/
theorem step_keeps {inv : View → Prop} {step : SupervisorStep} (holds : inv (view s))
    (moves : ∀ poll v, step = .poll poll → Moves policy s poll v → inv v) : inv (view (s.step policy step)) := by
  cases step with
  | stop => exact holds
  | enqueue command =>
    rw [Supervisor.step]
    split_ifs
    · exact holds
    · exact holds
  | poll poll => exact moves poll _ rfl (step_moves policy s poll)

/-- `run` has returned. -/
def Returned (s : Supervisor) (outcome : SupervisorOutcome) : Prop := s.phase = .done outcome ∧ s.todo = []

/-- Retries transient failures without end, a second after each. -/
def retrying : ReconnectPolicy where
  enabled := true
  maxRetries := .unlimited
  backoffDelay _ := 1000000000
  stableSessionReset := 60000000000
  onTransient := .retry
  onServerRejected := .stop
  onAuthFailure := .stop
  onProtocolIncompatible := .stop

end MineRider.Soundness.SupervisorMoves
