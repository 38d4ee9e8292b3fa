import MineRider.Machine.Monitor
import MineRider.Machine.Run
import MineRider.Soundness.SupervisorMoves

/-! # Traces of a supervisor's lifecycle events

`Stage.next` is the protocol that the lifecycle events follow, as a monitor over everything sent on the
supervisor's channel. The supervisor never sends an event that the monitor refuses, and the monitor's
stage tells where `run` stands. What must follow what is read off the monitor.

`run` returns silently when the retries are used up, although there is an event for that.
-/

namespace MineRider.Soundness.Lifecycle

open List Model.Core Model.Minecraft Machine SupervisorMoves Monitor

section Protocol

/-- What the events so far say. -/
inductive Stage where
  /-- No attempt is under way. -/
  | ready
  | connecting
  | connected
  /-- The session is over. -/
  | closed
  | scheduled (attempt : UInt32)
  | stopped
deriving DecidableEq, Repr

def Stage.next : Stage → BotEvent → Option Stage
  | .stopped, _ => none
  | _, .stoppedByCancellation => some .stopped
  | .ready, .connecting => some .connecting
  | .connecting, .connected => some .connected
  | .connected, .disconnected _ => some .closed
  | .connecting, .reconnectScheduled attempt _ | .closed, .reconnectScheduled attempt _ => some (.scheduled attempt)
  | .scheduled attempt, .retryAttemptStarted started => if started = attempt then some .ready else none
  | .connected, event => if lifecycle event then none else some .connected
  | _, _ => none

/-- The events that end a session. -/
def Ends (event : BotEvent) : Prop := event = .stoppedByCancellation ∨ ∃ reason, event = .disconnected reason

variable {stage final : Stage} {events : List BotEvent}

private theorem next_stopped (running : stage ≠ .stopped) : stage.next .stoppedByCancellation = some .stopped := by
  cases stage with
  | stopped => contradiction
  | _ => rfl

variable {event : BotEvent}

private theorem next_play (play : lifecycle event = false) :
    Stage.next .connected event = some .connected := by
  cases event with
  | connecting | connected | disconnected | reconnectScheduled | retryAttemptStarted | retriesExhausted
  | stoppedByCancellation => cases play
  | _ => rfl

/-- Only a cancellation stops the monitor. -/
theorem next_eq_stopped (moves : stage.next event = some .stopped) :
    event = .stoppedByCancellation := by
  by_contra other
  cases stage with
  | scheduled attempt =>
    cases event with
    | stoppedByCancellation => contradiction
    | retryAttemptStarted started =>
      rw [Stage.next] at moves
      split_ifs at moves
      cases moves
    | _ => cases moves
  | _ =>
    cases event with
    | stoppedByCancellation => contradiction
    | _ => cases moves

variable {attempt : UInt32}

private theorem next_scheduled_inv (moves : Stage.next (.scheduled attempt) event = some final) :
    event = .retryAttemptStarted attempt ∨ event = .stoppedByCancellation ∧ final = .stopped := by
  cases event with
  | stoppedByCancellation => exact Or.inr ⟨rfl, (Option.some.inj moves).symm⟩
  | retryAttemptStarted started =>
    by_cases same : started = attempt
    · exact Or.inl (same ▸ rfl)
    · simp [Stage.next, same] at moves
  | _ => cases moves

private theorem next_connected_inv (moves : Stage.next .connected event = some final)
    (goesOn : ¬Ends event) : event ≠ .connecting ∧ final = .connected := by
  cases event with
  | stoppedByCancellation => exact absurd (Or.inl rfl) goesOn
  | disconnected reason => exact absurd (Or.inr ⟨reason, rfl⟩) goesOn
  | connecting | connected | reconnectScheduled | retryAttemptStarted | retriesExhausted => cases moves
  | _ => exact ⟨BotEvent.noConfusion, (Option.some.inj moves).symm⟩

private theorem next_reconnectScheduled {delay : ℕ}
    (moves : stage.next (.reconnectScheduled attempt delay) = some final) : final = .scheduled attempt := by
  cases stage with
  | connecting | closed => exact (Option.some.inj moves).symm
  | _ => cases moves

private theorem next_connected (same : event = .connected) (moves : stage.next event = some final) :
    final = .connected := by
  subst same
  cases stage with
  | connecting => exact (Option.some.inj moves).symm
  | _ => cases moves

/-- Nothing follows a cancellation. -/
theorem run_stopped (accepted : run Stage.next .stopped events = some final) : events = [] := by
  cases events with
  | nil => rfl
  | cons event rest => cases accepted

/-- A trace that ends stopped ends with its only cancellation. -/
theorem stopped_last (running : stage ≠ .stopped) (accepted : run Stage.next stage events = some .stopped) :
    ∃ before, events = before ++ [.stoppedByCancellation] ∧ .stoppedByCancellation ∉ before := by
  induction events generalizing stage with
  | nil => exact absurd (Option.some.inj accepted) running
  | cons event rest ih =>
    obtain ⟨middle, moves, accepted⟩ := run_cons accepted
    by_cases stopped : event = .stoppedByCancellation
    · rw [stopped, next_stopped running] at moves
      cases moves
      rw [stopped, run_stopped accepted]
      exact ⟨[], rfl, not_mem_nil⟩
    · have still : middle ≠ .stopped := by
        rintro rfl
        exact stopped (next_eq_stopped moves)
      obtain ⟨before, rfl, absent⟩ := ih still accepted
      exact ⟨event :: before, rfl, by simp [Ne.symm stopped, absent]⟩

private theorem after_reconnectScheduled {delay : ℕ}
    (accepted : run Stage.next stage (.reconnectScheduled attempt delay :: events) = some final) :
    (∃ rest, events = .retryAttemptStarted attempt :: rest) ∨ events = [.stoppedByCancellation] ∨
      events = [] ∧ final = .scheduled attempt := by
  obtain ⟨middle, moves, accepted⟩ := run_cons accepted
  rw [next_reconnectScheduled moves] at accepted
  cases events with
  | nil => exact Or.inr (Or.inr ⟨rfl, (Option.some.inj accepted).symm⟩)
  | cons event rest =>
    obtain ⟨last, moves, accepted⟩ := run_cons accepted
    rcases next_scheduled_inv moves with rfl | ⟨rfl, rfl⟩
    · exact Or.inl ⟨rest, rfl⟩
    · rw [run_stopped accepted]
      exact Or.inr (Or.inl rfl)

/-- Within a session nothing but its end changes the stage, and no attempt starts. -/
theorem session_goes_on (accepted : run Stage.next .connected events = some final)
    (goesOn : ∀ event ∈ events, ¬Ends event) : .connecting ∉ events ∧ final = .connected := by
  induction events with
  | nil => exact ⟨not_mem_nil, (Option.some.inj accepted).symm⟩
  | cons event rest ih =>
    obtain ⟨middle, moves, accepted⟩ := run_cons accepted
    obtain ⟨other, rfl⟩ := next_connected_inv moves (goesOn event mem_cons_self)
    obtain ⟨absent, same⟩ := ih accepted fun event member => goesOn event (mem_cons_of_mem _ member)
    exact ⟨by simp [Ne.symm other, absent], same⟩

end Protocol

section Follows

/-- The stage that a phase of `run` shows. -/
def Agrees (v : View) (stage : Stage) : Prop :=
  match v.phase with
  | .top => stage = .ready
  | .connecting => stage = .connecting
  | .session _ => stage = .connected
  | .backoff => stage = .scheduled v.attempt
  | .done .cancelled => stage = .stopped
  | .done _ => stage = .connecting ∨ stage = .closed

/-- The monitor accepts the trace and agrees with the phase. -/
def Follows (v : View) : Prop :=
  ∃ stage, run Stage.next .ready (v.trace.map Emission.event) = some stage ∧ Agrees v stage

variable {policy : ReconnectPolicy} {s : Supervisor} {v : View} {poll : Poll}

/-- An event that the monitor expects. -/
theorem run_say {stage next : Stage} {event : BotEvent}
    (accepted : run Stage.next .ready (v.trace.map Emission.event) = some stage)
    (moves : stage.next event = some next) :
    run Stage.next .ready ((v.say event).trace.map Emission.event) = some next := by
  rw [View.say, map_append]
  exact run_snoc accepted moves

private theorem handleFailure_follows {stage : Stage} (error : MineRiderError)
    (accepted : run Stage.next .ready (v.trace.map Emission.event) = some stage)
    (ended : stage = .connecting ∨ stage = .closed) : Follows (v.handleFailure policy error) := by
  rw [View.handleFailure]
  split_ifs
  · exact ⟨stage, accepted, ended⟩
  · exact ⟨stage, accepted, ended⟩
  · refine ⟨.scheduled (v.attempt + 1), ?_, rfl⟩
    apply run_say accepted
    rcases ended with rfl | rfl
    · rfl
    · rfl

private theorem relay_follows {events : Receiver PlayEvent}
    (accepted : run Stage.next .ready (v.trace.map Emission.event) = some .connected) :
    Follows (v.relay events) := by
  refine ⟨.connected, ?_, rfl⟩
  rw [View.relay]
  cases events.recv.1 with
  | none => simpa using accepted
  | some event =>
    rw [map_append]
    exact run_snoc accepted (next_play event.property)

private theorem agrees_stopped (running : ∀ outcome, v.phase ≠ .done outcome) : ¬Agrees v .stopped := by
  intro agrees
  rw [Agrees] at agrees
  split at agrees
  · cases agrees
  · cases agrees
  · cases agrees
  · cases agrees
  · exact running _ ‹_›
  · exact running _ ‹_›

/-- The supervisor keeps to the protocol. -/
theorem moves_follow (follows : Follows (view s)) (moves : Moves policy s poll v) : Follows v := by
  obtain ⟨stage, accepted, agrees⟩ := follows
  cases moves with
  | stay => exact ⟨stage, accepted, agrees⟩
  | cancel running =>
    refine ⟨.stopped, run_say accepted (next_stopped ?_), rfl⟩
    rintro rfl
    exact agrees_stopped running agrees
  | start top =>
    simp only [Agrees, view, top] at agrees
    subst agrees
    exact ⟨.connecting, run_say accepted rfl, rfl⟩
  | connect connecting =>
    simp only [Agrees, view, connecting] at agrees
    subst agrees
    refine ⟨.connected, ?_, rfl⟩
    exact run_say (v := { view s with generation := s.generation + 1 }) accepted rfl
  | refuse connecting _ _ =>
    simp only [Agrees, view, connecting] at agrees
    exact handleFailure_follows _ accepted (Or.inl agrees)
  | progress session _ =>
    simp only [Agrees, view, session] at agrees
    exact ⟨stage, accepted, agrees⟩
  | relay session _ =>
    simp only [Agrees, view, session] at agrees
    subst agrees
    exact relay_follows accepted
  | finish session _ _ _ =>
    simp only [Agrees, view, session] at agrees
    subst agrees
    exact handleFailure_follows _ (run_say accepted rfl) (Or.inr rfl)
  | retry waiting =>
    simp only [Agrees, view, waiting] at agrees
    subst agrees
    exact ⟨.ready, run_say accepted (if_pos rfl), rfl⟩

end Follows

section Announced

/-- The events on the supervisor's channel. -/
def sent (s : Supervisor) : List BotEvent := s.out.map Emission.event

/-- What the events of a run announce. -/
structure Announced (s : Supervisor) : Prop where
  exhausted : ∀ error, Returned s (.retriesExhausted error) → (sent s).count .retriesExhausted = 1
  cancelled : Returned s .cancelled →
    (sent s).count .stoppedByCancellation = 1 ∧ (sent s).getLast? = some .stoppedByCancellation
  scheduled : ∀ before attempt delay after, sent s = before ++ .reconnectScheduled attempt delay :: after →
    (∃ rest, after = .retryAttemptStarted attempt :: rest) ∨ after = [.stoppedByCancellation] ∨
      after = [] ∧ ∀ outcome, ¬Returned s outcome
  connected : ∀ before after, sent s = before ++ .connected :: after →
    (∀ middle rest, after = middle ++ .connecting :: rest → ∃ event ∈ middle, Ends event) ∧
      ∀ outcome, Returned s outcome → ∃ event ∈ after, Ends event

/-- A failure that the policy would retry does not find the retries used up. -/
def Spared (policy : ReconnectPolicy) (s : Supervisor) (step : SupervisorStep) : Prop :=
  Polled s → ∀ poll ∈ poll? step, ∀ fails ∈ failure policy s poll,
    policy.decisionFor fails.1.retryClass = .retry → policy.retriesExhausted fails.2 = false

instance (policy : ReconnectPolicy) (s : Supervisor) (step : SupervisorStep) : Decidable (Spared policy s step) :=
  inferInstanceAs (Decidable (Polled s → ∀ poll ∈ poll? step, ∀ fails ∈ failure policy s poll, _ → _))

variable {policy : ReconnectPolicy} {s : Supervisor} {v : View} {poll : Poll}

private theorem sent_follows (follows : Follows (view s)) : ∃ stage,
    run Stage.next .ready (sent s) = some stage ∧ ∀ outcome, Returned s outcome → Agrees (view s) stage := by
  obtain ⟨final, accepted, agrees⟩ := follows
  rw [view, map_append] at accepted
  obtain ⟨stage, first, second⟩ := run_split accepted
  refine ⟨stage, first, fun outcome returned => ?_⟩
  simp only [returned.2, eventsOf, filterMap_nil, map_nil] at second
  cases second
  exact agrees

/-- A run that has returned is neither connected nor waiting for a retry. -/
theorem returned_stage {outcome : SupervisorOutcome} {stage : Stage} (returned : Returned s outcome)
    (agrees : Agrees (view s) stage) : stage ≠ .connected ∧ ∀ attempt, stage ≠ .scheduled attempt := by
  have phase : (view s).phase = .done outcome := returned.1
  rw [Agrees, phase] at agrees
  cases outcome with
  | cancelled =>
    subst agrees
    exact ⟨Stage.noConfusion, fun _ => Stage.noConfusion⟩
  | _ =>
    rcases agrees with rfl | rfl
    all_goals exact ⟨Stage.noConfusion, fun _ => Stage.noConfusion⟩

private theorem handleFailure_spared {error : MineRiderError}
    (spared : policy.decisionFor error.retryClass = .retry → policy.retriesExhausted v.attempt = false)
    (lastError : MineRiderError) : (v.handleFailure policy error).phase ≠ .done (.retriesExhausted lastError) := by
  rw [View.handleFailure]
  split_ifs with stop exhausted
  · intro same
    cases same
  · have retry : policy.decisionFor error.retryClass = .retry := by
      cases decision : policy.decisionFor error.retryClass with
      | retry => rfl
      | stop => contradiction
    rw [spared retry] at exhausted
    contradiction
  · intro same
    cases same

private theorem moves_spared (before : ∀ error, (view s).phase ≠ .done (.retriesExhausted error))
    (spared : Spared policy s (.poll poll)) (moves : Moves policy s poll v) (error : MineRiderError) :
    v.phase ≠ .done (.retriesExhausted error) := by
  cases moves with
  | stay => exact before error
  | refuse _ polled fails | finish _ polled _ fails => exact handleFailure_spared (spared polled poll rfl _ fails) error
  | _ => exact nofun

/-- What the protocol says about the events sent. -/
theorem announced_of_follows (follows : Follows (view s))
    (spared : ∀ error, s.phase ≠ .done (.retriesExhausted error)) : Announced s := by
  obtain ⟨stage, accepted, agrees⟩ := sent_follows follows
  refine ⟨fun error returned => absurd returned.1 (spared error), fun returned => ?_, ?_, ?_⟩
  · have stopped := agrees _ returned
    have phase : (view s).phase = .done .cancelled := returned.1
    rw [Agrees, phase] at stopped
    rw [stopped] at accepted
    obtain ⟨before, same, absent⟩ := stopped_last Stage.noConfusion accepted
    rw [same]
    exact ⟨by simp [count_eq_zero.mpr absent], getLast?_concat⟩
  · intro before attempt delay after same
    rw [same] at accepted
    obtain ⟨middle, _, accepted⟩ := run_split accepted
    rcases after_reconnectScheduled accepted with retried | cancelled | ⟨waiting, final⟩
    · exact Or.inl retried
    · exact Or.inr (Or.inl cancelled)
    · refine Or.inr (Or.inr ⟨waiting, fun outcome returned => ?_⟩)
      exact (returned_stage returned (agrees outcome returned)).2 attempt final
  · intro before after same
    rw [same] at accepted
    obtain ⟨_, _, accepted⟩ := run_split accepted
    obtain ⟨_, moves, accepted⟩ := run_cons accepted
    rw [next_connected rfl moves] at accepted
    constructor
    · rintro middle rest rfl
      by_contra none
      push Not at none
      obtain ⟨_, first, second⟩ := run_split accepted
      rw [(session_goes_on first none).2] at second
      cases second
    · intro outcome returned
      by_contra none
      push Not at none
      exact (returned_stage returned (agrees outcome returned)).1 (session_goes_on accepted none).2

/-- What holds in a run that does not use up its retries. -/
def Inv (v : View) : Prop := Follows v ∧ ∀ error, v.phase ≠ .done (.retriesExhausted error)

/-- In every run in which no failure that would be retried finds the retries used up, the events say why
`run` returned and follow each other as they should. -/
theorem run_is_announced (policy : ReconnectPolicy) (steps : List SupervisorStep)
    (along : Along (Supervisor.step policy) (Spared policy) .new steps) : Announced (Supervisor.run policy steps) := by
  have initially : Inv (view .new) := ⟨⟨.ready, rfl, rfl⟩, nofun⟩
  have kept : ∀ s step, Inv (view s) → Spared policy s step → Inv (view (s.step policy step)) := by
    intro s step inv spared
    apply step_keeps inv
    rintro poll v rfl moves
    exact ⟨moves_follow inv.1 moves, moves_spared inv.2 spared moves⟩
  obtain ⟨follows, spared⟩ := Along.invariant kept along initially
  exact announced_of_follows follows spared

end Announced

section Retries

/-- A policy with one retry. -/
def oneRetry : ReconnectPolicy := { retrying with maxRetries := .count 1 }

/-- The first attempt is refused, and the second one is under way. -/
def secondAttempt : List SupervisorStep :=
  List.replicate 4 (.poll idlePoll) ++ [.poll { idlePoll with connect := some (.error .connectionClosed) }] ++
    List.replicate 2 (.poll idlePoll) ++ [.poll { idlePoll with slept := true }] ++ List.replicate 5 (.poll idlePoll)

/-- The second attempt is refused as well. -/
def refusedRun : List SupervisorStep :=
  secondAttempt ++ [.poll { idlePoll with connect := some (.error .connectionClosed) }] ++
    List.replicate 3 (.poll idlePoll)

theorem exhaustion_is_silent :
    Returned (Supervisor.run oneRetry refusedRun) (.retriesExhausted .connectionClosed) ∧
      ¬Announced (Supervisor.run oneRetry refusedRun) := by
  have returned : Returned (Supervisor.run oneRetry refusedRun) (.retriesExhausted .connectionClosed) := ⟨rfl, rfl⟩
  refine ⟨returned, fun announced => ?_⟩
  exact absurd (announced.exhausted _ returned) (by decide)

/-- The second attempt succeeds, and the session is cancelled. -/
def stoppedRun : List SupervisorStep :=
  secondAttempt ++ [.poll { idlePoll with connect := some (.ok ()) }] ++ List.replicate 5 (.poll idlePoll) ++ [.stop] ++
    List.replicate 5 (.poll idlePoll)

theorem stopped_run_is_announced :
    sent (Supervisor.run oneRetry stoppedRun) =
        [.connecting, .reconnectScheduled 1 1000000000, .retryAttemptStarted 1, .connecting, .connected,
          .stoppedByCancellation] ∧
      Announced (Supervisor.run oneRetry stoppedRun) :=
  ⟨rfl, run_is_announced oneRetry stoppedRun (by decide)⟩

end Retries

end MineRider.Soundness.Lifecycle
