import Mathlib.Data.List.Infix
import Mathlib.Data.List.Range
import MineRider.Machine.Monitor
import MineRider.Machine.Run
import MineRider.Soundness.SupervisorMoves

/-! # Retries between two stable sessions

A session that lasts long enough makes the supervisor forget its attempts. `Tally.next` counts what the
events announce after that, as a monitor: attempts are scheduled and started one by one, and there are
no more of them than the policy allows. The attempt counter of the supervisor is the monitor's count.

A failure that the policy does not retry ends the run, and no attempt follows.
-/

namespace MineRider.Soundness.Retries

open List Model.Core Model.Minecraft Machine SupervisorMoves Monitor
open Supervisor (sessionError)

section Statement

def inSession : Phase → Bool
  | .session _ => true
  | _ => false

/-- A poll that ends a session which has lasted long enough. -/
def StableEnd (policy : ReconnectPolicy) (s : Supervisor) (step : SupervisorStep) : Prop :=
  Polled s ∧ inSession s.phase = true ∧
    ∃ poll ∈ poll? step, poll.finished.isSome = true ∧ poll.now - s.connectedAt ≥ policy.stableSessionReset

instance (policy : ReconnectPolicy) (s : Supervisor) (step : SupervisorStep) : Decidable (StableEnd policy s step) :=
  inferInstanceAs (Decidable (Polled s ∧ _ ∧ ∃ poll ∈ poll? step, _ ∧ _))

/-- The run is at its start, or has just ended a stable session. -/
def Fresh (policy : ReconnectPolicy) (before : List SupervisorStep) : Prop :=
  before = [] ∨ ∃ earlier last, before = earlier ++ [last] ∧ StableEnd policy (Supervisor.run policy earlier) last

/-- What is sent on the supervisor's channel during the second part of a run. -/
def sentDuring (policy : ReconnectPolicy) (before during : List SupervisorStep) : List BotEvent :=
  ((Supervisor.run policy (before ++ during)).out.drop (Supervisor.run policy before).out.length).map Emission.event

def scheduled? : BotEvent → Option UInt32
  | .reconnectScheduled attempt _ => some attempt
  | _ => none

def started? : BotEvent → Option UInt32
  | .retryAttemptStarted attempt => some attempt
  | _ => none

/-- The attempts that some events announce, in order. -/
def attempts (announced? : BotEvent → Option UInt32) (events : List BotEvent) : List ℕ :=
  (events.filterMap announced?).map UInt32.toNat

/-- The retries are announced as 1, 2, 3 and so on, and there are at most `limit` of them. Every attempt to
connect is one of them, except for the `first` ones. -/
def Counted (limit first : ℕ) (events : List BotEvent) : Prop :=
  ∃ scheduled started, started ≤ scheduled ∧ scheduled ≤ limit ∧
    attempts scheduled? events = List.range' 1 scheduled ∧ attempts started? events = List.range' 1 started ∧
    events.count .connecting ≤ started + first

/-- How a policy with a limit bounds the attempts of every run. -/
structure Bounded (policy : ReconnectPolicy) (limit : UInt32) : Prop where
  counted : ∀ before during, Fresh policy before →
    Along (Supervisor.step policy) (fun s step => ¬StableEnd policy s step) (Supervisor.run policy before) during →
    Counted limit.toNat (if before = [] then 1 else 0) (sentDuring policy before during)
  /-- After a failure that is not retried there are no more attempts. -/
  stopped : ∀ before poll after error attempt, Polled (Supervisor.run policy before) →
    failure policy (Supervisor.run policy before) poll = some (error, attempt) →
    policy.decisionFor error.retryClass = .stop → .connecting ∉ sentDuring policy before (.poll poll :: after)

end Statement

section Tally

structure Tally where
  scheduled : ℕ
  started : ℕ
  connecting : ℕ

def Tally.zero : Tally := ⟨0, 0, 0⟩

def Tally.next (limit first : ℕ) (t : Tally) : BotEvent → Option Tally
  | .reconnectScheduled attempt _ =>
    if attempt.toNat = t.scheduled + 1 ∧ t.scheduled < limit ∧ t.started = t.scheduled then
      some { t with scheduled := t.scheduled + 1 }
    else none
  | .retryAttemptStarted attempt =>
    if attempt.toNat = t.started + 1 ∧ t.started < t.scheduled then some { t with started := t.started + 1 } else none
  | .connecting => if t.connecting < t.started + first then some { t with connecting := t.connecting + 1 } else none
  | _ => some t

variable {limit first : ℕ} {t final : Tally} {events : List BotEvent}

private theorem next_scheduled (attempt : UInt32) (delay : ℕ) : t.next limit first (.reconnectScheduled attempt delay) =
    if attempt.toNat = t.scheduled + 1 ∧ t.scheduled < limit ∧ t.started = t.scheduled then
      some { t with scheduled := t.scheduled + 1 }
    else none := rfl

private theorem next_started (attempt : UInt32) : t.next limit first (.retryAttemptStarted attempt) =
    if attempt.toNat = t.started + 1 ∧ t.started < t.scheduled then some { t with started := t.started + 1 }
    else none := rfl

private theorem next_connecting : t.next limit first .connecting =
    if t.connecting < t.started + first then some { t with connecting := t.connecting + 1 } else none := rfl

variable {event : BotEvent}

private theorem next_play (play : lifecycle event = false) : t.next limit first event = some t := by
  cases event with
  | connecting | reconnectScheduled | retryAttemptStarted => cases play
  | _ => rfl

/-- What a tally says about the events it has read. -/
structure Reads (limit first : ℕ) (events : List BotEvent) (t : Tally) : Prop where
  scheduled : attempts scheduled? events = List.range' 1 t.scheduled
  started : attempts started? events = List.range' 1 t.started
  connecting : events.count .connecting = t.connecting
  ordered : t.started ≤ t.scheduled
  limited : t.scheduled ≤ limit
  attempted : t.connecting ≤ t.started + first

private theorem attempts_silent {announced? : BotEvent → Option UInt32} (silent : announced? event = none) :
    attempts announced? (events ++ [event]) = attempts announced? events := by
  simp [attempts, filterMap_append, silent]

private theorem attempts_announced {announced? : BotEvent → Option UInt32} {attempt : UInt32}
    (announced : announced? event = some attempt) :
    attempts announced? (events ++ [event]) = attempts announced? events ++ [attempt.toNat] := by
  simp [attempts, filterMap_append, announced]

private theorem count_other {attempted : ℕ} (counted : events.count .connecting = attempted)
    (other : event ≠ .connecting) : (events ++ [event]).count .connecting = attempted := by
  simp [counted, other]

theorem Reads.next (reads : Reads limit first events t)
    (moves : t.next limit first event = some final) : Reads limit first (events ++ [event]) final := by
  obtain ⟨scheduled, started, connecting, ordered, limited, attempted⟩ := reads
  cases event with
  | reconnectScheduled attempt delay =>
    rw [next_scheduled] at moves
    split_ifs at moves with expected
    cases moves
    obtain ⟨number, room, _⟩ := expected
    refine ⟨?_, (attempts_silent rfl).trans started, count_other connecting nofun, Nat.le_succ_of_le ordered,
      room, attempted⟩
    rw [attempts_announced rfl, scheduled, number, range'_1_concat, Nat.add_comm]
  | retryAttemptStarted attempt =>
    rw [next_started] at moves
    split_ifs at moves with expected
    cases moves
    obtain ⟨number, waits⟩ := expected
    refine ⟨(attempts_silent rfl).trans scheduled, ?_, count_other connecting nofun, waits, limited, ?_⟩
    · rw [attempts_announced rfl, started, number, range'_1_concat, Nat.add_comm]
    · change t.connecting ≤ t.started + 1 + first
      omega
  | connecting =>
    rw [next_connecting] at moves
    split_ifs at moves with expected
    cases moves
    refine ⟨(attempts_silent rfl).trans scheduled, (attempts_silent rfl).trans started, ?_, ordered, limited, expected⟩
    rw [count_append, connecting]
    rfl
  | _ =>
    cases moves
    exact ⟨(attempts_silent rfl).trans scheduled, (attempts_silent rfl).trans started,
      count_other connecting nofun, ordered, limited, attempted⟩

private theorem reads_of_run (accepted : run (Tally.next limit first) .zero events = some final) :
    Reads limit first events final := by
  induction events using List.reverseRecOn generalizing final with
  | nil =>
    cases accepted
    exact ⟨rfl, rfl, rfl, le_rfl, Nat.zero_le _, Nat.zero_le _⟩
  | append_singleton events event ih =>
    obtain ⟨middle, first, second⟩ := run_split accepted
    obtain ⟨last, moves, done⟩ := run_cons second
    cases done
    exact (ih first).next moves

/-- A trace that the monitor accepts is counted. -/
theorem counted_of_run (accepted : run (Tally.next limit first) .zero events = some final) :
    Counted limit first events := by
  have reads := reads_of_run accepted
  exact ⟨final.scheduled, final.started, reads.ordered, reads.limited, reads.scheduled, reads.started,
    reads.connecting ▸ reads.attempted⟩

end Tally

section Follows

/-- The tally that a phase of `run` shows. -/
def Agrees (first : ℕ) (v : View) (t : Tally) : Prop :=
  v.attempt.toNat = t.scheduled ∧ t.connecting ≤ t.started + first ∧
    match v.phase with
    | .top => t.started = t.scheduled ∧ t.connecting < t.started + first
    | .connecting | .session _ => t.started = t.scheduled
    | .backoff => t.started + 1 = t.scheduled
    | .done _ => True

/-- The monitor accepts everything sent after `earlier`, and agrees with the phase. -/
def Follows (limit first : ℕ) (earlier : List Emission) (v : View) : Prop :=
  ∃ later t, v.trace = earlier ++ later ∧
    run (Tally.next limit first) .zero (later.map Emission.event) = some t ∧ Agrees first v t

variable {policy : ReconnectPolicy} {limit : UInt32} {first : ℕ} {earlier : List Emission} {s : Supervisor}
  {v : View} {poll : Poll}

variable {later : List Emission}

/-- An event that the monitor expects. -/
theorem Follows.say {t next : Tally} {event : BotEvent} {w : View} (trace : w.trace = earlier ++ later)
    (accepted : run (Tally.next limit.toNat first) .zero (later.map Emission.event) = some t)
    (moves : t.next limit.toNat first event = some next) (agrees : Agrees first (w.say event) next) :
    Follows limit.toNat first earlier (w.say event) := by
  refine ⟨later ++ [⟨w.generation, false, event⟩], next, ?_, ?_, agrees⟩
  · rw [View.say, trace, append_assoc]
  · rw [map_append]
    exact run_snoc accepted moves

theorem exhausted_iff (limited : policy.maxRetries = .count limit) (attempt : UInt32) :
    policy.retriesExhausted attempt = true ↔ limit.toNat ≤ attempt.toNat := by
  rw [ReconnectPolicy.retriesExhausted, limited]
  simp [UInt32.le_iff_toNat_le]

private theorem toNat_succ {attempt : UInt32} (room : attempt.toNat < limit.toNat) :
    (attempt + 1).toNat = attempt.toNat + 1 := by
  have bound := limit.toNat_lt
  rw [UInt32.toNat_add, UInt32.toNat_one]
  omega

private theorem handleFailure_follows (limited : policy.maxRetries = .count limit) {t : Tally}
    (error : MineRiderError) (trace : v.trace = earlier ++ later)
    (accepted : run (Tally.next limit.toNat first) .zero (later.map Emission.event) = some t)
    (attempt : v.attempt.toNat = t.scheduled) (started : t.started = t.scheduled)
    (attempted : t.connecting ≤ t.started + first) :
    Follows limit.toNat first earlier (v.handleFailure policy error) := by
  rw [View.handleFailure]
  split_ifs with stop exhausted
  · exact ⟨later, t, trace, accepted, attempt, attempted, trivial⟩
  · exact ⟨later, t, trace, accepted, attempt, attempted, trivial⟩
  · rw [exhausted_iff limited, Nat.not_le] at exhausted
    have succ := toNat_succ exhausted
    have moves : t.next limit.toNat first (.reconnectScheduled (v.attempt + 1) (policy.backoffDelay (v.attempt + 1))) =
        some { t with scheduled := t.scheduled + 1 } := by
      rw [next_scheduled, if_pos]
      exact ⟨by omega, by omega, started⟩
    refine Follows.say trace accepted moves ⟨?_, attempted, ?_⟩
    · change (v.attempt + 1).toNat = t.scheduled + 1
      omega
    · change t.started + 1 = t.scheduled + 1
      omega

private theorem relay_follows {events : Receiver PlayEvent} {t : Tally} (trace : v.trace = earlier ++ later)
    (accepted : run (Tally.next limit.toNat first) .zero (later.map Emission.event) = some t)
    (agrees : Agrees first (v.relay events) t) : Follows limit.toNat first earlier (v.relay events) := by
  refine ⟨later ++ events.recv.1.toList.map fun event => ⟨v.generation, true, event.val⟩, t, ?_, ?_, agrees⟩
  · rw [View.relay, trace, append_assoc]
  · cases events.recv.1 with
    | none => simpa using accepted
    | some event =>
      rw [map_append]
      exact run_snoc accepted (next_play event.property)

/-- The attempts are not forgotten after a session that was too short. -/
theorem attempt_of_unstable {events : Receiver PlayEvent} {error : MineRiderError} {attempt : UInt32}
    (session : s.phase = .session events) (polled : Polled s) (finished : poll.finished.isSome)
    (fails : failure policy s poll = some (error, attempt)) (unstable : ¬StableEnd policy s (.poll poll)) :
    attempt = s.attempt := by
  have short : ¬poll.now - s.connectedAt ≥ policy.stableSessionReset := by
    intro long
    exact unstable ⟨polled, by rw [session]; rfl, poll, rfl, finished, long⟩
  simp only [SupervisorMoves.failure, session] at fails
  obtain ⟨result, _, same⟩ := Option.map_eq_some_iff.mp fails
  have second := congrArg Prod.snd same
  simpa [Supervisor.attemptAfterSession, short] using second.symm

/-- The supervisor keeps to the count as long as no stable session ends. -/
theorem moves_follow (limited : policy.maxRetries = .count limit) (follows : Follows limit.toNat first earlier (view s))
    (unstable : ¬StableEnd policy s (.poll poll)) (moves : Moves policy s poll v) :
    Follows limit.toNat first earlier v := by
  obtain ⟨later, t, trace, accepted, attempt, attempted, agrees⟩ := follows
  cases moves with
  | stay => exact ⟨later, t, trace, accepted, attempt, attempted, agrees⟩
  | cancel _ => exact Follows.say trace accepted rfl ⟨attempt, attempted, trivial⟩
  | start top =>
    simp only [view, top] at agrees
    have moves : t.next limit.toNat first .connecting = some { t with connecting := t.connecting + 1 } :=
      if_pos agrees.2
    exact Follows.say trace accepted moves ⟨attempt, agrees.2, agrees.1⟩
  | connect connecting =>
    simp only [view, connecting] at agrees
    have agreed :
        Agrees first (({ view s with generation := s.generation + 1 }.goto (.session .new)).say .connected) t :=
      ⟨attempt, attempted, agrees⟩
    exact Follows.say (w := { view s with generation := s.generation + 1 }.goto (.session .new))
      trace accepted rfl agreed
  | refuse connecting _ _ =>
    simp only [view, connecting] at agrees
    exact handleFailure_follows limited _ trace accepted attempt agrees attempted
  | progress session _ =>
    simp only [view, session] at agrees
    exact ⟨later, t, trace, accepted, attempt, attempted, agrees⟩
  | relay session _ =>
    simp only [view, session] at agrees
    exact relay_follows trace accepted ⟨attempt, attempted, agrees⟩
  | @finish events error attempt' session polled finished fails =>
    simp only [view, session] at agrees
    have same := attempt_of_unstable session polled finished fails unstable
    subst same
    let announcement : Emission := ⟨s.generation, false, .disconnected error.display⟩
    have traced : ({ (view s).progress events poll.emitted with attempt := s.attempt }.say
        (.disconnected error.display)).trace = earlier ++ (later ++ [announcement]) := by
      change (view s).trace ++ [announcement] = _
      rw [trace, append_assoc]
    have announced : run (Tally.next limit.toNat first) .zero ((later ++ [announcement]).map Emission.event) =
        some t := by
      rw [map_append]
      exact run_snoc accepted rfl
    exact handleFailure_follows limited error traced announced attempt agrees attempted
  | retry waiting =>
    simp only [view, waiting] at agrees
    change s.attempt.toNat = t.scheduled at attempt
    have moves : t.next limit.toNat first (.retryAttemptStarted s.attempt) = some { t with started := t.started + 1 } :=
      if_pos ⟨by omega, by omega⟩
    refine Follows.say trace accepted moves ⟨attempt, ?_, agrees, ?_⟩
    · change t.connecting ≤ t.started + 1 + first
      omega
    · change t.connecting < t.started + 1 + first
      omega

end Follows

section Runs

variable {policy : ReconnectPolicy} {limit : UInt32} {first : ℕ} {s : Supervisor} {poll : Poll}

private theorem start_follows : Follows limit.toNat 1 [] (view .new) :=
  ⟨[], .zero, rfl, rfl, rfl, Nat.zero_le _, rfl, Nat.zero_lt_one⟩

/-- The poll of a session that ends. -/
theorem step_of_finished {events : Receiver PlayEvent} {result : Except MineRiderError Unit}
    (session : s.phase = .session events) (polled : Polled s) (finished : poll.finished = some result) :
    s.step policy (.poll poll) =
      (s.progress events poll.emitted).endSession policy poll.now (sessionError result) := by
  simp [Supervisor.step, polled.1, Supervisor.resume, session, Supervisor.pollSession, polled.2, finished]

/-- The attempts are counted anew after a stable session. -/
theorem stableEnd_follows (limited : policy.maxRetries = .count limit) {step : SupervisorStep}
    (stable : StableEnd policy s step) :
    Follows limit.toNat 0 (s.step policy step).out (view (s.step policy step)) := by
  obtain ⟨polled, inside, poll, isPoll, finished, long⟩ := stable
  obtain ⟨events, session⟩ : ∃ events, s.phase = .session events := by
    cases phase : s.phase with
    | session events => exact ⟨events, rfl⟩
    | _ => simp [inSession, phase] at inside
  obtain ⟨result, ended⟩ := Option.isSome_iff_exists.mp finished
  cases step with
  | poll other =>
    cases isPoll
    rw [step_of_finished session polled ended]
    let announced : Supervisor := { s.progress events poll.emitted with
      attempt := 0,
      todo := [Action.setStatus .disconnected, Action.emit (.disconnected (sessionError result).display),
        Action.rejectQueuedCommands .sessionReplaced] }
    have same : (s.progress events poll.emitted).endSession policy poll.now (sessionError result) =
        announced.handleFailure policy (sessionError result) := by
      have forgotten : (s.progress events poll.emitted).attemptAfterSession policy poll.now = 0 := if_pos long
      have idle : (s.progress events poll.emitted).todo = [] := polled.1
      rw [Supervisor.endSession, forgotten, idle]
      rfl
    have kept : (announced.handleFailure policy (sessionError result)).out = announced.out := by
      rw [Supervisor.handleFailure]
      split_ifs
      all_goals rfl
    rw [same, kept, view_handleFailure]
    exact handleFailure_follows (t := .zero) limited _ rfl rfl rfl rfl (Nat.zero_le _)
  | _ => cases isPoll

variable {earlier : List Emission}

private theorem during_follows (limited : policy.maxRetries = .count limit) {during : List SupervisorStep}
    (along : Along (Supervisor.step policy) (fun s step => ¬StableEnd policy s step) s during)
    (follows : Follows limit.toNat first earlier (view s)) :
    Follows limit.toNat first earlier (view (during.foldl (Supervisor.step policy) s)) := by
  have kept : ∀ s step, Follows limit.toNat first earlier (view s) → ¬StableEnd policy s step →
      Follows limit.toNat first earlier (view (s.step policy step)) := by
    intro s step follows unstable
    apply step_keeps follows
    rintro poll v rfl moves
    exact moves_follow limited follows unstable moves
  exact Along.invariant kept along follows

/-- What has been sent is a part of what is decided. -/
theorem sent_isPrefix {earlier later : List Emission} (trace : (view s).trace = earlier ++ later) :
    s.out.drop earlier.length <+: later := by
  have whole : s.out <+: earlier ++ later := trace ▸ prefix_append _ _
  have rest := List.IsPrefix.drop whole earlier.length
  rwa [drop_left] at rest

theorem Follows.counted (follows : Follows limit.toNat first earlier (view s)) :
    Counted limit.toNat first ((s.out.drop earlier.length).map Emission.event) := by
  obtain ⟨later, t, trace, accepted, _⟩ := follows
  obtain ⟨pending, rfl⟩ := sent_isPrefix trace
  rw [map_append] at accepted
  obtain ⟨middle, sent, _⟩ := run_split accepted
  exact counted_of_run sent

theorem run_append (policy : ReconnectPolicy) (before during : List SupervisorStep) :
    Supervisor.run policy (before ++ during) = during.foldl (Supervisor.step policy) (Supervisor.run policy before) :=
  foldl_append

/-- A run that has made up its mind to return makes no attempt any more. -/
def Over (earlier : List Emission) (v : View) : Prop :=
  (∃ outcome, v.phase = .done outcome) ∧
    ∃ later, v.trace = earlier ++ later ∧ ∀ emission ∈ later, emission.event ≠ .connecting

private theorem moves_over {v : View} (ended : Over earlier (view s)) (moves : Moves policy s poll v) :
    Over earlier v := by
  obtain ⟨⟨outcome, done⟩, later, trace, none⟩ := ended
  change s.phase = .done outcome at done
  cases moves with
  | stay => exact ⟨⟨outcome, done⟩, later, trace, none⟩
  | cancel running => exact absurd done (running outcome)
  | start phase | connect phase | refuse phase | progress phase | relay phase | finish phase | retry phase =>
    rw [done] at phase
    cases phase

private theorem over_run (steps : List SupervisorStep) (ended : Over earlier (view s)) :
    Over earlier (view (steps.foldl (Supervisor.step policy) s)) := by
  refine List.foldlRecOn (motive := fun s => Over earlier (view s)) steps _ ended fun s ended step _ => ?_
  apply step_keeps ended
  rintro poll v rfl moves
  exact moves_over ended moves

/-- A failure that is not retried makes `run` return. -/
theorem failure_over {error : MineRiderError} {attempt : UInt32} (polled : Polled s)
    (fails : failure policy s poll = some (error, attempt)) (stop : policy.decisionFor error.retryClass = .stop) :
    Over s.out (view (s.step policy (.poll poll))) := by
  have idle : (view s).trace = s.out := by simp [view, polled.1, eventsOf]
  cases phase : s.phase with
  | connecting =>
    have refused : s.step policy (.poll poll) = s.handleFailure policy error := by
      simp only [SupervisorMoves.failure, phase] at fails
      split at fails
      · rename_i waits refused
        cases fails
        simp [Supervisor.step, polled.1, Supervisor.resume, phase, Supervisor.pollConnecting, polled.2, waits, refused]
      · cases fails
    rw [refused, view_handleFailure, View.handleFailure, if_pos stop]
    exact ⟨⟨_, rfl⟩, [], by simpa [View.goto] using idle, by simp⟩
  | session events =>
    simp only [SupervisorMoves.failure, phase] at fails
    obtain ⟨result, finished, same⟩ := Option.map_eq_some_iff.mp fails
    cases same
    rw [step_of_finished phase polled finished, view_endSession, View.handleFailure, if_pos stop]
    refine ⟨⟨_, rfl⟩, [⟨s.generation, false, .disconnected (sessionError result).display⟩], ?_, ?_⟩
    · change (view s).trace ++ _ = _
      rw [idle]
      rfl
    · intro emission member
      rw [mem_singleton.mp member]
      exact BotEvent.noConfusion
  | _ => simp [SupervisorMoves.failure, phase] at fails

end Runs

/-- Under a policy with a limit, whatever fails and however long sessions last: between two stable sessions, or
since the start, the retries are numbered from one and bounded by the limit, and after a failure that the policy
does not retry no attempt is made. -/
theorem retries_are_bounded (policy : ReconnectPolicy) (limit : UInt32) (limited : policy.maxRetries = .count limit) :
    Bounded policy limit := by
  refine ⟨fun before during fresh along => ?_, fun before poll after error attempt polled fails stop member => ?_⟩
  · -- The count starts with the run or with the end of a stable session, and every other step keeps it.
    rw [sentDuring, run_append]
    rcases fresh with rfl | ⟨earlier, last, rfl, stable⟩
    · exact (during_follows limited along start_follows).counted
    · have started := stableEnd_follows limited stable
      rw [if_neg (by simp)]
      have here : Supervisor.run policy (earlier ++ [last]) = (Supervisor.run policy earlier).step policy last :=
        run_append policy earlier [last]
      rw [here] at along ⊢
      exact (during_follows limited along started).counted
  · rw [sentDuring, run_append] at member
    obtain ⟨_, later, trace, none⟩ := over_run after (failure_over polled fails stop)
    obtain ⟨emission, sent, connecting⟩ := mem_map.mp member
    exact none emission ((sent_isPrefix trace).subset sent) connecting

section Refusals

/-- A policy with two retries, each after a second more than the one before. -/
def twoRetries : ReconnectPolicy :=
  { retrying with maxRetries := .count 2, backoffDelay := fun attempt => attempt.toNat * 1000000000 }

/-- An attempt that is refused and then retried. -/
def refusedAttempt : List SupervisorStep :=
  List.flatten [List.replicate 4 (.poll idlePoll), [.poll { idlePoll with connect := some (.error .connectionClosed) }],
    List.replicate 2 (.poll idlePoll), [.poll { idlePoll with slept := true }], List.replicate 1 (.poll idlePoll)]

/-- Every attempt is refused. -/
def refusals : List SupervisorStep := List.flatten [refusedAttempt, refusedAttempt, refusedAttempt]

theorem refusals_are_counted :
    sentDuring twoRetries [] refusals =
        [.connecting, .reconnectScheduled 1 1000000000, .retryAttemptStarted 1, .connecting,
          .reconnectScheduled 2 2000000000, .retryAttemptStarted 2, .connecting] ∧
      Counted 2 1 (sentDuring twoRetries [] refusals) :=
  ⟨rfl, (retries_are_bounded twoRetries 2 rfl).counted [] refusals (Or.inl rfl) (by decide)⟩

end Refusals

end MineRider.Soundness.Retries
