import MineRider.Machine.Run
import MineRider.Soundness.SupervisorMoves

/-! # Events of a session and its end

The supervisor polls the session before it relays the session's events, and stops polling once the
session is over. Events that are still waiting then, and events of the session's last poll, are never
relayed, although the supervisor announces the end of the session. A kick is such a case: it is emitted
in the poll in which the session ends. In runs where every session ends with nothing left to relay,
all its events come before the announcement.
-/

namespace MineRider.Soundness.EventRelay

open List Model.Core Model.Minecraft Machine SupervisorMoves

section Statement

/-- The events of the session `generation` that the supervisor has passed on. -/
def relayedOf (generation : ℕ) (trace : List Emission) : List BotEvent :=
  (trace.filter fun emission => emission.relayed && emission.generation == generation).map Emission.event

/-- The events that the session `generation` has emitted. -/
def emittedOf (generation : ℕ) (emitted : List (ℕ × BotEvent)) : List BotEvent :=
  (emitted.filter fun entry => entry.1 == generation).map Prod.snd

/-- When the end of a session is announced, all its events have been passed on, in order. -/
def Relays (trace : List Emission) (emitted : List (ℕ × BotEvent)) : Prop :=
  ∀ before generation reason after, trace = before ++ ⟨generation, false, .disconnected reason⟩ :: after →
    relayedOf generation before = emittedOf generation emitted

/-- The events a session has waiting. -/
def receiver? : Phase → Option (Receiver PlayEvent)
  | .session events => some events
  | _ => none

/-- The relay does not lag behind the capacity of the channel. -/
def KeepsUp (s : Supervisor) (step : SupervisorStep) : Prop :=
  Polled s → ∀ poll ∈ poll? step, ∀ events ∈ receiver? s.phase,
    events.buffer.length + poll.emitted.length ≤ eventChannelCapacity

/-- A session ends with no event waiting, and in a poll in which it emits none. -/
def EndsQuietly (s : Supervisor) (step : SupervisorStep) : Prop :=
  Polled s → ∀ poll ∈ poll? step, ∀ events ∈ receiver? s.phase, poll.finished.isSome →
    events.buffer = [] ∧ poll.emitted = []

instance (s : Supervisor) (step : SupervisorStep) : Decidable (KeepsUp s step) :=
  inferInstanceAs (Decidable (Polled s → ∀ poll ∈ poll? step, ∀ events ∈ receiver? s.phase, _))

instance (s : Supervisor) (step : SupervisorStep) : Decidable (EndsQuietly s step) :=
  inferInstanceAs (Decidable (Polled s → ∀ poll ∈ poll? step, ∀ events ∈ receiver? s.phase, _ → _))

end Statement

section Ledgers

variable {trace : List Emission} {emitted : List (ℕ × BotEvent)} {generation : ℕ}

theorem relayedOf_append (first second : List Emission) :
    relayedOf generation (first ++ second) = relayedOf generation first ++ relayedOf generation second := by
  simp [relayedOf]

theorem emittedOf_append (first second : List (ℕ × BotEvent)) :
    emittedOf generation (first ++ second) = emittedOf generation first ++ emittedOf generation second := by
  simp [emittedOf]

private theorem relayedOf_own (g : ℕ) (event : BotEvent) : relayedOf generation [⟨g, false, event⟩] = [] := by
  simp [relayedOf]

private theorem relayedOf_relayed (event : BotEvent) : relayedOf generation [⟨generation, true, event⟩] = [event] := by
  simp [relayedOf]

private theorem emittedOf_map (events : List PlayEvent) :
    emittedOf generation (events.map fun event => (generation, event.val)) = events.map Subtype.val := by
  simp [emittedOf, filter_map, Function.comp_def]

private theorem relayedOf_later (bounded : ∀ emission ∈ trace, emission.generation ≤ generation) :
    relayedOf (generation + 1) trace = [] := by
  rw [relayedOf, map_eq_nil_iff, filter_eq_nil_iff]
  intro emission member
  have earlier := bounded emission member
  simp only [Bool.and_eq_true, beq_iff_eq, not_and]
  omega

private theorem emittedOf_later (bounded : ∀ entry ∈ emitted, entry.1 ≤ generation) :
    emittedOf (generation + 1) emitted = [] := by
  rw [emittedOf, map_eq_nil_iff, filter_eq_nil_iff]
  intro entry member
  have earlier := bounded entry member
  rw [beq_iff_eq]
  omega

/-- The last emission is the announcement, or the announcement came before it. -/
theorem snoc_eq_cons {before after : List Emission} {x y : Emission} (same : trace ++ [x] = before ++ y :: after) :
    (trace = before ∧ x = y) ∨ ∃ rest, trace = before ++ y :: rest ∧ after = rest ++ [x] := by
  rcases eq_nil_or_concat after with rfl | ⟨rest, last, rfl⟩
  · obtain ⟨rfl, single⟩ := append_inj' same rfl
    exact Or.inl ⟨rfl, List.cons.inj single |>.1⟩
  · rw [concat_eq_append, ← cons_append, ← append_assoc] at same
    obtain ⟨rfl, single⟩ := append_inj' same rfl
    have last_eq := (List.cons.inj single).1
    subst last_eq
    exact Or.inr ⟨rest, rfl, concat_eq_append⟩

theorem Relays.snoc (relays : Relays trace emitted) {emission : Emission}
    (other : emission.relayed = false → ∀ reason, emission.event ≠ .disconnected reason) :
    Relays (trace ++ [emission]) emitted := by
  intro before g reason after same
  rcases snoc_eq_cons same with ⟨_, rfl⟩ | ⟨rest, earlier, _⟩
  · exact absurd rfl (other rfl reason)
  · exact relays before g reason rest earlier

theorem Relays.announce (relays : Relays trace emitted)
    (complete : relayedOf generation trace = emittedOf generation emitted) (reason : String) :
    Relays (trace ++ [⟨generation, false, .disconnected reason⟩]) emitted := by
  intro before g reason' after same
  rcases snoc_eq_cons same with ⟨rfl, last⟩ | ⟨rest, earlier, _⟩
  · cases last
    exact complete
  · exact relays before g reason' rest earlier

/-- A session whose end has not been announced may emit more. -/
theorem Relays.emit (relays : Relays trace emitted)
    (running : ∀ reason, (⟨generation, false, .disconnected reason⟩ : Emission) ∉ trace) (events : List PlayEvent) :
    Relays trace (emitted ++ events.map fun event => (generation, event.val)) := by
  intro before g reason after same
  have different : g ≠ generation := by
    rintro rfl
    exact running reason (by rw [same]; exact mem_append_right _ mem_cons_self)
  have none_added : emittedOf g (events.map fun event => (generation, event.val)) = [] := by
    rw [emittedOf, map_eq_nil_iff, filter_eq_nil_iff]
    intro entry member
    obtain ⟨event, _, rfl⟩ := mem_map.mp member
    simpa using Ne.symm different
  rw [emittedOf_append, none_added, append_nil]
  exact relays before g reason after same

end Ledgers

section Moves

variable {policy : ReconnectPolicy} {v : View}

/-- What holds between sessions. -/
structure Ledger (v : View) : Prop where
  relays : Relays v.trace v.emitted
  emitted_le : ∀ entry ∈ v.emitted, entry.1 ≤ v.generation
  trace_le : ∀ emission ∈ v.trace, emission.generation ≤ v.generation

/-- What holds within a session: the events it has emitted are those passed on and those waiting. -/
structure Running (v : View) (events : Receiver PlayEvent) : Prop where
  current : events.lagged = false
  unannounced : ∀ reason, (⟨v.generation, false, .disconnected reason⟩ : Emission) ∉ v.trace
  balance : emittedOf v.generation v.emitted = relayedOf v.generation v.trace ++ events.buffer.map Subtype.val

def Inv (v : View) : Prop := Ledger v ∧ ∀ events, v.phase = .session events → Running v events

section

variable (ledger : Ledger v)

include ledger

theorem Ledger.goto (phase : Phase) : Ledger (v.goto phase) :=
  ⟨ledger.relays, ledger.emitted_le, ledger.trace_le⟩

/-- A new emission falls into the current session. -/
theorem Ledger.trace_le_snoc (relayed : Bool) (event : BotEvent) :
    ∀ emission ∈ v.trace ++ [⟨v.generation, relayed, event⟩], emission.generation ≤ v.generation := by
  exact forall_mem_concat.mpr ⟨ledger.trace_le, le_rfl⟩

theorem Ledger.say {event : BotEvent} (other : ∀ reason, event ≠ .disconnected reason) :
    Ledger (v.say event) :=
  ⟨ledger.relays.snoc fun _ => other, ledger.emitted_le, ledger.trace_le_snoc false event⟩

theorem Ledger.announce
    (complete : relayedOf v.generation v.trace = emittedOf v.generation v.emitted) (reason : String) :
    Ledger (v.say (.disconnected reason)) :=
  ⟨ledger.relays.announce complete reason, ledger.emitted_le, ledger.trace_le_snoc false _⟩

theorem Ledger.closed (closed : ∀ events, v.phase ≠ .session events) : Inv v :=
  ⟨ledger, fun events session => absurd session (closed events)⟩

/-- A move that leaves the supervisor outside a session and says anything but the end of one. -/
theorem Ledger.move {phase : Phase} {event : BotEvent}
    (outside : ∀ events, phase ≠ .session events) (other : ∀ reason, event ≠ .disconnected reason) :
    Inv ((v.goto phase).say event) := ((ledger.goto phase).say other).closed outside

theorem Ledger.handleFailure (error : MineRiderError) : Inv (v.handleFailure policy error) := by
  rw [View.handleFailure]
  split_ifs
  · exact (ledger.goto _).closed fun _ => Phase.noConfusion
  · exact (ledger.goto _).closed fun _ => Phase.noConfusion
  · have counted : Ledger { v with attempt := v.attempt + 1 } := ⟨ledger.relays, ledger.emitted_le, ledger.trace_le⟩
    exact counted.move (fun _ => Phase.noConfusion) fun _ => BotEvent.noConfusion

theorem Ledger.connect : Inv (({ v with generation := v.generation + 1 }.goto (.session .new)).say .connected) := by
  have next : Ledger { v with generation := v.generation + 1 } :=
    ⟨ledger.relays, fun entry member => Nat.le_succ_of_le (ledger.emitted_le entry member),
      fun emission member => Nat.le_succ_of_le (ledger.trace_le emission member)⟩
  refine ⟨(next.goto _).say fun _ => BotEvent.noConfusion, ?_⟩
  rintro events ⟨⟩
  refine ⟨rfl, fun reason member => ?_, ?_⟩
  · rcases mem_concat_iff.mp member with old | new
    · exact absurd (ledger.trace_le _ old) (Nat.not_succ_le_self _)
    · cases new
  · change emittedOf (v.generation + 1) v.emitted = relayedOf (v.generation + 1) (v.trace ++ [_]) ++ []
    rw [emittedOf_later ledger.emitted_le, relayedOf_append, relayedOf_later ledger.trace_le, relayedOf_own]
    rfl

end

theorem Inv.progress {events : Receiver PlayEvent} (inv : Inv v) (session : v.phase = .session events)
    {emitted : List PlayEvent} (fits : events.buffer.length + emitted.length ≤ eventChannelCapacity) :
    Inv (v.progress events emitted) := by
  obtain ⟨ledger, running⟩ := inv
  obtain ⟨current, unannounced, balance⟩ := running events session
  refine ⟨⟨ledger.relays.emit unannounced emitted, ?_, ledger.trace_le⟩, ?_⟩
  · intro entry member
    rcases mem_append.mp member with old | new
    · exact ledger.emitted_le entry old
    · obtain ⟨event, _, rfl⟩ := mem_map.mp new
      exact le_rfl
  · rintro later ⟨⟩
    rw [Receiver.sendAll_of_fits events emitted fits]
    refine ⟨current, unannounced, ?_⟩
    change emittedOf v.generation (v.emitted ++ _) = relayedOf v.generation v.trace ++ _
    rw [emittedOf_append, emittedOf_map, balance, map_append, append_assoc]

theorem Inv.relay {events : Receiver PlayEvent} (inv : Inv v) (session : v.phase = .session events) :
    Inv (v.relay events) := by
  obtain ⟨ledger, running⟩ := inv
  obtain ⟨current, unannounced, balance⟩ := running events session
  cases waiting : events.buffer with
  | nil =>
    have received : events.recv = (none, events) := by simp [Receiver.recv, current, waiting]
    have unchanged : v.relay events = v := by
      cases v
      simp_all [View.relay]
    rw [unchanged]
    exact ⟨ledger, running⟩
  | cons event rest =>
    have received : events.recv = (some event, { events with buffer := rest }) := by
      simp [Receiver.recv, current, waiting]
    have relayed : v.relay events = { v with
        phase := .session { events with buffer := rest },
        trace := v.trace ++ [⟨v.generation, true, event.val⟩] } := by
      simp [View.relay, received]
    rw [relayed]
    refine ⟨⟨ledger.relays.snoc (by simp), ledger.emitted_le, ledger.trace_le_snoc true event.val⟩, ?_⟩
    rintro later ⟨⟩
    refine ⟨current, fun reason member => ?_, ?_⟩
    · rcases mem_concat_iff.mp member with old | new
      · exact unannounced reason old
      · cases new
    · rw [balance, waiting, relayedOf_append, relayedOf_relayed, append_assoc]
      rfl

/-- A move of an allowed poll keeps the ledger. -/
theorem moves_inv {s : Supervisor} {poll : Poll} (inv : Inv (view s)) (keepsUp : KeepsUp s (.poll poll))
    (quietly : EndsQuietly s (.poll poll)) (moves : Moves policy s poll v) : Inv v := by
  obtain ⟨ledger, running⟩ := inv
  cases moves with
  | stay => exact ⟨ledger, running⟩
  | cancel _ | start _ | retry _ => exact ledger.move (fun _ => Phase.noConfusion) fun _ => BotEvent.noConfusion
  | connect _ => exact ledger.connect
  | refuse _ _ _ => exact ledger.handleFailure _
  | progress session polled =>
    have fits := keepsUp polled poll rfl _ (by rw [session]; rfl)
    exact Inv.progress ⟨ledger, running⟩ session fits
  | relay session polled =>
    have fits := keepsUp polled poll rfl _ (by rw [session]; rfl)
    exact (Inv.progress ⟨ledger, running⟩ session fits).relay rfl
  | @finish events error attempt session polled finished fails =>
    -- Nothing is waiting and nothing new is emitted, so the balance says that everything is out.
    obtain ⟨empty, silent⟩ := quietly polled poll rfl events (by rw [session]; rfl) finished
    have balance := (running events session).balance
    rw [empty, map_nil, append_nil] at balance
    have unchanged : Ledger { (view s).progress events poll.emitted with attempt } := by
      rw [silent]
      exact ⟨by simpa [View.progress] using ledger.relays, by simpa [View.progress] using ledger.emitted_le,
        ledger.trace_le⟩
    apply Ledger.handleFailure
    apply unchanged.announce
    rw [silent]
    simpa [View.progress] using balance.symm

end Moves

/-- What is out is a part of what is decided. -/
theorem Relays.out {s : Supervisor} (relays : Relays (view s).trace s.emitted) : Relays s.out s.emitted := by
  intro before generation reason after same
  apply relays before generation reason (after ++ (eventsOf s.todo).map fun event => ⟨s.generation, false, event⟩)
  rw [← cons_append, ← append_assoc, ← same]
  rfl

/-- In every run in which the relay keeps up and every session ends with nothing left to relay, whatever
the order of polls, commands and cancellation, all events of a session come before its end is announced. -/
theorem events_precede_disconnect (policy : ReconnectPolicy) (steps : List SupervisorStep)
    (along : Along (Supervisor.step policy) (fun s step => KeepsUp s step ∧ EndsQuietly s step) .new steps) :
    Relays (Supervisor.run policy steps).out (Supervisor.run policy steps).emitted := by
  have initially : Inv (view .new) :=
    Ledger.closed ⟨fun before _ _ after same => absurd same (by simp [view, Supervisor.new, eventsOf]), nofun, nofun⟩
      fun _ => Phase.noConfusion
  have kept : ∀ s step, Inv (view s) → KeepsUp s step ∧ EndsQuietly s step → Inv (view (s.step policy step)) := by
    intro s step inv allowed
    apply step_keeps inv
    rintro poll v rfl moves
    exact moves_inv inv allowed.1 allowed.2 moves
  exact (Along.invariant kept along initially).1.relays.out

section Kick

/-- A policy that does not retry. -/
def noRetry : ReconnectPolicy := { retrying with enabled := false, maxRetries := .count 5 }

def kick : List PlayEvent := [⟨.presentation .disconnected, rfl⟩, ⟨.kicked "bye", rfl⟩]

/-- The polls up to the first one of a session. -/
def intoSession : List SupervisorStep :=
  List.replicate 4 (.poll idlePoll) ++ [.poll { idlePoll with connect := some (.ok ()) }] ++
    List.replicate 4 (.poll idlePoll)

/-- The session handles a kick: it emits the events and ends, all in one poll. -/
def kickedRun : List SupervisorStep :=
  intoSession ++ [.poll { idlePoll with emitted := kick, finished := some (.error (.disconnected "bye")) }] ++
    List.replicate 2 (.poll idlePoll)

theorem kick_is_not_relayed : Along (Supervisor.step noRetry) KeepsUp .new kickedRun ∧
    ¬Relays (Supervisor.run noRetry kickedRun).out (Supervisor.run noRetry kickedRun).emitted := by
  refine ⟨by decide, fun relays => ?_⟩
  have relayed := relays [⟨0, false, .connecting⟩, ⟨1, false, .connected⟩] 1
    (MineRiderError.disconnected "bye").display [] rfl
  exact absurd relayed (by decide)

/-- The session emits an event, which is relayed, and is closed a few polls later. -/
def closedRun : List SupervisorStep :=
  intoSession ++ [.poll { idlePoll with emitted := [⟨.spawned, rfl⟩] },
    .poll { idlePoll with finished := some (.error .connectionClosed) }] ++ List.replicate 2 (.poll idlePoll)

theorem closed_session_is_relayed :
    (Supervisor.run noRetry closedRun).out =
        [⟨0, false, .connecting⟩, ⟨1, false, .connected⟩, ⟨1, true, .spawned⟩,
          ⟨1, false, .disconnected "connection closed by peer"⟩] ∧
      Relays (Supervisor.run noRetry closedRun).out (Supervisor.run noRetry closedRun).emitted :=
  ⟨rfl, events_precede_disconnect noRetry closedRun (by decide)⟩

end Kick

end MineRider.Soundness.EventRelay
