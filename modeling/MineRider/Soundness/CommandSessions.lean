import MineRider.Machine.Run
import MineRider.Soundness.CommandAnswers

/-! # The session a command reaches

A call of `send_command` reads the status and then the generation. If the session ends and the next one
is connected in between, the command is stamped for the new session and handed to it, although the
status it was checked against was that of the old one. As long as no generation is published between
the two reads of a call, a command only ever reaches the session that its status check saw.
-/

namespace MineRider.Soundness.CommandSessions

open List Model.Core Model.Minecraft Machine SupervisorMoves CommandAnswers

section Statement

/-- Commands only reach the session that was running when their status check succeeded. -/
def StaysInSession (c : Supervised) : Prop :=
  ∀ caller generation (call : Call), (caller, generation) ∈ c.supervisor.forwarded → c.calls[caller]? = some call →
    generation = call.observed

def isPoll : SupervisedStep → Bool
  | .poll _ => true
  | _ => false

/-- The call has read the status, and not yet the generation. -/
def betweenReads (call : Call) : Bool :=
  match call.stage with
  | .checked => true
  | _ => false

/-- No call stands between its two reads when a generation is published. -/
def Undisturbed (c : Supervised) (input : SupervisedStep) : Prop :=
  isPoll input = true → c.supervisor.todo.head? = some .publishGeneration → ∀ call ∈ c.calls, betweenReads call = false

instance (c : Supervised) (input : SupervisedStep) : Decidable (Undisturbed c input) :=
  inferInstanceAs (Decidable (_ → _ → ∀ call ∈ c.calls, _))

end Statement

section Status

/-- The status once all actions are done. -/
def settled (s : Supervisor) : SupervisorStatus :=
  s.todo.foldl (fun status action =>
    match action with
    | .setStatus next => next
    | _ => status) s.status

/-- A supervisor that shows `Connected` also shows the generation of its session. -/
structure Tracks (s : Supervisor) : Prop where
  published : s.published = s.generation ∨ s.status ≠ .connected ∧ ∃ rest, s.todo = .publishGeneration :: rest
  session : settled s = .connected → ∃ events, s.phase = .session events

variable {policy : ReconnectPolicy} {s : Supervisor} {poll : Poll}

theorem Tracks.published_of_connected (tracks : Tracks s) (connected : s.status = .connected) :
    s.published = s.generation := by
  rcases tracks.published with same | ⟨other, _⟩
  · exact same
  · exact absurd connected other

theorem Tracks.published_of_idle (tracks : Tracks s) (idle : s.todo = []) : s.published = s.generation := by
  rcases tracks.published with same | ⟨_, rest, next⟩
  · exact same
  · rw [idle] at next
    cases next

/-- Outside a session the status is not `Connected`, once it has settled. -/
theorem Tracks.not_connected (tracks : Tracks s) (outside : ∀ events, s.phase ≠ .session events) :
    settled s ≠ .connected := by
  intro connected
  obtain ⟨events, session⟩ := tracks.session connected
  exact outside events session

private theorem settled_idle (idle : s.todo = []) : settled s = s.status := by
  rw [settled, idle]
  rfl

theorem Tracks.perform (tracks : Tracks s) {action : Action} {rest : List Action} (next : s.todo = action :: rest)
    (now : ℕ) : Tracks ({ s with todo := rest }.perform now action) := by
  obtain ⟨published, session⟩ := tracks
  rw [settled, next] at session
  rw [next] at published
  cases action with
  | publishGeneration => exact ⟨.inl rfl, session⟩
  | rejectQueuedCommands error =>
    have same : s.published = s.generation := by simpa using published
    rw [Supervisor.perform]
    split
    all_goals exact ⟨.inl same, session⟩
  | _ =>
    have same : s.published = s.generation := by simpa using published
    exact ⟨.inl same, session⟩

private theorem settled_handleFailure (s : Supervisor) (error : MineRiderError) :
    settled (s.handleFailure policy error) ≠ .connected := by
  rw [Supervisor.handleFailure]
  split_ifs
  · simp [settled, Supervisor.finish, Supervisor.enter]
  · simp [settled, Supervisor.finish, Supervisor.enter]
  · simp [settled, Supervisor.enter]

private theorem published_handleFailure (policy : ReconnectPolicy) (s : Supervisor) (error : MineRiderError) :
    (s.handleFailure policy error).published = s.published ∧
      (s.handleFailure policy error).generation = s.generation := by
  rw [Supervisor.handleFailure]
  split_ifs
  all_goals exact ⟨rfl, rfl⟩

/-- A decision publishes nothing, and only a connection leads to a new generation. -/
theorem Tracks.resumes (tracks : Tracks s) (idle : s.todo = []) {next : Supervisor}
    (resumes : Resumes policy s poll next) : Tracks next ∧ next.published = s.published := by
  have same := tracks.published_of_idle idle
  cases resumes with
  | stay => exact ⟨tracks, rfl⟩
  | cancel _ => exact ⟨⟨.inl same, by simp [settled, Supervisor.stopByCancellation, Supervisor.finish,
      Supervisor.enter, idle]⟩, rfl⟩
  | start _ => exact ⟨⟨.inl same, by simp [settled, Supervisor.enter, idle]⟩, rfl⟩
  | turnAway _ _ => exact ⟨⟨.inl same, tracks.session⟩, rfl⟩
  | connect connecting =>
    have outside := tracks.not_connected (by simp [connecting])
    rw [settled_idle idle] at outside
    refine ⟨⟨.inr ⟨outside, ?_⟩, fun _ => ⟨_, rfl⟩⟩, rfl⟩
    simp [Supervisor.enter, idle]
  | @refuse error _ _ _ =>
    obtain ⟨published, generation⟩ := published_handleFailure policy s error
    exact ⟨⟨.inl (by rw [published, generation, same]), fun connected =>
      absurd connected (settled_handleFailure s error)⟩, published⟩
  | progress _ _ | relay _ _ => exact ⟨⟨.inl same, fun _ => ⟨_, rfl⟩⟩, rfl⟩
  | forward _ _ _ =>
    rw [Supervisor.forward]
    split_ifs
    all_goals exact ⟨⟨.inl same, fun _ => ⟨_, rfl⟩⟩, rfl⟩
  | finish _ _ _ =>
    rw [Supervisor.endSession]
    refine ⟨⟨.inl ?_, fun connected => absurd connected (settled_handleFailure _ _)⟩, (published_handleFailure _ _ _).1⟩
    rw [(published_handleFailure _ _ _).1, (published_handleFailure _ _ _).2]
    exact same
  | retry waiting =>
    have outside := tracks.not_connected (by simp [waiting])
    rw [settled_idle idle] at outside
    exact ⟨⟨.inl same, by simp [settled, Supervisor.enter, idle, outside]⟩, rfl⟩

theorem Tracks.step_poll (tracks : Tracks s) : Tracks (s.step policy (.poll poll)) := by
  apply poll_cases Tracks
  · intro action rest next
    exact tracks.perform next poll.now
  · intro next idle resumes
    exact (tracks.resumes idle resumes).1

/-- Only the action of that name publishes a generation. -/
theorem published_step_poll (tracks : Tracks s) (quiet : s.todo.head? ≠ some .publishGeneration) :
    (s.step policy (.poll poll)).published = s.published := by
  apply poll_cases fun next => next.published = s.published
  · intro action rest next
    rw [next] at quiet
    cases action with
    | publishGeneration => exact absurd rfl quiet
    | rejectQueuedCommands error =>
      rw [Supervisor.perform]
      split
      · rfl
      · rfl
    | _ => rfl
  · intro next idle resumes
    exact (tracks.resumes idle resumes).2

end Status

section System

/-- The generation a call has read is that of the session it has seen. -/
structure Inv (c : Supervised) : Prop where
  tracks : Tracks c.supervisor
  checked : ∀ call ∈ c.calls, call.stage = .checked → c.supervisor.published = call.observed
  stamped : ∀ call ∈ c.calls, ∀ generation, call.stage = .stamped generation → generation = call.observed
  entered : ∀ command ∈ c.entered, ∀ call, c.calls[command.caller]? = some call → command.generation = call.observed

variable {policy : ReconnectPolicy} {c : Supervised} {caller : ℕ} {call : Call}

theorem Inv.new : Inv .new where
  tracks := ⟨.inl rfl, nofun⟩
  checked _ member := absurd member not_mem_nil
  stamped _ member := absurd member not_mem_nil
  entered _ member := absurd member not_mem_nil

section

variable (inv : Inv c)

include inv

/-- A call moves on, and keeps what it has seen. -/
theorem Inv.setCall (found : c.calls[caller]? = some call) {next : Call}
    (observed : next.observed = call.observed) (unchecked : next.stage ≠ .checked)
    (stamped : ∀ generation, next.stage = .stamped generation → generation = next.observed) :
    Inv (c.setCall caller next) where
  tracks := inv.tracks
  checked other member isChecked := by
    rcases mem_or_eq_of_mem_set member with old | rfl
    · exact inv.checked other old isChecked
    · exact absurd isChecked unchecked
  stamped other member generation isStamped := by
    rcases mem_or_eq_of_mem_set member with old | rfl
    · exact inv.stamped other old generation isStamped
    · exact stamped generation isStamped
  entered command member other lookup := by
    simp only [Supervised.setCall, lookup_set found] at lookup
    by_cases same : command.caller = caller
    · rw [if_pos same] at lookup
      cases lookup
      rw [observed]
      exact inv.entered command member call (same ▸ found)
    · rw [if_neg same] at lookup
      exact inv.entered command member other lookup

/-- A command enters the queue with the generation its call has read. -/
theorem Inv.enter {command : QueuedCommand} (found : c.calls[command.caller]? = some call)
    (seen : command.generation = call.observed) : Inv { c with
      supervisor := { c.supervisor with commands := c.supervisor.commands ++ [command] },
      entered := c.entered ++ [command] } where
  tracks := ⟨inv.tracks.published, inv.tracks.session⟩
  checked := inv.checked
  stamped := inv.stamped
  entered other member known lookup := by
    rcases mem_concat_iff.mp member with old | rfl
    · exact inv.entered other old known lookup
    · rw [found] at lookup
      cases lookup
      exact seen

/-- A call that is past its place in the queue, or never got one, is not constrained any more. -/
theorem Inv.settle (found : c.calls[caller]? = some call) {next : Call}
    (observed : next.observed = call.observed) (unchecked : next.stage ≠ .checked)
    (unstamped : ∀ generation, next.stage ≠ .stamped generation) : Inv (c.setCall caller next) :=
  inv.setCall found observed unchecked fun generation isStamped => absurd isStamped (unstamped generation)

theorem Inv.resume (found : c.calls[caller]? = some call) : Inv (c.resume policy caller call) := by
  have member := mem_of_getElem? found
  rw [Supervised.resume]
  split
  · rename_i isChecked
    have seen := inv.checked call member isChecked
    rw [Call.readGeneration]
    split_ifs
    · refine inv.setCall found rfl (by simp) ?_
      rintro generation ⟨⟩
      exact seen
    · exact inv.settle found rfl (by simp) (by simp)
  · rename_i generation isStamped
    have seen := inv.stamped call member generation isStamped
    rcases enqueue_cases policy c ⟨caller, generation⟩ call with ⟨error, same⟩ | ⟨_, same⟩
    · rw [same]
      exact inv.settle found rfl (by simp) (by simp)
    · rw [same]
      exact Inv.settle (inv.enter found seen) found rfl (by simp) (by simp)
  · rename_i isWaiting
    rw [Call.receive]
    split
    · exact inv.settle found rfl (by simp) (by simp)
    · exact inv.settle found rfl (by simp [isWaiting]) (by simp [isWaiting])
  · exact inv
  · exact inv

/-- A call sees the session that is running. -/
theorem Inv.begin_call (known : CommandAnswers.Inv c) (command : BotCommand) :
    Inv { c with calls := c.calls ++ [.start c.supervisor command] } where
  tracks := inv.tracks
  checked call member isChecked := by
    rcases mem_concat_iff.mp member with old | rfl
    · exact inv.checked call old isChecked
    · rcases start_stage c.supervisor command with ⟨_, connected⟩ | ⟨result, returned⟩
      · exact inv.tracks.published_of_connected connected
      · rw [returned] at isChecked
        cases isChecked
  stamped call member generation isStamped := by
    rcases mem_concat_iff.mp member with old | rfl
    · exact inv.stamped call old generation isStamped
    · rcases start_stage c.supervisor command with ⟨checked, _⟩ | ⟨result, returned⟩
      · rw [checked] at isStamped
        cases isStamped
      · rw [returned] at isStamped
        cases isStamped
  entered other member call lookup := by
    obtain ⟨old, found, _⟩ := known.past other member
    have inside : other.caller < c.calls.length := (List.getElem?_eq_some_iff.mp found).1
    rw [getElem?_append_left inside] at lookup
    exact inv.entered other member call lookup

theorem Inv.poll_step {poll : Poll} (undisturbed : Undisturbed c (.poll poll)) :
    Inv { c with supervisor := c.supervisor.step policy (.poll poll) } where
  tracks := inv.tracks.step_poll
  checked call member isChecked := by
    have quiet : c.supervisor.todo.head? ≠ some .publishGeneration := by
      intro publishes
      have settled := undisturbed rfl publishes call member
      simp [betweenReads, isChecked] at settled
    rw [published_step_poll inv.tracks quiet]
    exact inv.checked call member isChecked
  stamped := inv.stamped
  entered := inv.entered

theorem Inv.step (known : CommandAnswers.Inv c) {input : SupervisedStep}
    (undisturbed : Undisturbed c input) : Inv (c.step policy input) := by
  cases input with
  | stop => exact ⟨⟨inv.tracks.published, inv.tracks.session⟩, inv.checked, inv.stamped, inv.entered⟩
  | poll poll => exact inv.poll_step undisturbed
  | call command => exact inv.begin_call known command
  | resume caller =>
    rw [Supervised.step]
    split
    · exact inv.resume ‹_›
    · exact inv
  | drop caller =>
    rw [Supervised.step]
    split
    · rename_i found
      rw [Supervised.drop]
      split
      · exact inv.settle found rfl (by simp) (by simp)
      · exact inv
    · exact inv

end

end System

/-- In every run in which no generation is published between the two reads of a call, a command only reaches
the session that its status check saw as connected. -/
theorem command_stays_in_session (policy : ReconnectPolicy) (steps : List SupervisedStep)
    (along : Along (Supervised.step policy) Undisturbed .new steps) : StaysInSession (Supervised.run policy steps) := by
  have kept : ∀ c input, CommandAnswers.Inv c ∧ Inv c → Undisturbed c input →
      CommandAnswers.Inv (c.step policy input) ∧ Inv (c.step policy input) := by
    rintro c input ⟨known, inv⟩ undisturbed
    exact ⟨known.step input, inv.step known undisturbed⟩
  obtain ⟨known, inv⟩ := Along.invariant kept along ⟨CommandAnswers.Inv.new, Inv.new⟩
  intro caller generation call handed found
  exact inv.entered _ (known.ledger.delivered caller generation handed).1 call found

section Reconnect

def idle (polls : ℕ) : List SupervisedStep := List.replicate polls (.poll idlePoll)

/-- The polls of one attempt, from the head of the loop to the first poll of the session. -/
def connects : List SupervisedStep :=
  List.flatten [idle 4, [.poll { idlePoll with connect := some (.ok ()) }], idle 4]

/-- The session ends, and the supervisor waits and retries. -/
def reconnects : List SupervisedStep :=
  List.flatten [[.poll { idlePoll with finished := some (.error .connectionClosed) }], idle 5,
    [.poll { idlePoll with slept := true }], idle 1, connects]

/-- The call reads the status in the first session, and everything else happens in the second. -/
def overtaken : List SupervisedStep :=
  List.flatten [connects, [.call .stop], reconnects, [.resume 0, .resume 0], idle 1]

theorem overtaken_command_changes_session :
    (Supervised.run retrying overtaken).supervisor.forwarded = [(0, 2)] ∧
      ¬StaysInSession (Supervised.run retrying overtaken) := by
  refine ⟨by decide, fun stays => ?_⟩
  have same := stays 0 2 ⟨.stop, .waiting, 1⟩ (by decide) rfl
  exact absurd same (by decide)

/-- Both reads and the hand-over happen in the first session, and the answer is received in the second. -/
def prompt : List SupervisedStep :=
  List.flatten [connects, [.call .stop, .resume 0, .resume 0], idle 1, reconnects, [.resume 0]]

theorem prompt_command_stays_in_session :
    (Supervised.run retrying prompt).supervisor.forwarded = [(0, 1)] ∧
      StaysInSession (Supervised.run retrying prompt) :=
  ⟨by decide, command_stays_in_session retrying prompt (by decide)⟩

end Reconnect

end MineRider.Soundness.CommandSessions
