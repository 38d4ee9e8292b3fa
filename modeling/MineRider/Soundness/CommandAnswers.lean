import MineRider.Machine.Callers
import MineRider.Model.Core.SendCommand
import MineRider.Soundness.SupervisorMoves

/-! # Every command is answered once

The desk of a supervisor is its part in the commands: the queue, the answers and the commands handed to
a session. `step_serves` says once what a poll can do at the desk. From that, the commands that have
entered the queue are at every moment exactly those waiting in it and those answered, each once; the
receiver is dropped before `run` is over, and leaves nobody waiting.
-/

namespace MineRider.Soundness.CommandAnswers

open List Model.Core Model.Minecraft Machine SupervisorMoves

section Serves

structure Desk where
  commands : List QueuedCommand
  answers : List (ℕ × Except ControlError Unit)
  forwarded : List (ℕ × ℕ)
  closed : Bool

def desk (s : Supervisor) : Desk := ⟨s.commands, s.answers, s.forwarded, s.closed⟩

/-- What one poll can do at the desk. -/
inductive Serves (s : Supervisor) : Desk → Prop
  | idle : Serves s (desk s)
  | reject {command : QueuedCommand} {rest : List QueuedCommand} {error : ControlError}
      (next : s.commands = command :: rest) :
      Serves s { desk s with commands := rest, answers := s.answers ++ [(command.caller, .error error)] }
  | deliver {command : QueuedCommand} {rest : List QueuedCommand} (next : s.commands = command :: rest)
      (current : command.generation = s.generation) :
      Serves s { desk s with
        commands := rest,
        answers := s.answers ++ [(command.caller, .ok ())],
        forwarded := s.forwarded ++ [(command.caller, command.generation)] }
  | drop : Serves s { desk s with
      commands := [],
      answers := s.answers ++ s.commands.map fun command => (command.caller, .error .supervisorStopped),
      closed := true }

variable {policy : ReconnectPolicy} {s : Supervisor} {poll : Poll}

private theorem desk_handleFailure (s : Supervisor) (error : MineRiderError) :
    desk (s.handleFailure policy error) = desk s := by
  rw [Supervisor.handleFailure]
  split_ifs
  · rfl
  · rfl
  · rfl

private theorem perform_serves (rest : List Action) (now : ℕ) (action : Action) :
    Serves s (desk ({ s with todo := rest }.perform now action)) := by
  cases action with
  | rejectQueuedCommands error =>
    rw [Supervisor.perform]
    split
    · exact .idle
    · rename_i next
      exact .reject next
  | dropReceiver => exact .drop
  | _ => exact .idle

private theorem forward_serves {command : QueuedCommand} {rest : List QueuedCommand}
    (next : s.commands = command :: rest) :
    Serves s (desk ({ s with commands := rest }.forward poll command)) := by
  by_cases current : command.generation = s.generation
  · by_cases taken : poll.controlOpen
    · have delivered := Serves.deliver next current
      simpa [Supervisor.forward, Supervisor.answer, desk, current, taken] using delivered
    · have refused := @Serves.reject s command rest .disconnected next
      simpa [Supervisor.forward, Supervisor.answer, desk, current, taken] using refused
  · have refused := @Serves.reject s command rest .sessionReplaced next
    simpa [Supervisor.forward, Supervisor.answer, desk, current] using refused

/-- The desk does not depend on what the session emits. -/
theorem Serves.of_progress {events : Machine.Receiver PlayEvent} {emitted : List PlayEvent} {d : Desk}
    (serves : Serves (s.progress events emitted) d) : Serves s d := by
  cases serves with
  | idle => exact .idle
  | reject next => exact .reject next
  | deliver next current => exact .deliver next current
  | drop => exact .drop

/-- Every poll serves the desk in one of these ways. -/
theorem step_serves (policy : ReconnectPolicy) (s : Supervisor) (poll : Poll) :
    Serves s (desk (s.step policy (.poll poll))) := by
  apply poll_cases fun next => Serves s (desk next)
  · intro action rest _
    exact perform_serves rest poll.now action
  · intro next _ resumes
    cases resumes with
    | turnAway _ waits => exact .reject waits
    | @forward events _ _ _ _ waits =>
      exact (forward_serves (s := s.progress events poll.emitted) waits).of_progress
    | refuse _ _ _ =>
      rw [desk_handleFailure]
      exact .idle
    | finish _ _ _ =>
      rw [Supervisor.endSession, desk_handleFailure]
      exact .idle
    | _ => exact .idle

end Serves

section Closing

/-- A run that has made up its mind to return has dropped the receiver, or is going to. -/
def Closes (s : Supervisor) : Prop :=
  ∀ outcome, s.phase = .done outcome → s.closed = true ∨ Action.dropReceiver ∈ s.todo

variable {policy : ReconnectPolicy} {s : Supervisor} {poll : Poll}

theorem Closes.finish (s : Supervisor) (outcome : SupervisorOutcome) (actions : List Action) :
    Closes (s.finish outcome actions) := by
  intro _ _
  simp [Supervisor.finish, Supervisor.enter]

theorem Closes.running (running : ∀ outcome, s.phase ≠ .done outcome) : Closes s :=
  fun outcome finished => absurd finished (running outcome)

theorem Closes.handleFailure (s : Supervisor) (error : MineRiderError) : Closes (s.handleFailure policy error) := by
  rw [Supervisor.handleFailure]
  split_ifs
  · exact .finish _ _ _
  · exact .finish _ _ _
  · exact .running fun _ => Phase.noConfusion

theorem Closes.perform {action : Action} {rest : List Action} (closes : Closes s) (next : s.todo = action :: rest)
    (now : ℕ) : Closes ({ s with todo := rest }.perform now action) := by
  intro outcome finished
  cases action with
  | dropReceiver => exact .inl rfl
  | rejectQueuedCommands error =>
    rw [Supervisor.perform] at finished ⊢
    split at finished
    · simpa [next] using closes outcome finished
    · rcases closes outcome finished with closed | drops
      · exact .inl closed
      · right
        simpa [next, Supervisor.answer] using drops
  | _ => simpa [next, Supervisor.perform, Supervisor.emit] using closes outcome finished

theorem Closes.step_poll (closes : Closes s) : Closes (s.step policy (.poll poll)) := by
  apply poll_cases Closes
  · intro action rest next
    exact closes.perform next poll.now
  · intro next _ resumes
    cases resumes with
    | stay => exact closes
    | cancel _ => exact .finish _ _ _
    | turnAway outside _ =>
      apply Closes.running
      rcases outside with connecting | waiting
      · simp [Supervisor.answer, connecting]
      · simp [Supervisor.answer, waiting]
    | refuse _ _ _ | finish _ _ _ => exact .handleFailure _ _
    | forward _ _ _ =>
      rw [Supervisor.forward]
      split_ifs
      all_goals exact .running fun _ => Phase.noConfusion
    | _ => exact .running fun _ => Phase.noConfusion

end Closing

section Ledger

/-- The commands that have entered the queue are those waiting in it and those answered. -/
structure Ledger (entered : List QueuedCommand) (d : Desk) : Prop where
  nodup : (entered.map QueuedCommand.caller).Nodup
  accounted : (d.commands.map QueuedCommand.caller ++ d.answers.map Prod.fst).Perm
    (entered.map QueuedCommand.caller)
  queued : ∀ command ∈ d.commands, command ∈ entered
  delivered : ∀ caller generation, (caller, generation) ∈ d.forwarded →
    ⟨caller, generation⟩ ∈ entered ∧ (caller, .ok ()) ∈ d.answers
  handed_once : (d.forwarded.map Prod.fst).Nodup
  handed : ∀ caller, (caller, .ok ()) ∈ d.answers → ∃ generation, (caller, generation) ∈ d.forwarded
  closed : d.closed = true → d.commands = []

variable {entered : List QueuedCommand} {d : Desk} {s : Supervisor}

/-- Nobody is answered twice, or answered while waiting in the queue. -/
theorem Ledger.disjoint (ledger : Ledger entered d) :
    (d.commands.map QueuedCommand.caller ++ d.answers.map Prod.fst).Nodup := ledger.accounted.nodup_iff.mpr ledger.nodup

variable {command : QueuedCommand}

theorem Ledger.unanswered (ledger : Ledger entered d) (queued : command ∈ d.commands) :
    command.caller ∉ d.answers.map Prod.fst := by
  intro answered
  exact disjoint_of_nodup_append ledger.disjoint (mem_map_of_mem queued) answered

/-- Answering the oldest command moves its caller from the queue to the answers. -/
theorem accounted_answer {rest : List QueuedCommand}
    {answers : List (ℕ × Except ControlError Unit)} {callers : List ℕ} (result : Except ControlError Unit)
    (accounted : ((command :: rest).map QueuedCommand.caller ++ answers.map Prod.fst).Perm callers) :
    (rest.map QueuedCommand.caller ++ (answers ++ [(command.caller, result)]).map Prod.fst).Perm callers := by
  refine List.Perm.trans ?_ accounted
  rw [map_append, ← append_assoc]
  exact perm_append_singleton _ _

section

variable (ledger : Ledger entered (desk s))

include ledger

section

variable {command : QueuedCommand} {rest : List QueuedCommand} (next : s.commands = command :: rest)

include next

theorem Ledger.reject (error : ControlError) :
    Ledger entered { desk s with commands := rest, answers := s.answers ++ [(command.caller, .error error)] } where
  nodup := ledger.nodup
  accounted := accounted_answer _ (next ▸ ledger.accounted)
  queued other member := ledger.queued other (by rw [desk, next]; exact mem_cons_of_mem _ member)
  delivered caller generation member := by
    obtain ⟨known, answered⟩ := ledger.delivered caller generation member
    exact ⟨known, mem_append_left _ answered⟩
  handed_once := ledger.handed_once
  handed caller answered := by
    rcases mem_concat_iff.mp answered with old | new
    · exact ledger.handed caller old
    · cases new
  closed isClosed := by
    have empty : s.commands = [] := ledger.closed isClosed
    rw [next] at empty
    cases empty

theorem Ledger.deliver :
    Ledger entered { desk s with
      commands := rest,
      answers := s.answers ++ [(command.caller, .ok ())],
      forwarded := s.forwarded ++ [(command.caller, command.generation)] } := by
  have waits : command ∈ (desk s).commands := by
    rw [desk, next]
    exact mem_cons_self
  refine ⟨ledger.nodup, accounted_answer _ (next ▸ ledger.accounted), ?_, ?_, ?_, ?_, ?_⟩
  · intro other member
    exact ledger.queued other (by rw [desk, next]; exact mem_cons_of_mem _ member)
  · intro caller generation member
    rcases mem_concat_iff.mp member with old | new
    · obtain ⟨known, answered⟩ := ledger.delivered caller generation old
      exact ⟨known, mem_append_left _ answered⟩
    · cases new
      exact ⟨ledger.queued command waits, mem_append_right _ mem_cons_self⟩
  · -- Whoever was handed over before has been answered, and the oldest command has not.
    rw [map_append, map_singleton, nodup_append]
    refine ⟨ledger.handed_once, nodup_singleton _, ?_⟩
    rintro caller member _ single rfl
    obtain ⟨⟨_, generation⟩, old, rfl⟩ := mem_map.mp member
    have answered := mem_map_of_mem (f := Prod.fst) (ledger.delivered _ generation old).2
    rw [mem_singleton.mp single] at answered
    exact ledger.unanswered waits answered
  · intro caller answered
    rcases mem_concat_iff.mp answered with old | new
    · obtain ⟨generation, handed⟩ := ledger.handed caller old
      exact ⟨generation, mem_append_left _ handed⟩
    · cases new
      exact ⟨command.generation, mem_append_right _ mem_cons_self⟩
  · intro isClosed
    have empty : s.commands = [] := ledger.closed isClosed
    rw [next] at empty
    cases empty

end

theorem Ledger.drop : Ledger entered { desk s with
    commands := [],
    answers := s.answers ++ s.commands.map fun command => (command.caller, .error .supervisorStopped),
    closed := true } where
  nodup := ledger.nodup
  accounted := by
    refine List.Perm.trans ?_ ledger.accounted
    simp only [map_nil, nil_append, map_append, map_map]
    exact perm_append_comm
  queued := nofun
  delivered caller generation member := by
    obtain ⟨known, answered⟩ := ledger.delivered caller generation member
    exact ⟨known, mem_append_left _ answered⟩
  handed_once := ledger.handed_once
  handed caller answered := by
    rcases mem_append.mp answered with old | new
    · exact ledger.handed caller old
    · obtain ⟨command, _, same⟩ := mem_map.mp new
      cases same
  closed _ := rfl

/-- What a poll does at the desk keeps the ledger. -/
theorem Ledger.serves (serves : Serves s d) : Ledger entered d := by
  cases serves with
  | idle => exact ledger
  | reject next => exact ledger.reject next _
  | deliver next _ => exact ledger.deliver next
  | drop => exact ledger.drop

end

/-- A new command enters an open queue. -/
theorem Ledger.enter (ledger : Ledger entered d) (isOpen : d.closed = false)
    (fresh : command.caller ∉ entered.map QueuedCommand.caller) :
    Ledger (entered ++ [command]) { d with commands := d.commands ++ [command] } where
  nodup := by
    rw [map_append, map_singleton, nodup_append]
    refine ⟨ledger.nodup, nodup_singleton _, ?_⟩
    rintro caller member _ single rfl
    rw [mem_singleton.mp single] at member
    exact fresh member
  accounted := by
    rw [map_append, map_append, append_assoc]
    refine (List.Perm.append_left _ perm_append_comm).trans ?_
    rw [← append_assoc]
    exact ledger.accounted.append_right _
  queued other member := by
    rcases mem_append.mp member with old | new
    · exact mem_append_left _ (ledger.queued other old)
    · exact mem_append_right _ new
  delivered caller generation member := by
    obtain ⟨known, answered⟩ := ledger.delivered caller generation member
    exact ⟨mem_append_left _ known, answered⟩
  handed_once := ledger.handed_once
  handed := ledger.handed
  closed isClosed := by
    rw [isOpen] at isClosed
    cases isClosed

end Ledger

section System

/-- The call is past the queue, so it will not enter it again. -/
def Past : CallStage → Prop
  | .checked | .stamped _ => False
  | _ => True

structure Inv (c : Supervised) : Prop where
  ledger : Ledger c.entered (desk c.supervisor)
  past : ∀ command ∈ c.entered, ∃ call, c.calls[command.caller]? = some call ∧ Past call.stage
  waiting : ∀ caller call, c.calls[caller]? = some call → call.stage = .waiting →
    caller ∈ c.entered.map QueuedCommand.caller
  closes : Closes c.supervisor

variable {policy : ReconnectPolicy} {c : Supervised} {caller : ℕ} {call : Call}

theorem Inv.new : Inv .new where
  ledger := ⟨nodup_nil, .refl _, nofun, nofun, nodup_nil, nofun, nofun⟩
  past := nofun
  waiting caller call found _ := absurd found (by simp [Supervised.new])
  closes := .running fun _ => Phase.noConfusion

/-- A call moves on without touching the queue. -/
theorem Inv.setCall (inv : Inv c) (found : c.calls[caller]? = some call) {next : Call}
    (past : Past call.stage → Past next.stage) (waiting : next.stage = .waiting → call.stage = .waiting) :
    Inv (c.setCall caller next) := by
  refine ⟨inv.ledger, ?_, ?_, inv.closes⟩
  · intro command member
    obtain ⟨other, known, isPast⟩ := inv.past command member
    simp only [Supervised.setCall, lookup_set found]
    by_cases same : command.caller = caller
    · rw [same, found] at known
      cases known
      exact ⟨next, if_pos same, past isPast⟩
    · exact ⟨other, (if_neg same).trans known, isPast⟩
  · exact Each.set inv.waiting found fun waits => inv.waiting caller call found (waiting waits)

/-- A command is turned away, or enters an open queue. -/
theorem enqueue_cases (policy : ReconnectPolicy) (c : Supervised) (command : QueuedCommand) (call : Call) :
    (∃ error, c.enqueue policy command call =
        c.setCall command.caller { call with stage := .returned (.error error) }) ∨
      c.supervisor.closed = false ∧ c.enqueue policy command call =
        { c with
          supervisor := { c.supervisor with commands := c.supervisor.commands ++ [command] },
          entered := c.entered ++ [command] }.setCall command.caller { call with stage := .waiting } := by
  by_cases closed : c.supervisor.closed
  · exact Or.inl ⟨.supervisorStopped, by simp [Supervised.enqueue, Call.trySend, Supervisor.step, closed]⟩
  · by_cases full : c.supervisor.commands.length ≥ commandChannelCapacity
    · exact Or.inl ⟨.queueFull, by simp [Supervised.enqueue, Call.trySend, Supervisor.step, closed, full]⟩
    · exact Or.inr ⟨by simpa using closed, by simp [Supervised.enqueue, Call.trySend, Supervisor.step, closed, full]⟩

/-- A call whose generation is read has not entered the queue. -/
theorem Inv.fresh (inv : Inv c) (found : c.calls[caller]? = some call) {generation : ℕ}
    (stamped : call.stage = .stamped generation) : caller ∉ c.entered.map QueuedCommand.caller := by
  intro member
  obtain ⟨command, known, rfl⟩ := mem_map.mp member
  obtain ⟨other, lookup, isPast⟩ := inv.past command known
  rw [found] at lookup
  cases lookup
  rw [stamped] at isPast
  exact isPast

theorem Inv.enter (inv : Inv c) {command : QueuedCommand} (found : c.calls[command.caller]? = some call)
    (isOpen : c.supervisor.closed = false) (fresh : command.caller ∉ c.entered.map QueuedCommand.caller) :
    Inv ({ c with
      supervisor := { c.supervisor with commands := c.supervisor.commands ++ [command] },
      entered := c.entered ++ [command] }.setCall command.caller { call with stage := .waiting }) := by
  refine ⟨inv.ledger.enter isOpen fresh, ?_, ?_, inv.closes⟩
  · intro other member
    simp only [Supervised.setCall, lookup_set found]
    by_cases same : other.caller = command.caller
    · exact ⟨_, if_pos same, trivial⟩
    · rcases mem_concat_iff.mp member with old | rfl
      · obtain ⟨known, lookup, isPast⟩ := inv.past other old
        exact ⟨known, (if_neg same).trans lookup, isPast⟩
      · exact absurd rfl same
  · have still : ∀ caller ∈ c.entered.map QueuedCommand.caller,
        caller ∈ (c.entered ++ [command]).map QueuedCommand.caller := by simp +contextual
    exact (Each.mono inv.waiting fun _ _ _ known waits => still _ (known waits)).set found fun _ => by simp

theorem Inv.resume (inv : Inv c) (found : c.calls[caller]? = some call) : Inv (c.resume policy caller call) := by
  rw [Supervised.resume]
  split
  · rename_i checked
    apply inv.setCall found
    · simp [checked, Past]
    · rw [Call.readGeneration]
      split_ifs
      · exact nofun
      · exact nofun
  · rename_i generation stamped
    rcases enqueue_cases policy c ⟨caller, generation⟩ call with ⟨error, same⟩ | ⟨isOpen, same⟩
    · rw [same]
      exact inv.setCall found (fun _ => trivial) nofun
    · rw [same]
      exact inv.enter found isOpen (inv.fresh found stamped)
  · rename_i waiting
    apply inv.setCall found
    · rw [Call.receive]
      split
      · exact fun _ => trivial
      · exact id
    · exact fun _ => waiting
  · exact inv
  · exact inv

theorem Inv.drop (inv : Inv c) (found : c.calls[caller]? = some call) : Inv (c.drop caller call) := by
  rw [Supervised.drop]
  split
  · exact inv.setCall found (fun _ => trivial) nofun
  · exact inv

/-- A call has seen the supervisor connected, or is over. -/
theorem start_stage (s : Supervisor) (command : BotCommand) :
    (Call.start s command).stage = .checked ∧ s.status = .connected ∨
      ∃ result, (Call.start s command).stage = .returned result := by
  rw [Call.start]
  split
  · exact .inr ⟨_, rfl⟩
  · split
    · rename_i connected
      exact .inl ⟨rfl, connected⟩
    all_goals exact .inr ⟨_, rfl⟩

/-- A new call has not entered the queue. -/
theorem Inv.begin_call (inv : Inv c) (command : BotCommand) :
    Inv { c with calls := c.calls ++ [.start c.supervisor command] } := by
  refine ⟨inv.ledger, ?_, ?_, inv.closes⟩
  · intro known member
    obtain ⟨other, lookup, isPast⟩ := inv.past known member
    have inside : known.caller < c.calls.length := (List.getElem?_eq_some_iff.mp lookup).1
    exact ⟨other, (getElem?_append_left inside).trans lookup, isPast⟩
  · refine Each.snoc inv.waiting fun waits => ?_
    rcases start_stage c.supervisor command with ⟨checked, _⟩ | ⟨result, returned⟩
    · rw [checked] at waits
      cases waits
    · rw [returned] at waits
      cases waits

theorem Inv.step (inv : Inv c) (input : SupervisedStep) : Inv (c.step policy input) := by
  cases input with
  | stop => exact ⟨inv.ledger, inv.past, inv.waiting, inv.closes⟩
  | poll poll => exact ⟨inv.ledger.serves (step_serves policy _ poll), inv.past, inv.waiting, inv.closes.step_poll⟩
  | call command => exact inv.begin_call command
  | resume caller =>
    rw [Supervised.step]
    split
    · exact inv.resume ‹_›
    · exact inv
  | drop caller =>
    rw [Supervised.step]
    split
    · exact inv.drop ‹_›
    · exact inv

theorem run_inv (policy : ReconnectPolicy) (steps : List SupervisedStep) : Inv (Supervised.run policy steps) :=
  List.foldlRecOn steps _ .new fun _ inv input _ => inv.step input

end System

section Answered

/-- What callers can rely on. -/
structure Answered (c : Supervised) : Prop where
  once : ∀ command ∈ c.entered, (c.supervisor.answers.map Prod.fst).count command.caller ≤ 1
  /-- After `run` has returned everyone has an answer, which whoever waits finds, and nobody starts to wait. -/
  served : (∃ outcome, Returned c.supervisor outcome) →
    (∀ command ∈ c.entered, ∃ result, (command.caller, result) ∈ c.supervisor.answers) ∧
    (∀ caller (call : Call), c.calls[caller]? = some call → call.stage = .waiting →
      ∃ result, call.receive c.supervisor caller = { call with stage := .returned result }) ∧
    ∀ call : Call, (call.trySend c.supervisor).stage = .returned (.error .supervisorStopped)
  delivered : ∀ caller, (caller, .ok ()) ∈ c.supervisor.answers →
    ∃ generation, ⟨caller, generation⟩ ∈ c.entered ∧ (caller, generation) ∈ c.supervisor.forwarded
  handed_once : ∀ command ∈ c.entered, (c.supervisor.forwarded.map Prod.fst).count command.caller ≤ 1

variable {c : Supervised}

theorem Inv.closed (inv : Inv c) (returned : ∃ outcome, Returned c.supervisor outcome) :
    c.supervisor.closed = true := by
  obtain ⟨outcome, finished, idle⟩ := returned
  rcases inv.closes outcome finished with closed | drops
  · exact closed
  · rw [idle] at drops
    cases drops

/-- Nothing waits in a closed queue, so everyone who entered it is answered. -/
theorem Inv.answered (inv : Inv c) (closed : c.supervisor.closed = true) {caller : ℕ}
    (entered : caller ∈ c.entered.map QueuedCommand.caller) : ∃ result, (caller, result) ∈ c.supervisor.answers := by
  have empty : c.supervisor.commands = [] := inv.ledger.closed closed
  have member := inv.ledger.accounted.mem_iff.mpr entered
  rw [desk, empty] at member
  obtain ⟨⟨_, result⟩, answer, rfl⟩ := mem_map.mp member
  exact ⟨result, answer⟩

private theorem receive_of_answer {caller : ℕ} {result : Except ControlError Unit} {s : Supervisor} (call : Call)
    (answer : (caller, result) ∈ s.answers) :
    ∃ first, call.receive s caller = { call with stage := .returned first } := by
  rw [Call.receive]
  split
  · exact ⟨_, rfl⟩
  · rename_i absent
    have other := find?_eq_none.mp absent _ answer
    simp at other

/-- In every run of any number of callers beside the supervisor, every command is answered at most once and
nobody is left waiting; the answer is `Ok` only for a command handed to the session it is stamped with. -/
theorem commands_are_answered (policy : ReconnectPolicy) (steps : List SupervisedStep) :
    Answered (Supervised.run policy steps) := by
  have inv := run_inv policy steps
  have answers_nodup := (nodup_append.mp inv.ledger.disjoint).2.1
  refine ⟨fun _ _ => nodup_iff_count_le_one.mp answers_nodup _, fun returned => ⟨?_, ?_, ?_⟩, ?_,
    fun _ _ => nodup_iff_count_le_one.mp inv.ledger.handed_once _⟩
  · intro command member
    exact inv.answered (inv.closed returned) (mem_map_of_mem member)
  · intro caller call found waits
    obtain ⟨result, answer⟩ := inv.answered (inv.closed returned) (inv.waiting caller call found waits)
    exact receive_of_answer call answer
  · simp [Call.trySend, inv.closed returned]
  · intro caller answered
    obtain ⟨generation, handed⟩ := inv.ledger.handed caller answered
    exact ⟨generation, (inv.ledger.delivered caller generation handed).1, handed⟩

end Answered

end MineRider.Soundness.CommandAnswers
