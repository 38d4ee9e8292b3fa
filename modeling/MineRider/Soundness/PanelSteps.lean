import Mathlib.Logic.Relation
import MineRider.Model.Panel.Calls
import MineRider.Soundness.PanelHandlers

/-! # The steps of the panel

A step of the system is made of a few parts: something is recorded, a call waits, goes on or ends, a child is created
or ends. What holds in every run is proved part by part; first of all that the texts of the manager, and of the calls
that wait to become part of it, meet a standard.
-/

namespace MineRider.Soundness.PanelSteps

open Machine Machine.Js Model.Panel PanelRecords PanelHandlers
open Handler (Within)

section Conditions

variable {N : Type} (host : Host N) (standard : Standard)

def isStart : Call → Bool
  | .start _ _ => true
  | _ => false

/-- The stages of a start at which the time of the run is set. -/
def isTimed : StartStage → Bool
  | .makingLogDir _ => true
  | .writingSession => true
  | .writingLatest => true
  | .writingDiagnostics => true
  | _ => false

def CallMeets (manager : RuntimeManager N) : Call → Prop
  | .start accounts stage =>
    (∀ account ∈ accounts, AccountMeets standard account) ∧ (isTimed stage = true → manager.startedAt.isSome = true)
  | _ => True

/-- All texts of the manager, and of what waits to become part of it. -/
structure SystemMeets (system : System N) : Prop where
  manager : Clean standard system.manager
  calls : ∀ entry ∈ system.calls, CallMeets standard system.manager entry.2

/-- An input whose texts meet the standard. -/
def InputMeets : Input → Prop
  | .startRequested accounts requested =>
    ∀ account ∈ selectAccounts host accounts requested, AccountMeets standard account
  | .stopRequested failure => ∀ message ∈ failure, standard.Plain message
  | .exited _ code signal => ExitMeets standard code signal
  | .failed _ message => standard.text message ∧ standard.Plain message
  | .line _ _ rawLine => LineMeets host standard rawLine
  | _ => True

/-- The parts of a step, a request to start apart. -/
inductive Part (system : System N) : System N → Prop
  | record {manager : RuntimeManager N} (steady : Steady standard system.manager manager) :
      Part system { system with manager }
  | wait {call : Call} (other : isStart call = false) : Part system (system.wait call)
  | moveTo {id : ℕ} {accounts : List AccountConfig} {stage next : StartStage}
      (waits : Map.get system.calls id = some (.start accounts stage))
      (timed : isTimed next = true → system.manager.startedAt.isSome = true) :
      Part system (system.moveTo id (.start accounts next))
  | settle (id : ℕ) : Part system (system.settle id)
  | create {id : ℕ} {accounts : List AccountConfig} {stage : StartStage} (pid : Option ℕ) (life : Life)
      (waits : Map.get system.calls id = some (.start accounts stage)) :
      Part system ((system.create pid life).settle id)
  | died {child : ℕ} (alive : system.life child = some .alive) : Part system (system.setLife child .dead)
  | exited {child : ℕ} {code : Option ℤ} {signal : Option Text} (dead : system.life child = some .dead)
      (fit : ExitMeets standard code signal) :
      Part system (System.setLife child .reported (system.run (handleExit host child code signal)))

/-- What a step does, part by part. -/
abbrev Parts : System N → System N → Prop := Relation.ReflTransGen (Part host standard)

end Conditions

section Steps

variable {N : Type} {host : Host N} {standard : Standard} (meets : Meets host standard) {system : System N}

private theorem checkStart_ok {accounts selected : List AccountConfig} {requested : List Text}
    {manager : RuntimeManager N} (checked : checkStart host accounts requested manager = .ok selected) :
    manager.child = none ∧ selected = selectAccounts host accounts requested := by
  unfold checkStart at checked
  split at checked
  · cases checked
  · rename_i absent
    split at checked
    · cases checked
    · split at checked
      · cases checked
      · cases checked
        exact ⟨by simpa using absent, rfl⟩

include meets in
private theorem continueStart_parts (fit : SystemMeets standard system) {id : ℕ} {accounts : List AccountConfig}
    {stage : StartStage} (waits : Map.get system.calls id = some (.start accounts stage)) (arrival : Arrival) :
    Parts host standard system (system.continueStart host id accounts stage arrival) := by
  obtain ⟨accountsFit, timed⟩ := fit.calls _ (Map.mem_of_get waits)
  unfold System.continueStart
  split
  · exact .single (.settle id)
  · exact .single (.moveTo waits fun late => by cases late)
  · rename_i dir
    have placed : Steady standard system.manager { system.manager with tempDir := some dir } :=
      fun clean => ⟨{ clean with }, rfl, fun started => started⟩
    exact (Relation.ReflTransGen.single (.record placed)).tail (.moveTo waits fun late => by cases late)
  · exact .single (.moveTo waits fun late => by cases late)
  · have steady := resetRun_steady meets accountsFit system.manager
    split
    · rename_i botsDir manager ran
      rw [ran] at steady
      exact (Relation.ReflTransGen.single (.record steady)).tail (.moveTo waits fun _ => resetRun_started ran)
    · rename_i error manager ran
      rw [ran] at steady
      exact (Relation.ReflTransGen.single (.record steady)).tail (.settle id)
  · exact (Relation.ReflTransGen.single (.record (openLogs_steady _ system.manager))).tail
      (.moveTo waits fun _ => timed rfl)
  · exact .single (.moveTo waits fun _ => timed rfl)
  · have steady : Steady standard system.manager _ := writeDiagnostics_steady meets (timed rfl)
    exact (Relation.ReflTransGen.single (.record steady)).tail
      (.moveTo waits fun _ => (steady fit.manager).2.2 (timed rfl))
  · rename_i spawned
    cases spawned with
    | threw => exact .single (.settle id)
    | unstarted => exact .single (.create none .unstarted waits)
    | alive pid => exact .single (.create (some pid) .alive waits)
  · exact .refl

include meets in
/-- A step is a request to start that is granted, or made of other parts. -/
theorem step_parts (fit : SystemMeets standard system) {input : Input} (inputFit : InputMeets host standard input) :
    (∃ accounts requested, input = .startRequested accounts requested ∧ system.manager.child = none ∧
        system.step host input = system.wait (.start (selectAccounts host accounts requested) .building)) ∨
      Parts host standard system (system.step host input) := by
  have recorded : ∀ {α : Type} {action : Action N α}, Within (Steady standard) action →
      Parts host standard system (system.run action) :=
    fun steady => .single (.record (steady system.manager))
  unfold System.step
  cases input with
  | startRequested accounts requested =>
    simp only
    split
    · rename_i selected checked
      obtain ⟨vacant, rfl⟩ := checkStart_ok checked
      exact .inl ⟨accounts, requested, rfl, vacant, rfl⟩
    · exact .inr .refl
  | arrived id arrival =>
    refine .inr ?_
    simp only
    split
    · rename_i accounts stage waits
      exact continueStart_parts meets fit waits arrival
    · exact .refl
  | stopRequested failure =>
    refine .inr ?_
    simp only
    split
    · exact .refl
    · exact (recorded (beginStop_steady meets _ inputFit)).tail (.wait rfl)
  | stopWaited id =>
    refine .inr ?_
    simp only
    split
    · exact (recorded (endStop_steady meets _)).tail (.settle id)
    · exact .refl
  | died child =>
    refine .inr ?_
    simp only
    split
    · rename_i alive
      exact .single (.died alive)
    · exact .refl
  | exited child code signal =>
    refine .inr ?_
    simp only
    split
    · rename_i dead
      have exited : Parts host standard system _ := .single (.exited dead inputFit)
      rw [System.run] at exited
      split
      · rename_i tempDir manager ran
        rw [ran] at exited
        exact exited.tail (.wait rfl)
      · rename_i result manager _ ran
        rw [ran] at exited
        exact exited
    · exact .refl
  | cleaned id =>
    refine .inr ?_
    simp only
    split
    · exact (recorded (emitSnapshot_steady meets)).tail (.settle id)
    · exact .refl
  | failed child message =>
    refine .inr ?_
    simp only
    split
    · exact recorded (handleError_steady meets inputFit.1 inputFit.2)
    · exact .refl
  | line child source rawLine =>
    refine .inr ?_
    simp only
    split
    · exact recorded (handleLine_steady meets source inputFit)
    · exact .refl

end Steps

section Standards

variable {N : Type} {host : Host N} {standard : Standard} {system next : System N}

theorem systemMeets_new : SystemMeets standard (System.new : System N) where
  manager :=
    { startedAt := fun _ member => by cases member
      logDir := fun _ member => by cases member
      names := fun _ member => by cases member
      statuses := fun _ member => by cases member
      accounts := fun _ member => by cases member
      history := fun _ member => by cases member
      lastError := fun _ member => by cases member
      logs := fun _ member => by cases member
      written := fun _ member => by cases member
      emitted := fun _ member => by cases member }
  calls _ member := by cases member

theorem CallMeets.mono {manager next : RuntimeManager N} {call : Call}
    (started : manager.startedAt.isSome = true → next.startedAt.isSome = true) (fit : CallMeets standard manager call) :
    CallMeets standard next call := by
  cases call with
  | start accounts stage => exact ⟨fit.1, fun timed => started (fit.2 timed)⟩
  | stop child | exit tempDir => trivial

theorem SystemMeets.wait (fit : SystemMeets standard system) {call : Call}
    (callFit : CallMeets standard system.manager call) : SystemMeets standard (system.wait call) where
  manager := fit.manager
  calls := List.forall_mem_concat.mpr ⟨fit.calls, callFit⟩

variable (meets : Meets host standard)

include meets in
private theorem part_meets (fit : SystemMeets standard system) (part : Part host standard system next) :
    SystemMeets standard next := by
  cases part with
  | record steady =>
    obtain ⟨clean, _, started⟩ := steady fit.manager
    exact ⟨clean, fun entry member => (fit.calls entry member).mono started⟩
  | @wait call other =>
    refine fit.wait ?_
    cases call with
    | start => cases other
    | stop | exit => trivial
  | moveTo waits timed =>
    refine ⟨fit.manager, fun entry member => ?_⟩
    rcases Map.mem_set member with rfl | old
    · exact ⟨(fit.calls _ (Map.mem_of_get waits)).1, timed⟩
    · exact fit.calls entry old
  | settle id => exact ⟨fit.manager, fun entry member => fit.calls entry (List.mem_filter.mp member).1⟩
  | create pid life waits =>
    obtain ⟨clean, _, started⟩ := recordChild_clean meets ⟨system.nextChild, pid⟩ fit.manager
    exact ⟨clean, fun entry member => (fit.calls entry (List.mem_filter.mp member).1).mono started⟩
  | died alive => exact ⟨fit.manager, fit.calls⟩
  | exited dead exitFit =>
    obtain ⟨clean, _, started⟩ := handleExit_clean meets exitFit fit.manager
    exact ⟨clean, fun entry member => (fit.calls entry member).mono started⟩

include meets in
theorem step_meets (fit : SystemMeets standard system) {input : Input} (inputFit : InputMeets host standard input) :
    SystemMeets standard (system.step host input) := by
  rcases step_parts meets fit inputFit with ⟨accounts, requested, rfl, _, step⟩ | parts
  · rw [step]
    exact fit.wait ⟨inputFit, fun late => by cases late⟩
  · generalize system.step host input = next at parts ⊢
    induction parts with
    | refl => exact fit
    | tail _ part ih => exact part_meets meets ih part

end Standards

end MineRider.Soundness.PanelSteps
