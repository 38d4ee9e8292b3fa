import MineRider.Model.Panel.Runtime

/-! # Calls to the runtime manager

The requests of the panel's users and the events of its child processes, interleaved. The panel runs on one thread:
what a call does between two waits is one step, and any other step may come in while it waits. A call that waits is
listed with the place where it does; what it waited for arrives with the step that lets it go on. A process that was
started lives until it dies, which the manager learns from a later event.
-/

namespace MineRider.Model.Panel

open Machine.Js

/-- Where a call of `start` waits, `initialize_logs` included. -/
inductive StartStage where
  | building
  | makingDir
  | writingScript
  | resolving
  | makingLogDir (botsDir : Text)
  | writingSession
  | writingLatest
  | writingDiagnostics

/-- A call that waits. -/
inductive Call where
  | start (accounts : List AccountConfig) (stage : StartStage)
  | stop (child : ℕ)
  | exit (tempDir : Option Text)

/-- What becomes of a child: a dead process is first alive and later reported. -/
inductive Life where
  | alive
  | dead
  | reported
  | unstarted
deriving DecidableEq, Repr

/-- What `spawn` does: it can throw, or return a child without a process. -/
inductive Spawned where
  | threw
  | unstarted
  | alive (pid : ℕ)
deriving DecidableEq, Repr

/-- What arrives at a call of `start` that waits. The last wait is followed by `spawn`. -/
inductive Arrival where
  | rejected
  | fulfilled
  | directory (dir : Text)
  | spawned (spawned : Spawned)

inductive Input where
  | startRequested (accounts : List AccountConfig) (requested : List Text)
  | arrived (call : ℕ) (arrival : Arrival)
  | stopRequested (failure : Option Text)
  | stopWaited (call : ℕ)
  | died (child : ℕ)
  | exited (child : ℕ) (code : Option ℤ) (signal : Option Text)
  | cleaned (call : ℕ)
  | failed (child : ℕ) (message : Text)
  | line (child : ℕ) (source : Source) (rawLine : Text)

/-- The manager, the calls that wait and the children that were created. -/
structure System (N : Type) where
  manager : RuntimeManager N
  calls : Map ℕ Call
  nextCall : ℕ
  children : Map ℕ Life
  nextChild : ℕ

namespace System

variable {N : Type} (host : Host N)

def new : System N := ⟨.new, [], 0, [], 0⟩

section Parts

/-- Runs a part of a call. -/
def run {α : Type} (action : Action N α) (system : System N) : System N :=
  { system with manager := (action system.manager).2 }

/-- A new call waits. -/
def wait (call : Call) (system : System N) : System N :=
  { system with calls := system.calls ++ [(system.nextCall, call)], nextCall := system.nextCall + 1 }

/-- A call waits at another place. -/
def moveTo (id : ℕ) (call : Call) (system : System N) : System N := { system with calls := system.calls.set id call }

def settle (id : ℕ) (system : System N) : System N := { system with calls := system.calls.filter (·.1 ≠ id) }

def life (system : System N) (child : ℕ) : Option Life := Map.get system.children child

def setLife (child : ℕ) (life : Life) (system : System N) : System N :=
  { system with children := system.children.set child life }

def create (pid : Option ℕ) (life : Life) (system : System N) : System N :=
  { run (recordChild ⟨system.nextChild, pid⟩) system with
    children := system.children ++ [(system.nextChild, life)]
    nextChild := system.nextChild + 1 }

/-- The end of `start`, from `spawn` on. -/
def spawn (system : System N) : Spawned → System N
  | .threw => system
  | .unstarted => create none .unstarted system
  | .alive pid => create (some pid) .alive system

/-- A call of `start` goes on. An arrival that does not belong to the place where it waits does not occur. -/
def continueStart (id : ℕ) (accounts : List AccountConfig) (system : System N) : StartStage → Arrival → System N
  | _, .rejected => settle id system
  | .building, .fulfilled => moveTo id (.start accounts .makingDir) system
  | .makingDir, .directory dir =>
    moveTo id (.start accounts .writingScript) { system with manager := { system.manager with tempDir := some dir } }
  | .writingScript, .fulfilled => moveTo id (.start accounts .resolving) system
  | .resolving, .fulfilled =>
    match resetRun host accounts system.manager with
    | (.ok botsDir, manager) => moveTo id (.start accounts (.makingLogDir botsDir)) { system with manager }
    | (.error _, manager) => settle id { system with manager }
  | .makingLogDir botsDir, .fulfilled =>
    moveTo id (.start accounts .writingSession) (run (openLogs host botsDir) system)
  | .writingSession, .fulfilled => moveTo id (.start accounts .writingLatest) system
  | .writingLatest, .fulfilled =>
    moveTo id (.start accounts .writingDiagnostics) (run (writeDiagnostics host) system)
  | .writingDiagnostics, .spawned spawned => settle id (spawn system spawned)
  | _, _ => system

end Parts

def step (system : System N) : Input → System N
  | .startRequested accounts requested =>
    match checkStart host accounts requested system.manager with
    | .ok selected => wait (.start selected .building) system
    | .error _ => system
  | .arrived id arrival =>
    match Map.get system.calls id with
    | some (.start accounts stage) => continueStart host id accounts system stage arrival
    | _ => system
  | .stopRequested failure =>
    match system.manager.child with
    | none => system
    | some child => wait (.stop child.id) (run (beginStop host child failure) system)
  | .stopWaited id =>
    match Map.get system.calls id with
    | some (.stop child) => settle id (run (endStop host child) system)
    | _ => system
  | .died child => if system.life child = some .alive then setLife child .dead system else system
  | .exited child code signal =>
    if system.life child = some .dead then
      match handleExit host child code signal system.manager with
      | (.ok (some tempDir), manager) => wait (.exit tempDir) (setLife child .reported { system with manager })
      | (_, manager) => setLife child .reported { system with manager }
    else system
  | .cleaned id =>
    match Map.get system.calls id with
    | some (.exit _) => settle id (run emitSnapshot system)
    | _ => system
  | .failed child message => if (system.life child).isSome then run (handleError host message) system else system
  | .line child source rawLine =>
    if (system.life child).isSome then run (handleLine host source rawLine) system else system

end System

end MineRider.Model.Panel
