import MineRider.Machine.Handler
import MineRider.Model.Panel.Lines

/-! # The runtime manager of the panel

The manager keeps what the panel shows of a run: the accounts with their states and recent events, the last error and
the log. Output lines of the child process change it, and so does the end of the process. Every function here runs
without interruption; the calls that wait for something are split at the places where they do. What the functions write
to log files and tell their listeners is recorded in the order in which it happens. A function that throws leaves what
it has changed so far.
-/

namespace MineRider.Model.Panel

open Machine Machine.Js Handler

/-- What the panel takes from its environment. The password is empty if none is set, and `now` is the time that the
clock shows when it is asked for the n-th time. -/
structure Host (N : Type) where
  numbers : Numbers N
  parse : Text → Except Text (Value N)
  now : ℕ → Text
  joinPath : Text → Text → Text
  toLowerCase : Text → Text
  logRoot : Text
  password : Text

section State

variable {N : Type}

/-- A started process; it has a process id unless it could not be started. -/
structure Child where
  id : ℕ
  pid : Option ℕ
deriving DecidableEq, Repr

inductive Signal where
  | sigint
  | sigkill
deriving DecidableEq, Repr

structure AccountError where
  code : Text
  message : Text
  time : Text

structure Account (N : Type) where
  username : Text
  mode : Text
  status : Text
  message : Text
  updatedAt : Text
  workerId : Option N
  reconnectAttempt : Option N
  lastError : Option AccountError

structure AccountEvent (N : Type) where
  time : Text
  status : Text
  message : Text
  level : Value N

inductive Scope where
  | process
  | swarm
  | account
deriving DecidableEq, Repr

def Scope.name : Scope → Text
  | .process => lit "process"
  | .swarm => lit "swarm"
  | .account => lit "account"

structure FatalError where
  scope : Scope
  username : Option Text
  code : Text
  message : Text
  time : Text

structure LogEntry (N : Type) where
  time : Text
  level : Value N
  message : Text

structure LogFiles where
  diagnostics : Text
  panel : Text
  stdout : Text
  stderr : Text
  botsDir : Text

structure Counts where
  total : ℕ
  online : ℕ
  connecting : ℕ
  attention : ℕ
  offline : ℕ

structure Snapshot (N : Type) where
  running : Bool
  stopping : Bool
  pid : Option ℕ
  startedAt : Option Text
  logDirectory : Option Text
  counts : Counts
  accounts : List (Account N)
  lastError : Option FatalError
  logs : List (LogEntry N)

inductive Emitted (N : Type) where
  | snapshot (snapshot : Snapshot N)
  | log (entry : LogEntry N)

/-- The fields of the manager, and what it has written, emitted and sent so far. `ticks` counts the questions to the
clock. -/
structure RuntimeManager (N : Type) where
  child : Option Child
  tempDir : Option Text
  startedAt : Option Text
  stopping : Bool
  accounts : Map Text (Account N)
  accountHistory : Map Text (List (AccountEvent N))
  lastError : Option FatalError
  logs : List (LogEntry N)
  logDir : Option Text
  logFiles : Option LogFiles
  written : List (Text × Text)
  emitted : List (Emitted N)
  signals : List (ℕ × Signal)
  ticks : ℕ

def RuntimeManager.new : RuntimeManager N where
  child := none
  tempDir := none
  startedAt := none
  stopping := false
  accounts := []
  accountHistory := []
  lastError := none
  logs := []
  logDir := none
  logFiles := none
  written := []
  emitted := []
  signals := []
  ticks := 0

abbrev Action (N α : Type) := Handler (RuntimeManager N) TypeError α

end State

section Queries

variable {N : Type}

def maxLogLines : ℕ := 1000
def maxAccountHistory : ℕ := 50

/-- The last elements of a list, at most `count` of them. -/
def lastOf {α : Type} (count : ℕ) (items : List α) : List α := items.drop (items.length - count)

def countAccount (counts : Counts) (account : Account N) : Counts :=
  let counts := { counts with total := counts.total + 1 }
  if account.status = lit "online" then { counts with online := counts.online + 1 }
  else if account.status ∈ [lit "starting", lit "connecting", lit "connected", lit "authenticating", lit "preparing",
      lit "selecting_mode", lit "registering"] then
    { counts with connecting := counts.connecting + 1 }
  else if account.status ∈ [lit "error", lit "kicked", lit "needs_password", lit "needs_registration",
      lit "verification_required"] then
    { counts with attention := counts.attention + 1 }
  else { counts with offline := counts.offline + 1 }

namespace RuntimeManager

def getSnapshot (manager : RuntimeManager N) : Snapshot N :=
  let accounts := manager.accounts.map (·.2)
  { running := manager.child.isSome
    stopping := manager.stopping
    pid := manager.child.bind (·.pid)
    startedAt := manager.startedAt
    logDirectory := manager.logDir
    counts := accounts.foldl countAccount ⟨0, 0, 0, 0, 0⟩
    accounts := accounts
    lastError := manager.lastError
    logs := lastOf 250 manager.logs }

def getAccountEvents (manager : RuntimeManager N) (username : Text) : List (AccountEvent N) :=
  (Map.get manager.accountHistory username).getD []

end RuntimeManager

end Queries

section Records

variable {N : Type} (host : Host N)

/-- `new Date().toISOString()` -/
def timestamp : Action N Text := do
  let manager ← get
  modify fun manager => { manager with ticks := manager.ticks + 1 }
  Handler.pure (host.now manager.ticks)

def emitSnapshot : Action N Unit :=
  modify fun manager => { manager with emitted := manager.emitted ++ [.snapshot manager.getSnapshot] }

def queueLog (filePath contents : Text) : Action N Unit :=
  modify fun manager => { manager with written := manager.written ++ [(filePath, contents)] }

def recordFatalError (entry : FatalError) : Action N Unit := do
  modify fun manager => { manager with lastError := some entry }
  emitSnapshot

def recordAccountEvent (username : Text) (entry : AccountEvent N) : Action N Unit :=
  modify fun manager =>
    let list := (Map.get manager.accountHistory username).getD []
    { manager with accountHistory := manager.accountHistory.set username (lastOf maxAccountHistory (list ++ [entry])) }

/-- Fails with what a conversion throws. -/
def liftExcept {α : Type} : Except TypeError α → Action N α
  | .ok value => Handler.pure value
  | .error error => fail error

def LogEntry.toValue (entry : LogEntry N) : Value N :=
  .object [(lit "at", .string entry.time), (lit "level", entry.level), (lit "message", .string entry.message)]

/-- The part of `push_log` that writes to the files, if there are any. -/
def persistLog (entry : LogEntry N) : Option LogFiles → Action N Unit
  | none => Handler.pure ()
  | some files => do
    queueLog files.panel (entry.toValue.stringify host.numbers ++ lit "\n")
    let level ← liftExcept (entry.level.asText host.numbers)
    queueLog files.diagnostics (formatDiagnostic host.password entry.time (lit "panel/" ++ level) entry.message)

def pushLog (level : Value N) (message : Text) (emit : Bool) : Action N Unit := do
  let time ← timestamp host
  let entry : LogEntry N := ⟨time, level, redact host.password message⟩
  modify fun manager => { manager with logs := lastOf maxLogLines (manager.logs ++ [entry]) }
  let manager ← get
  persistLog host entry manager.logFiles
  guarded emit
    (modify fun manager => { manager with emitted := manager.emitted ++ [.log entry] })

def persistRawLine (source : Source) (line : Text) : Action N Unit := do
  let manager ← get
  match manager.logFiles with
  | none => Handler.pure ()
  | some files => do
    let safeLine := redact host.password line
    let time ← timestamp host
    queueLog (if source = .stderr then files.stderr else files.stdout)
      (lit "[" ++ time ++ lit "] " ++ safeLine ++ lit "\n")
    queueLog files.diagnostics (formatDiagnostic host.password time (lit "minerider/" ++ source.name) safeLine)

def persistBotEvent (username : Text) (state : Account N) (event : Value N) : Action N Unit := do
  let manager ← get
  match manager.logFiles with
  | none => Handler.pure ()
  | some files =>
    let filename := safeLogName username ++ lit ".jsonl"
    let value := object ((lit "at", .string state.updatedAt) :: event.ownFields ++ [(lit "username", .string username)])
    queueLog (host.joinPath files.botsDir filename)
      (redact host.password (value.stringify host.numbers) ++ lit "\n")

/-- Sets the state of one account, unless it has come to rest before. -/
def markRunning (status message username : Text) (account : Account N) : Action N Unit :=
  if ¬ (account.status = lit "stopped" ∨ account.status = lit "error") ∨ status = lit "error" then do
    let time ← timestamp host
    modify fun manager =>
      { manager with
        accounts := manager.accounts.set username { account with status, message, updatedAt := time } }
  else Handler.pure ()

def markAllRunning (status message : Text) : Action N Unit := do
  let manager ← get
  forEach manager.accounts fun (username, account) => markRunning host status message username account
  emitSnapshot

end Records

section Events

variable {N : Type} (host : Host N)

/-- `String(first || second)` -/
def textOr (first : Option (Value N)) (second : Value N) : Action N Text :=
  liftExcept ((orElse host.numbers first second).asText host.numbers)

/-- A property that holds a whole number. -/
def integer (value : Option (Value N)) : Option N :=
  match value with
  | some (.number n) => if host.numbers.isInteger n then some n else none
  | _ => none

/-- An event that concerns no single bot. -/
def handleSwarmEvent (event : Value N) (time : Text) : Action N Unit := do
  let status := orElse host.numbers (event.get (lit "status"))
  let message ← textOr host (event.get (lit "message")) (status (.string (lit "Błąd konfiguracji swarmu")))
  let code ← textOr host (event.get (lit "code")) (status (.string (lit "swarm_error")))
  recordFatalError ⟨.swarm, none, code, redact host.password message, time⟩
  pushLog host (orElse host.numbers (event.get (lit "level")) (.string (lit "error"))) message true

def isErrorStatus (status : Text) : Bool := status = lit "error" || status = lit "kicked"

/-- An event of an account that is part of the run. -/
def handleAccountEvent (event : Value N) (time username : Text) (current : Account N) : Action N Unit := do
  let status ← textOr host (event.get (lit "status")) (.string current.status)
  let message ← textOr host (event.get (lit "message")) (.string [])
  let isError := isErrorStatus status
  let code ← textOr host (if isError then event.get (lit "code") else none) (.string status)
  let next : Account N :=
    { current with
      status, message
      updatedAt := time
      workerId := (integer host (event.get (lit "worker_id"))).or current.workerId
      reconnectAttempt := integer host (event.get (lit "attempt"))
      lastError := if isError then some ⟨code, message, time⟩ else current.lastError }
  modify fun manager => { manager with accounts := manager.accounts.set username next }
  persistBotEvent host username next event
  let level := orElse host.numbers (event.get (lit "level")) (.string (lit "info"))
  recordAccountEvent username ⟨time, status, message, level⟩
  guarded isError (recordFatalError ⟨.account, some username, code, message, time⟩)
  pushLog host level (lit "[" ++ username ++ lit "] " ++ if message = [] then status else message) false
  emitSnapshot

/-- `event.scope === 'swarm'` -/
def isSwarmEvent (event : Value N) : Bool :=
  match event.get (lit "scope") with
  | some (.string scope) => scope = lit "swarm"
  | _ => false

def handlePanelEvent (event : Value N) : Action N Unit :=
  if event.isObject then do
    let time ← timestamp host
    if isSwarmEvent event then handleSwarmEvent host event time
    else do
      let username ← textOr host (event.get (lit "username")) (.string [])
      let manager ← get
      match Map.get manager.accounts username with
      | none => Handler.pure ()
      | some current => handleAccountEvent host event time username current
  else Handler.pure ()

/-- The part of `handle_line` behind an error of the event. -/
def rejectEvent (message : Text) : Action N Bool := do
  pushLog host (.string (lit "warn")) (lit "Nieprawidłowe zdarzenie panelu: " ++ message) true
  Handler.pure false

/-- Handles the event of a line, if it has the marker of one. The result says that the line is done. -/
def handleMarked (line : Text) : Action N Bool :=
  match indexOf panelMarker line with
  | none => Handler.pure false
  | some markerIndex =>
    match host.parse (extractPanelJson line (markerIndex + panelMarker.length)) with
    | .error message => rejectEvent host message
    | .ok event => do
      let handled ← attempt (handlePanelEvent host event)
      match handled with
      | .ok () => Handler.pure true
      | .error error => rejectEvent host error.message

/-- A line of the process about its own failure, unless a more specific reason is known. -/
def recordProcessError (source : Source) (line : Text) : Action N Unit := do
  let manager ← get
  if source = .stderr ∧ manager.lastError.all (·.scope = .process) then
    match classifyProcessError line with
    | none => Handler.pure ()
    | some code => do
      let time ← timestamp host
      recordFatalError ⟨.process, none, code, redact host.password line, time⟩
  else Handler.pure ()

def handleLine (source : Source) (rawLine : Text) : Action N Unit := do
  let line := trim (stripAnsi rawLine)
  if line = [] then Handler.pure ()
  else do
    persistRawLine host source line
    let handled ← handleMarked host line
    if handled then Handler.pure ()
    else do
      recordProcessError host source line
      pushLog host (.string (lineLevel source line)) (redact host.password line) true

end Events

section Process

variable {N : Type} (host : Host N)

/-- The listener of a child's `error` event. -/
def handleError (message : Text) : Action N Unit := do
  pushLog host (.string (lit "error")) (lit "Nie udało się uruchomić MineRider: " ++ message) true
  markAllRunning host (lit "error") message

/-- How a process ended, as the messages of `handle_exit` show it. -/
def exitText (code : Option ℤ) (signal : Option Text) : Text :=
  lit "(kod=" ++ (match code with | some code => lit (toString code) | none => lit "-") ++ lit ", sygnał=" ++
    (match signal with | some signal => signal | none => lit "-") ++ lit ")."

/-- `handle_exit` from the message that it logs to the removal of the temporary directory, which it returns. -/
def reportExit (expected : Bool) (code : Option ℤ) (signal : Option Text) : Action N (Option Text) := do
  pushLog host (.string (if expected then lit "info" else lit "error"))
    (lit "Runtime zakończył pracę " ++ exitText code signal) true
  let manager ← get
  guarded (!expected && manager.lastError.isNone) (do
    let time ← timestamp host
    recordFatalError ⟨.process, none, lit "process_exit",
      lit "Proces zakończył się nieoczekiwanie " ++ exitText code signal, time⟩)
  markAllRunning host (if expected then lit "stopped" else lit "error")
    (if expected then lit "Zatrzymano przez operatora" else lit "Proces zakończył się nieoczekiwanie")
  let manager ← get
  modify fun manager => { manager with tempDir := none }
  Handler.pure manager.tempDir

/-- `handle_exit` up to its first wait; the exit of a child that is not the recorded one is ignored. -/
def handleExit (child : ℕ) (code : Option ℤ) (signal : Option Text) : Action N (Option (Option Text)) := do
  let manager ← get
  if manager.child.map (·.id) ≠ some child then Handler.pure none
  else do
    modify fun manager => { manager with child := none, stopping := false }
    let tempDir ← reportExit host manager.stopping code signal
    Handler.pure (some tempDir)

/-- `stop` up to its wait, if there is a child. `failure` is what the signal throws, if it does. -/
def beginStop (child : Child) (failure : Option Text) : Action N Unit := do
  modify fun manager => { manager with stopping := true }
  pushLog host (.string (lit "info")) (lit "Zatrzymywanie runtime MineRider…") true
  emitSnapshot
  match failure with
  | none => modify fun manager => { manager with signals := manager.signals ++ [(child.id, .sigint)] }
  | some message =>
    pushLog host (.string (lit "warn")) (lit "Nie udało się wysłać SIGINT: " ++ message) true

/-- The rest of `stop`. -/
def endStop (child : ℕ) : Action N Unit := do
  let manager ← get
  if manager.child.map (·.id) = some child then do
    pushLog host (.string (lit "warn")) (lit "Przekroczono czas łagodnego zamknięcia; kończę proces.") true
    modify fun manager => { manager with signals := manager.signals ++ [(child, .sigkill)] }
  else Handler.pure ()

end Process

section Start

variable {N : Type} (host : Host N)

structure AccountConfig where
  username : Text
  mode : Text
  enabled : Bool

/-- The enabled accounts that a request names; a request that names none asks for all. -/
def selectAccounts (accounts : List AccountConfig) (requested : List Text) : List AccountConfig :=
  accounts.filter fun account => account.enabled && (requested.isEmpty ||
    (requested.map host.toLowerCase).contains (host.toLowerCase account.username))

/-- `start` up to its first wait: the accounts to start, or the refusal. -/
def checkStart (accounts : List AccountConfig) (requested : List Text) (manager : RuntimeManager N) :
    Except Text (List AccountConfig) :=
  if manager.child.isSome then .error (lit "Runtime MineRider już działa.")
  else if selectAccounts host accounts requested = [] then .error (lit "Nie wybrano żadnego aktywnego konta.")
  else if host.password = [] then
    .error (lit "Ustaw MINERIDER_BOT_PASSWORD przed uruchomieniem botów. Hasło nie jest zapisywane w panelu.")
  else .ok (selectAccounts host accounts requested)

def addAccount (account : AccountConfig) : Action N Unit := do
  let time ← timestamp host
  modify fun manager =>
    { manager with
      accounts := manager.accounts.set account.username
        ⟨account.username, account.mode, lit "starting", lit "Oczekuje na start procesu", time, none, none, none⟩ }

/-- The name of a run's directory: colons and dots of its time are replaced. -/
def runName (startedAt : Text) : Text :=
  lit "run-" ++ startedAt.map fun unit => if unit = 0x3A ∨ unit = 0x2E then 0x2D else unit

/-- `start` from the resolved binary to the first wait of `initialize_logs`. The result is the directory for the logs
of the bots. -/
def resetRun (accounts : List AccountConfig) : Action N Text := do
  modify fun manager => { manager with accounts := [], accountHistory := [], lastError := none }
  forEach accounts (addAccount host)
  modify fun manager => { manager with logs := [] }
  let time ← timestamp host
  let logDir := host.joinPath host.logRoot (runName time)
  modify fun manager =>
    { manager with startedAt := some time, stopping := false, logDir := some logDir }
  Handler.pure (host.joinPath logDir (lit "bots"))

/-- `initialize_logs` from the created directories on. -/
def openLogs (botsDir : Text) : Action N Unit :=
  modify fun manager =>
    let logDir := manager.logDir.getD []
    { manager with
      logFiles := some
        { diagnostics := host.joinPath logDir (lit "diagnostics.log")
          panel := host.joinPath logDir (lit "panel.jsonl")
          stdout := host.joinPath logDir (lit "minerider.stdout.log")
          stderr := host.joinPath logDir (lit "minerider.stderr.log")
          botsDir := botsDir } }

/-- The last write of `initialize_logs`. -/
def writeDiagnostics : Action N Unit := do
  let manager ← get
  match manager.logFiles with
  | none => Handler.pure ()
  | some files =>
    queueLog files.diagnostics
      (formatDiagnostic host.password (manager.startedAt.getD []) (lit "panel/info") (lit "Rozpoczęto sesję logowania"))

/-- `start` from the created child on. -/
def recordChild (child : Child) : Action N Unit := do
  modify fun manager => { manager with child := some child }
  emitSnapshot

end Start

end MineRider.Model.Panel
