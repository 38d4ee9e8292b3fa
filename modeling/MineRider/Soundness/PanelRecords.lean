import MineRider.Model.Panel.Runtime

/-! # The texts of the panel

What the runtime manager records, for any standard that the texts which the panel shows and writes may have to meet. A
record is put together from texts that were given, that the panel has of its own or that it has redacted, so a manager
all of whose texts meet the standard stays so if these do. Besides, no record changes the recorded child.
-/

namespace MineRider.Soundness.PanelRecords

open List Machine Machine.Js Model.Panel
open Handler (Within Returns)

section Strings

variable {N : Type}

def errorStrings (error : AccountError) : List Text := [error.code, error.message, error.time]

def accountStrings (account : Account N) : List Text :=
  [account.username, account.mode, account.status, account.message, account.updatedAt] ++
    account.lastError.toList.flatMap errorStrings

def eventStrings (event : AccountEvent N) : List Text :=
  [event.time, event.status, event.message] ++ event.level.strings

def fatalStrings (error : FatalError) : List Text :=
  [error.scope.name] ++ error.username.toList ++ [error.code, error.message, error.time]

def entryStrings (entry : LogEntry N) : List Text := [entry.time, entry.message] ++ entry.level.strings

/-- The strings in a snapshot. -/
def snapshotStrings (snapshot : Snapshot N) : List Text :=
  snapshot.startedAt.toList ++ snapshot.logDirectory.toList ++ snapshot.accounts.flatMap accountStrings ++
    snapshot.lastError.toList.flatMap fatalStrings ++ snapshot.logs.flatMap entryStrings

def emittedStrings : Emitted N → List Text
  | .snapshot snapshot => snapshotStrings snapshot
  | .log entry => entryStrings entry

end Strings

section Standards

/-- A standard for texts: for those that are shown or written, for the units of what is logged, and for times. -/
structure Standard where
  text : Text → Prop
  unit : UInt16 → Prop
  time : Text → Prop

/-- The standard that everything meets. -/
def Standard.any : Standard := ⟨fun _ => True, fun _ => True, fun _ => True⟩

def Standard.Plain (standard : Standard) (text : Text) : Prop := ∀ unit ∈ text, standard.unit unit

variable {N : Type} (host : Host N) (standard : Standard)

/-- A level that may stand in the log. -/
structure LevelMeets (level : Value N) : Prop where
  strings : ∀ text ∈ level.strings, standard.text text
  json : standard.text (level.stringify host.numbers)
  diagnostic : ∀ text, level.asText host.numbers = .ok text → standard.text (lit "panel/" ++ text)

def ownLevels : List Text := [lit "info", lit "warn", lit "error"]

/-- What the panel shows of itself. -/
def ownWords : List Text := [
  [], lit "starting", lit "stopped", lit "error", lit "Oczekuje na start procesu", lit "Zatrzymano przez operatora",
  lit "Proces zakończył się nieoczekiwanie", lit "process", lit "swarm", lit "account", lit "swarm_error",
  lit "process_error", lit "process_exit", lit "minerider/stdout", lit "minerider/stderr", lit "panel/info"] ++
  processErrorPatterns.map (·.1)

/-- What the panel logs of itself. -/
def ownMessages : List Text := [
  [], lit "starting", lit "stopped", lit "error", lit "[", lit "] ", lit "Błąd konfiguracji swarmu",
  TypeError.message .objectToPrimitive, lit "Nieprawidłowe zdarzenie panelu: ",
  lit "Nie udało się uruchomić MineRider: ", lit "Runtime zakończył pracę ", lit "Zatrzymywanie runtime MineRider…",
  lit "Nie udało się wysłać SIGINT: ", lit "Przekroczono czas łagodnego zamknięcia; kończę proces.", redactedMarker]

/-- The panel's own texts meet the standard, and so does what it makes of texts that do. -/
structure Meets : Prop where
  now : ∀ n, standard.time (host.now n)
  time : ∀ {time}, standard.time time → standard.text time
  word : ∀ {text}, text ∈ ownWords → standard.text text
  level : ∀ {level}, level ∈ ownLevels → LevelMeets host standard (.string level)
  message : ∀ {text}, text ∈ ownMessages → standard.Plain text
  redacted : ∀ text, standard.text (redact host.password text)
  rawLine : ∀ {time} text, standard.time time →
    standard.text (lit "[" ++ time ++ lit "] " ++ redact host.password text ++ lit "\n")
  diagnostic : ∀ {time source} text, standard.time time → standard.text source →
    standard.text (formatDiagnostic host.password time source text)
  botLine : ∀ text, standard.text (redact host.password text ++ lit "\n")
  logLine : ∀ {time text} {level : Value N}, standard.time time → standard.text (level.stringify host.numbers) →
    standard.Plain text →
    standard.text ((LogEntry.toValue ⟨time, level, redact host.password text⟩).stringify host.numbers ++ lit "\n")
  runDir : ∀ {time}, standard.time time → standard.text (host.joinPath host.logRoot (runName time))

theorem meets_any : Meets host .any where
  now _ := trivial
  time _ := trivial
  word _ := trivial
  level _ := ⟨fun _ _ => trivial, trivial, fun _ _ => trivial⟩
  message _ _ _ := trivial
  redacted _ := trivial
  rawLine _ _ := trivial
  diagnostic _ _ _ := trivial
  botLine _ := trivial
  logLine _ _ _ := trivial
  runDir _ := trivial

variable {standard}

theorem Standard.Plain.append {first second : Text} (left : standard.Plain first) (right : standard.Plain second) :
    standard.Plain (first ++ second) := by
  intro unit member
  rcases mem_append.mp member with inFirst | inSecond
  · exact left unit inFirst
  · exact right unit inSecond

end Standards

section Clean

variable {N : Type} (standard : Standard)

/-- Everything that the manager holds, has written or has emitted meets the standard. -/
structure Clean (manager : RuntimeManager N) : Prop where
  startedAt : ∀ time ∈ manager.startedAt, standard.time time
  logDir : ∀ text ∈ manager.logDir, standard.text text
  names : ∀ entry ∈ manager.accounts, standard.text entry.1 ∧ standard.Plain entry.1
  statuses : ∀ entry ∈ manager.accounts, standard.Plain entry.2.status
  accounts : ∀ entry ∈ manager.accounts, ∀ text ∈ accountStrings entry.2, standard.text text
  history : ∀ entry ∈ manager.accountHistory, ∀ event ∈ entry.2, ∀ text ∈ eventStrings event, standard.text text
  lastError : ∀ error ∈ manager.lastError, ∀ text ∈ fatalStrings error, standard.text text
  logs : ∀ entry ∈ manager.logs, ∀ text ∈ entryStrings entry, standard.text text
  written : ∀ line ∈ manager.written, standard.text line.2
  emitted : ∀ emitted ∈ manager.emitted, ∀ text ∈ emittedStrings emitted, standard.text text

/-- A part of a run that keeps a clean manager clean, leaves the recorded child and does not take back the start. -/
def Steady (manager next : RuntimeManager N) : Prop :=
  Clean standard manager →
    Clean standard next ∧ next.child = manager.child ∧ (manager.startedAt.isSome → next.startedAt.isSome)

instance : IsPreorder (RuntimeManager N) (Steady standard) where
  refl _ clean := ⟨clean, rfl, id⟩
  trans _ _ _ first second clean := by
    obtain ⟨middle, child, started⟩ := first clean
    obtain ⟨last, sameChild, stillStarted⟩ := second middle
    exact ⟨last, sameChild.trans child, stillStarted ∘ started⟩

variable {standard}

theorem mem_lastOf {α : Type} {count : ℕ} {items : List α} {item : α} (member : item ∈ lastOf count items) :
    item ∈ items :=
  mem_of_mem_drop member

theorem Clean.snapshot (meets : ∀ {time}, standard.time time → standard.text time) {manager : RuntimeManager N}
    (clean : Clean standard manager) : ∀ text ∈ snapshotStrings manager.getSnapshot, standard.text text := by
  intro text member
  simp only [snapshotStrings, RuntimeManager.getSnapshot, mem_append, Option.mem_toList, mem_flatMap,
    mem_map] at member
  rcases member with (((started | dir) | ⟨_, ⟨entry, listed, rfl⟩, inside⟩) | ⟨error, last, inside⟩) |
    ⟨entry, listed, inside⟩
  · exact meets (clean.startedAt text started)
  · exact clean.logDir text dir
  · exact clean.accounts entry listed text inside
  · exact clean.lastError error last text inside
  · exact clean.logs entry (mem_lastOf listed) text inside

section

variable {manager : RuntimeManager N} (clean : Clean standard manager)

include clean

theorem Clean.accountEvents (username : Text) :
    ∀ event ∈ manager.getAccountEvents username, ∀ text ∈ eventStrings event, standard.text text := by
  intro event member
  unfold RuntimeManager.getAccountEvents at member
  cases found : Map.get manager.accountHistory username with
  | none =>
    rw [found] at member
    cases member
  | some events =>
    rw [found] at member
    exact clean.history _ (Map.mem_of_get found) event member

/-- A change to the accounts, one at a time. -/
theorem Clean.setAccount {username : Text}
    {account : Account N} (name : standard.text username ∧ standard.Plain username)
    (status : standard.Plain account.status) (strings : ∀ text ∈ accountStrings account, standard.text text) :
    Clean standard { manager with accounts := manager.accounts.set username account } where
  startedAt := clean.startedAt
  logDir := clean.logDir
  history := clean.history
  lastError := clean.lastError
  logs := clean.logs
  written := clean.written
  emitted := clean.emitted
  names entry member := by
    rcases Map.mem_set member with rfl | old
    · exact name
    · exact clean.names entry old
  statuses entry member := by
    rcases Map.mem_set member with rfl | old
    · exact status
    · exact clean.statuses entry old
  accounts entry member := by
    rcases Map.mem_set member with rfl | old
    · exact strings
    · exact clean.accounts entry old

theorem Clean.withLogs {logs : List (LogEntry N)}
    (fit : ∀ entry ∈ logs, ∀ text ∈ entryStrings entry, standard.text text) :
    Clean standard { manager with logs := logs } :=
  { clean with logs := fit }

end

end Clean

section Records

variable {N : Type} {host : Host N} {standard : Standard} (meets : Meets host standard)

/-- A part that leaves the child and the time of the start, and keeps the manager clean. -/
theorem steady_modify {change : RuntimeManager N → RuntimeManager N}
    (kept : ∀ manager, Clean standard manager → Clean standard (change manager))
    (child : ∀ manager, (change manager).child = manager.child)
    (started : ∀ manager, (change manager).startedAt = manager.startedAt) :
    Within (Steady standard) (Handler.modify change : Action N Unit) :=
  fun manager clean => ⟨kept manager clean, child manager, fun before => (started manager).symm ▸ before⟩

theorem timestamp_steady (host : Host N) : Within (Steady standard) (timestamp host) := by
  exact steady_modify (fun _ clean => { clean with }) (fun _ => rfl) fun _ => rfl

include meets in
theorem timestamp_returns : Returns standard.time (timestamp host) := by
  intro manager time next ran
  cases ran
  exact meets.now manager.ticks

include meets in
theorem emitSnapshot_steady : Within (Steady standard) (emitSnapshot : Action N Unit) := by
  refine steady_modify (fun manager clean => { clean with emitted := ?_ }) (fun _ => rfl) fun _ => rfl
  exact forall_mem_concat.mpr ⟨clean.emitted, clean.snapshot meets.time⟩

theorem queueLog_steady (filePath : Text) {contents : Text} (fit : standard.text contents) :
    Within (Steady standard) (queueLog filePath contents : Action N Unit) := by
  refine steady_modify (fun manager clean => { clean with written := ?_ }) (fun _ => rfl) fun _ => rfl
  exact forall_mem_concat.mpr ⟨clean.written, fit⟩

private theorem scopeName_own (scope : Scope) : scope.name ∈ ownWords := by
  refine mem_append_left _ ?_
  cases scope <;> simp [Scope.name]

include meets in
theorem recordFatalError_steady (scope : Scope) {username : Option Text} {code message time : Text}
    (name : ∀ text ∈ username, standard.text text) (codeFit : standard.text code) (messageFit : standard.text message)
    (timed : standard.time time) :
    Within (Steady standard) (recordFatalError ⟨scope, username, code, message, time⟩ : Action N Unit) := by
  refine Within.bind ?_ fun _ => emitSnapshot_steady meets
  refine steady_modify (fun manager clean => { clean with lastError := ?_ }) (fun _ => rfl) fun _ => rfl
  intro error last text member
  cases last
  simp only [fatalStrings, mem_append, Option.mem_toList, mem_cons, not_mem_nil, or_false] at member
  rcases member with (rfl | given) | rfl | rfl | rfl
  · exact meets.word (scopeName_own scope)
  · exact name text given
  · exact codeFit
  · exact messageFit
  · exact meets.time timed

theorem recordAccountEvent_steady (username : Text) {entry : AccountEvent N}
    (fit : ∀ text ∈ eventStrings entry, standard.text text) :
    Within (Steady standard) (recordAccountEvent username entry) := by
  refine steady_modify (fun manager clean => { clean with history := ?_ }) (fun _ => rfl) fun _ => rfl
  intro listed member event inside
  rcases Map.mem_set member with rfl | old
  · exact forall_mem_concat.mpr ⟨clean.accountEvents username, fit⟩ event (mem_lastOf inside)
  · exact clean.history listed old event inside

theorem liftExcept_steady {α : Type} (result : Except TypeError α) :
    Within (Steady standard) (liftExcept result : Action N α) := by
  cases result with
  | ok value => exact .pure value
  | error message => exact .fail message

theorem liftExcept_returns {α : Type} (result : Except TypeError α) :
    Returns (fun value => result = .ok value) (liftExcept result : Action N α) := by
  intro manager value next ran
  cases result with
  | ok value => cases ran; rfl
  | error message => cases ran

include meets in
private theorem persistLog_steady {time text : Text} {level : Value N} (timed : standard.time time)
    (fit : LevelMeets host standard level) (plain : standard.Plain text) (files : Option LogFiles) :
    Within (Steady standard) (persistLog host ⟨time, level, redact host.password text⟩ files) := by
  cases files with
  | none => exact .pure ()
  | some files =>
    refine Within.bind (queueLog_steady _ (meets.logLine timed fit.json plain)) fun _ => ?_
    refine (liftExcept_steady _).bind_returns (liftExcept_returns _) fun shown converted => ?_
    exact queueLog_steady _ (meets.diagnostic _ timed (fit.diagnostic shown converted))

include meets in
theorem pushLog_steady {level : Value N} {message : Text} (fit : LevelMeets host standard level)
    (plain : standard.Plain message) (emit : Bool) :
    Within (Steady standard) (pushLog host level message emit) := by
  refine (timestamp_steady host).bind_returns (timestamp_returns meets) fun time timed => ?_
  have entryFit : ∀ text ∈ entryStrings (⟨time, level, redact host.password message⟩ : LogEntry N),
      standard.text text := by
    intro text member
    rcases mem_append.mp member with own | inLevel
    · simp only [mem_cons, not_mem_nil, or_false] at own
      rcases own with rfl | rfl
      · exact meets.time timed
      · exact meets.redacted message
    · exact fit.strings text inLevel
  refine Within.bind ?_ fun _ => Within.get.bind fun manager => ?_
  · refine steady_modify (fun manager clean => clean.withLogs ?_) (fun _ => rfl) fun _ => rfl
    exact fun entry member => forall_mem_concat.mpr ⟨clean.logs, entryFit⟩ entry (mem_lastOf member)
  · refine Within.bind (persistLog_steady meets timed fit plain manager.logFiles) fun _ => ?_
    refine Within.guarded fun _ => ?_
    refine steady_modify (fun manager clean => { clean with emitted := ?_ }) (fun _ => rfl) fun _ => rfl
    exact forall_mem_concat.mpr ⟨clean.emitted, entryFit⟩

include meets in
/-- A line of the panel's own, at one of its levels. -/
theorem pushOwnLog_steady {level message : Text} (own : level ∈ ownLevels) (plain : standard.Plain message)
    (emit : Bool) : Within (Steady standard) (pushLog host (.string level) message emit) :=
  pushLog_steady meets (meets.level own) plain emit

private theorem sourceName_own (source : Source) : lit "minerider/" ++ source.name ∈ ownWords := by
  refine mem_append_left _ ?_
  cases source with
  | stdout =>
    have joined : lit "minerider/" ++ lit "stdout" = lit "minerider/stdout" := by decide +kernel
    simp [Source.name, joined]
  | stderr =>
    have joined : lit "minerider/" ++ lit "stderr" = lit "minerider/stderr" := by decide +kernel
    simp [Source.name, joined]

include meets in
theorem persistRawLine_steady (source : Source) (line : Text) :
    Within (Steady standard) (persistRawLine host source line) := by
  refine Within.get.bind fun manager => ?_
  cases manager.logFiles with
  | none => exact .pure ()
  | some files =>
    refine (timestamp_steady host).bind_returns (timestamp_returns meets) fun time timed => ?_
    refine Within.bind (queueLog_steady _ (meets.rawLine line timed)) fun _ => ?_
    exact queueLog_steady _ (meets.diagnostic _ timed (meets.word (sourceName_own source)))

include meets in
theorem persistBotEvent_steady (username : Text) (state : Account N) (event : Value N) :
    Within (Steady standard) (persistBotEvent host username state event) := by
  refine Within.get.bind fun manager => ?_
  cases manager.logFiles with
  | none => exact .pure ()
  | some files => exact queueLog_steady _ (meets.botLine _)

variable {account : Account N}

/-- What an account shows after its state was set. -/
theorem accountStrings_set {status message time : Text} (timed : standard.text time)
    (statusFit : standard.text status) (messageFit : standard.text message)
    (fit : ∀ text ∈ accountStrings account, standard.text text) :
    ∀ text ∈ accountStrings { account with status, message, updatedAt := time }, standard.text text := by
  simp only [accountStrings, mem_append, mem_cons, not_mem_nil, or_false] at fit ⊢
  rintro text ((rfl | rfl | rfl | rfl | rfl) | error)
  · exact fit _ (.inl (.inl rfl))
  · exact fit _ (.inl (.inr (.inl rfl)))
  · exact statusFit
  · exact messageFit
  · exact timed
  · exact fit text (.inr error)

/-- What an account shows after an event, which may be an error. -/
theorem accountStrings_next {status message time code : Text} {workerId attempt : Option N}
    {isError : Bool} (timed : standard.text time) (statusFit : standard.text status)
    (messageFit : standard.text message) (codeFit : standard.text code)
    (fit : ∀ text ∈ accountStrings account, standard.text text) :
    ∀ text ∈ accountStrings
      { account with
        status, message
        updatedAt := time
        workerId := workerId
        reconnectAttempt := attempt
        lastError := if isError then some ⟨code, message, time⟩ else account.lastError }, standard.text text := by
  cases isError with
  | false => exact accountStrings_set timed statusFit messageFit fit
  | true =>
    have shown := accountStrings_set timed statusFit messageFit fit
    simp only [accountStrings, errorStrings, mem_append, mem_cons, not_mem_nil, or_false, if_true,
      Option.toList_some, flatMap_cons, flatMap_nil, append_nil] at shown ⊢
    rintro text (own | rfl | rfl | rfl)
    · exact shown text (.inl own)
    · exact codeFit
    · exact messageFit
    · exact timed

include meets in
private theorem markRunning_steady {status message username : Text}
    (statusFit : standard.text status ∧ standard.Plain status) (messageFit : standard.text message)
    (name : standard.text username ∧ standard.Plain username)
    (fit : ∀ text ∈ accountStrings account, standard.text text) :
    Within (Steady standard) (markRunning host status message username account) := by
  refine Within.ite ?_ (.pure ())
  refine (timestamp_steady host).bind_returns (timestamp_returns meets) fun time timed => ?_
  refine steady_modify (fun manager clean => clean.setAccount name statusFit.2 ?_) (fun _ => rfl) fun _ => rfl
  exact accountStrings_set (meets.time timed) statusFit.1 messageFit fit

include meets in
theorem markAllRunning_steady {status message : Text} (statusFit : standard.text status ∧ standard.Plain status)
    (messageFit : standard.text message) : Within (Steady standard) (markAllRunning host status message) := by
  refine Within.get_bind fun manager clean => ?_
  refine Within.bind (Within.forEach fun entry member => ?_) (fun _ => emitSnapshot_steady meets)
    manager clean
  exact markRunning_steady meets statusFit messageFit (clean.names entry member) (clean.accounts entry member)

end Records

end MineRider.Soundness.PanelRecords
