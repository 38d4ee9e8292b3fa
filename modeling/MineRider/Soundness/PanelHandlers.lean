import MineRider.Soundness.PanelRecords

/-! # The handlers of the panel

What the handlers of the runtime manager ask of the events, lines and requests that they are given, so that a manager
whose texts meet a standard stays so. Only the end of the recorded process and the start of a new one change the
recorded child.
-/

namespace MineRider.Soundness.PanelHandlers

open List Machine Machine.Js Model.Panel PanelRecords Handler

section Events

variable {N : Type} (host : Host N) (standard : Standard)

/-- The texts of an event that the panel takes over meet the standard; the message of a swarm event is redacted before
it is shown. -/
structure EventMeets (event : Value N) : Prop where
  shown : ∀ name, name = lit "status" ∨ name = lit "code" ∨ (name = lit "message" ∧ isSwarmEvent event = false) →
    ∀ value, event.get name = some value → truthy host.numbers (some value) = true →
      ∀ text, value.asText host.numbers = .ok text → standard.text text
  logged : ∀ name, name = lit "status" ∨ name = lit "message" →
    ∀ value, event.get name = some value → truthy host.numbers (some value) = true →
      ∀ text, value.asText host.numbers = .ok text → standard.Plain text
  level : ∀ value, event.get (lit "level") = some value → truthy host.numbers (some value) = true →
    LevelMeets host standard value

variable {host standard}

/-- `first || second` is one of the two, and the first only if it is truthy. -/
theorem orElse_of {P : Value N → Prop} {first : Option (Value N)} {second : Value N}
    (left : ∀ value, first = some value → truthy host.numbers (some value) = true → P value) (right : P second) :
    P (orElse host.numbers first second) := by
  cases first with
  | none => exact right
  | some value =>
    unfold orElse
    simp only
    split
    · rename_i holds
      exact left value rfl holds
    · exact right

theorem textOr_steady (first : Option (Value N)) (second : Value N) :
    Within (Steady standard) (textOr host first second) := liftExcept_steady _

/-- The text of a value, if it has one, meets a condition. -/
abbrev Gives (host : Host N) (P : Text → Prop) (value : Value N) : Prop :=
  ∀ text, value.asText host.numbers = .ok text → P text

variable {P : Text → Prop}

/-- A text that is taken from a property or from what stands in for it. -/
theorem textOr_returns {first : Option (Value N)} {second : Value N}
    (left : ∀ value, first = some value → truthy host.numbers (some value) = true → Gives host P value)
    (right : Gives host P second) : Returns P (textOr host first second) := by
  intro manager text next ran
  exact orElse_of (P := Gives host P) left right text (liftExcept_returns _ manager text next ran)

private theorem string_asText {value : Text} (holds : P value) : Gives host P (.string value) := by
  intro text converted
  cases converted
  exact holds

variable {event : Value N}

theorem EventMeets.level_or (fit : EventMeets host standard event) {own : Text}
    (ownFit : LevelMeets host standard (.string own)) :
    LevelMeets host standard (orElse host.numbers (event.get (lit "level")) (.string own)) :=
  orElse_of fit.level ownFit

variable (meets : Meets host standard)

/-- A status that stands in for a missing text, or what stands in for it in turn. -/
theorem textOr_status {name own : Text}
    (given : ∀ value, event.get name = some value → truthy host.numbers (some value) = true → Gives host P value)
    (status : ∀ value, event.get (lit "status") = some value → truthy host.numbers (some value) = true →
      Gives host P value) (ownFit : P own) :
    Returns P
      (textOr host (event.get name) (orElse host.numbers (event.get (lit "status")) (.string own))) := by
  exact textOr_returns given (orElse_of (P := Gives host P) status (string_asText ownFit))

include meets in
private theorem handleSwarmEvent_steady (fit : EventMeets host standard event) {time : Text}
    (timed : standard.time time) :
    Within (Steady standard) (handleSwarmEvent host event time) := by
  refine (textOr_steady _ _).bind_returns (P := standard.Plain) ?_ fun message plain => ?_
  · refine textOr_status (fit.logged _ (.inr rfl)) (fit.logged _ (.inl rfl)) (meets.message ?_)
    simp [ownMessages]
  refine (textOr_steady _ _).bind_returns (P := standard.text) ?_ fun code codeFit => ?_
  · refine textOr_status (fit.shown _ (.inr (.inl rfl))) (fit.shown _ (.inl rfl)) (meets.word ?_)
    exact mem_append_left _ (by simp)
  refine Within.bind (recordFatalError_steady meets _ (by simp) codeFit (meets.redacted message) timed) fun _ => ?_
  exact pushLog_steady meets (fit.level_or (meets.level (by simp [ownLevels])))
    plain true

include meets in
private theorem handleAccountEvent_steady (fit : EventMeets host standard event) (own : isSwarmEvent event = false)
    {time username : Text} (timed : standard.time time) {current : Account N}
    (name : standard.text username ∧ standard.Plain username) (status : standard.Plain current.status)
    (currentFit : ∀ text ∈ accountStrings current, standard.text text) :
    Within (Steady standard) (handleAccountEvent host event time username current) := by
  have currentStatus : standard.text current.status :=
    currentFit _ (by simp [accountStrings])
  have emptyFit : standard.text [] :=
    meets.word (mem_append_left _ (by simp))
  refine (textOr_steady _ _).bind_returns (P := fun status => standard.text status ∧ standard.Plain status) ?_
    fun status statusFit => ?_
  · refine textOr_returns (fun value found truth text converted => ?_) (string_asText ⟨currentStatus, status⟩)
    exact ⟨fit.shown _ (.inl rfl) value found truth text converted,
      fit.logged _ (.inl rfl) value found truth text converted⟩
  refine (textOr_steady _ _).bind_returns (P := fun message => standard.text message ∧ standard.Plain message) ?_
    fun message messageFit => ?_
  · refine textOr_returns (fun value found truth text converted => ?_)
      (string_asText ⟨emptyFit, by simp [Standard.Plain]⟩)
    exact ⟨fit.shown _ (.inr (.inr ⟨rfl, own⟩)) value found truth text converted,
      fit.logged _ (.inr rfl) value found truth text converted⟩
  refine (textOr_steady _ _).bind_returns (P := standard.text) ?_ fun code codeFit => ?_
  · refine textOr_returns (fun value found => ?_) (string_asText statusFit.1)
    split at found
    · exact fit.shown _ (.inr (.inl rfl)) value found
    · cases found
  have levelFit := fit.level_or (meets.level (by simp [ownLevels] : lit "info" ∈ ownLevels))
  refine Within.bind ?_ fun _ => Within.bind (persistBotEvent_steady meets _ _ _) fun _ => ?_
  · refine steady_modify (fun manager clean => clean.setAccount name statusFit.2 ?_) (fun _ => rfl) fun _ => rfl
    exact accountStrings_next (meets.time timed) statusFit.1 messageFit.1 codeFit currentFit
  refine Within.bind (recordAccountEvent_steady username ?_) fun _ => ?_
  · intro text member
    simp only [eventStrings, mem_append, mem_cons, not_mem_nil, or_false] at member
    rcases member with (rfl | rfl | rfl) | inLevel
    · exact meets.time timed
    · exact statusFit.1
    · exact messageFit.1
    · exact levelFit.strings text inLevel
  have shown : ∀ text ∈ some username, standard.text text := by simpa using name.1
  refine Within.bind (Within.guarded fun _ => recordFatalError_steady meets _ shown codeFit messageFit.1 timed)
    fun _ => ?_
  refine Within.bind (pushLog_steady meets levelFit ?_ false) fun _ => emitSnapshot_steady meets
  have opening : standard.Plain (lit "[") := meets.message (by simp [ownMessages])
  have closing : standard.Plain (lit "] ") := meets.message (by simp [ownMessages])
  refine ((opening.append name.2).append closing).append ?_
  split
  · exact statusFit.2
  · exact messageFit.2

include meets in
private theorem handlePanelEvent_steady (fit : event.isObject = true → EventMeets host standard event) :
    Within (Steady standard) (handlePanelEvent host event) := by
  unfold handlePanelEvent
  split
  · rename_i isObject
    refine (timestamp_steady host).bind_returns (timestamp_returns meets) fun time timed => ?_
    split
    · exact handleSwarmEvent_steady meets (fit isObject) timed
    · rename_i own
      refine (textOr_steady _ _).bind fun username => ?_
      refine Within.get_bind fun manager clean => ?_
      cases found : Map.get manager.accounts username with
      | none => exact Within.pure (R := Steady standard) () manager clean
      | some current =>
        have member := Map.mem_of_get found
        exact handleAccountEvent_steady meets (fit isObject) (by simpa using own) timed (clean.names _ member)
          (clean.statuses _ member) (clean.accounts _ member) manager clean
  · exact .pure ()

end Events

section Lines

variable {N : Type} (host : Host N) (standard : Standard)

/-- The line as it is handled. -/
def stripped (rawLine : Text) : Text := trim (stripAnsi rawLine)

/-- What a line carries behind the marker of an event. -/
def payload (rawLine : Text) : Option Text :=
  (indexOf panelMarker (stripped rawLine)).map fun markerIndex =>
    extractPanelJson (stripped rawLine) (markerIndex + panelMarker.length)

/-- A line whose units may be logged, with an event that meets the standard if it has one. -/
structure LineMeets (rawLine : Text) : Prop where
  plain : standard.Plain rawLine
  event : ∀ json ∈ payload rawLine, ∀ event, host.parse json = .ok event → event.isObject = true →
    EventMeets host standard event
  error : ∀ json ∈ payload rawLine, ∀ message, host.parse json = .error message → standard.Plain message

variable {host standard}

section Units

/-- A sequence that breaks off leaves what was read of it. -/
theorem mem_restart {state : AnsiState} {unit found : UInt16}
    (member : found ∈ (state.pending ++ (if unit = 0x1B then [] else [unit])) ++ (ansiStart unit).pending) :
    found ∈ state.pending ++ [unit] := by
  unfold ansiStart at member
  split at member
  · rename_i isEscape
    subst isEscape
    simpa [AnsiState.pending] using member
  · simpa [AnsiState.pending] using member

private theorem mem_ansiStep (state : AnsiState) (unit : UInt16) {found : UInt16}
    (member : found ∈ (ansiStep state unit).1 ++ (ansiStep state unit).2.pending) :
    found ∈ state.pending ++ [unit] := by
  cases state with
  | text => exact mem_restart member
  | escape =>
    simp only [ansiStep] at member
    split at member
    · rename_i bracket
      subst bracket
      simpa [AnsiState.pending] using member
    · exact mem_restart member
  | parameters read =>
    simp only [ansiStep] at member
    split at member
    · exact member
    · split at member
      · exact member
      · split at member
        · cases member
        · exact mem_restart member
  | intermediates read =>
    simp only [ansiStep] at member
    split at member
    · exact member
    · split at member
      · cases member
      · exact mem_restart member

private theorem mem_stripFrom {state : AnsiState} {text : Text} {found : UInt16}
    (member : found ∈ stripFrom state text) :
    found ∈ state.pending ++ text := by
  induction text generalizing state with
  | nil => simpa [stripFrom] using member
  | cons unit rest ih =>
    have step : found ∈ (ansiStep state unit).1 ++ (ansiStep state unit).2.pending → found ∈ state.pending ++ [unit] :=
      mem_ansiStep state unit
    simp only [mem_append, mem_cons, not_mem_nil, or_false] at step ⊢
    rcases mem_append.mp member with here | later
    · exact (step (.inl here)).imp_right .inl
    · rcases mem_append.mp (ih later) with pending | inRest
      · exact (step (.inr pending)).imp_right .inl
      · exact .inr (.inr inRest)

private theorem plain_stripped {rawLine : Text} (plain : standard.Plain rawLine) :
    standard.Plain (stripped rawLine) := by
  intro unit member
  have inStripped := mem_of_mem_trim member
  exact plain unit (by simpa [stripAnsi, AnsiState.pending] using mem_stripFrom inStripped)

end Units

variable (meets : Meets host standard)

include meets in
private theorem redact_plain {text : Text} (plain : standard.Plain text) :
    standard.Plain (redact host.password text) := by
  unfold redact
  split
  · exact plain
  · intro unit member
    rcases mem_of_mem_replaceWord member with inMarker | inText
    · refine meets.message ?_ unit inMarker
      simp [ownMessages]
    · exact plain unit inText

include meets in
private theorem rejectEvent_steady {message : Text} (plain : standard.Plain message) :
    Within (Steady standard) (rejectEvent host message) := by
  refine Within.bind (pushOwnLog_steady meets ?_ ?_ true) fun _ => .pure false
  · simp [ownLevels]
  · refine Standard.Plain.append (meets.message ?_) plain
    simp [ownMessages]

include meets in
private theorem handleMarked_steady {rawLine : Text} (fit : LineMeets host standard rawLine) :
    Within (Steady standard) (handleMarked host (stripped rawLine)) := by
  unfold handleMarked
  split
  · exact .pure false
  · rename_i markerIndex found
    have carried : extractPanelJson (stripped rawLine) (markerIndex + panelMarker.length) ∈ payload rawLine := by
      rw [payload, found]
      rfl
    split
    · rename_i message failed
      exact rejectEvent_steady meets (fit.error _ carried message failed)
    · rename_i event parsed
      refine Within.bind (handlePanelEvent_steady meets (fit.event _ carried event parsed)).attempt
        fun handled => ?_
      cases handled with
      | ok _ => exact .pure true
      | error error =>
        cases error
        refine rejectEvent_steady meets (meets.message ?_)
        simp [ownMessages]

private theorem classifyProcessError_own {line code : Text} (classified : classifyProcessError line = some code) :
    code ∈ ownWords := by
  unfold classifyProcessError at classified
  split at classified
  · rename_i pattern found
    cases classified
    exact mem_append_right _ (mem_map_of_mem (mem_of_find?_eq_some found))
  · split at classified
    · cases classified
      exact mem_append_left _ (by simp)
    · cases classified

include meets in
private theorem recordProcessError_steady (source : Source) (line : Text) :
    Within (Steady standard) (recordProcessError host source line) := by
  refine Within.get.bind fun manager => ?_
  refine Within.ite ?_ (.pure ())
  cases classified : classifyProcessError line with
  | none => exact .pure ()
  | some code =>
    refine (timestamp_steady host).bind_returns (timestamp_returns meets) fun time timed => ?_
    exact recordFatalError_steady meets _ (by simp) (meets.word (classifyProcessError_own classified))
      (meets.redacted line) timed

private theorem lineLevel_own (source : Source) (line : Text) : lineLevel source line ∈ ownLevels := by
  unfold lineLevel
  split
  · simp [ownLevels]
  · split
    · simp [ownLevels]
    · simp [ownLevels]

include meets in
theorem handleLine_steady (source : Source) {rawLine : Text} (fit : LineMeets host standard rawLine) :
    Within (Steady standard) (handleLine host source rawLine) := by
  refine Within.ite (.pure ()) ?_
  refine Within.bind (persistRawLine_steady meets source _) fun _ => ?_
  refine Within.bind (handleMarked_steady meets fit) fun handled => ?_
  refine Within.ite (.pure ()) ?_
  refine Within.bind (recordProcessError_steady meets source _) fun _ => ?_
  exact pushOwnLog_steady meets (lineLevel_own source _) (redact_plain meets (plain_stripped fit.plain)) true

end Lines

section Process

variable {N : Type} {host : Host N} {standard : Standard} (meets : Meets host standard)

include meets in
theorem handleError_steady {message : Text} (fit : standard.text message) (plain : standard.Plain message) :
    Within (Steady standard) (handleError host message) := by
  have status : standard.text (lit "error") ∧ standard.Plain (lit "error") :=
    ⟨meets.word (mem_append_left _ (by simp)),
      meets.message (by simp [ownMessages])⟩
  refine Within.bind (pushOwnLog_steady meets ?_ ?_ true) fun _ => markAllRunning_steady meets status fit
  · simp [ownLevels]
  · refine Standard.Plain.append (meets.message ?_) plain
    simp [ownMessages]

include meets in
theorem beginStop_steady (child : Child) {failure : Option Text} (plain : ∀ message ∈ failure, standard.Plain message) :
    Within (Steady standard) (beginStop host child failure) := by
  refine Within.bind ?_ fun _ => Within.bind (pushOwnLog_steady meets ?_ ?_ true) fun _ => ?_
  · exact steady_modify (fun _ clean => { clean with }) (fun _ => rfl) fun _ => rfl
  · simp [ownLevels]
  · refine meets.message ?_
    simp [ownMessages]
  refine Within.bind (emitSnapshot_steady meets) fun _ => ?_
  cases failure with
  | none => exact steady_modify (fun _ clean => { clean with }) (fun _ => rfl) fun _ => rfl
  | some message =>
    refine pushOwnLog_steady meets ?_ (Standard.Plain.append (meets.message ?_) (plain message rfl)) true
    · simp [ownLevels]
    · simp [ownMessages]

include meets in
theorem endStop_steady (child : ℕ) : Within (Steady standard) (endStop host child) := by
  refine Within.get.bind fun manager => Within.ite ?_ (.pure ())
  refine Within.bind (pushOwnLog_steady meets ?_ (meets.message ?_) true) fun _ => ?_
  · simp [ownLevels]
  · simp [ownMessages]
  · exact steady_modify (fun _ clean => { clean with }) (fun _ => rfl) fun _ => rfl

/-- How a process ended can be shown and logged. -/
def ExitMeets (standard : Standard) (code : Option ℤ) (signal : Option Text) : Prop :=
  standard.text (lit "Proces zakończył się nieoczekiwanie " ++ exitText code signal) ∧
    standard.Plain (exitText code signal)

include meets in
private theorem reportExit_steady {code : Option ℤ} {signal : Option Text} (fit : ExitMeets standard code signal)
    (expected : Bool) : Within (Steady standard) (reportExit host expected code signal) := by
  have ownWord : ∀ {text}, text ∈ [lit "stopped", lit "error", lit "Zatrzymano przez operatora",
      lit "Proces zakończył się nieoczekiwanie", lit "process_exit"] → standard.text text := by
    intro text member
    refine meets.word (mem_append_left _ ?_)
    simp only [mem_cons, not_mem_nil, or_false] at member ⊢
    rcases member with rfl | rfl | rfl | rfl | rfl <;> simp only [true_or, or_true]
  refine Within.bind (pushOwnLog_steady meets ?_ ?_ true) fun _ => Within.get.bind fun manager => ?_
  · cases expected <;> simp [ownLevels]
  · refine Standard.Plain.append (meets.message ?_) fit.2
    simp [ownMessages]
  refine Within.bind (Within.guarded fun _ => ?_) fun _ => Within.bind ?_ fun _ => ?_
  · refine (timestamp_steady host).bind_returns (timestamp_returns meets) fun time timed => ?_
    exact recordFatalError_steady meets _ (by simp) (ownWord (by simp)) fit.1
      timed
  · refine markAllRunning_steady meets ⟨?_, ?_⟩ ?_
    · cases expected <;>
        exact ownWord (by simp)
    · cases expected <;> refine meets.message ?_ <;>
        simp [ownMessages]
    · cases expected <;>
        exact ownWord (by simp)
  · refine Within.get.bind fun _ => Within.bind ?_ fun _ => .pure _
    exact steady_modify (fun _ clean => { clean with }) (fun _ => rfl) fun _ => rfl

include meets in
/-- The end of a process makes the manager forget it, if it is the recorded one. -/
theorem handleExit_clean {child : ℕ} {code : Option ℤ} {signal : Option Text} (fit : ExitMeets standard code signal)
    {manager : RuntimeManager N} (clean : Clean standard manager) :
    Clean standard (handleExit host child code signal manager).2 ∧
      (handleExit host child code signal manager).2.child =
        (if manager.child.map (·.id) = some child then none else manager.child) ∧
      (manager.startedAt.isSome → (handleExit host child code signal manager).2.startedAt.isSome) := by
  have forgotten : Clean standard { manager with child := none, stopping := false } := { clean with }
  have reported : Within (Steady standard) (reportExit host manager.stopping code signal >>= fun tempDir =>
      Handler.pure (some tempDir)) := Within.bind (reportExit_steady meets fit manager.stopping) fun _ => .pure _
  by_cases recorded : manager.child.map (·.id) = some child
  · rw [handleExit, get_bind, if_neg (by simpa using recorded), modify_bind, if_pos recorded]
    exact reported _ forgotten
  · have ran : (handleExit host child code signal manager).2 = manager := by
      rw [handleExit, get_bind, if_pos (by simpa using recorded)]
      rfl
    rw [ran, if_neg recorded]
    exact ⟨clean, rfl, id⟩

end Process

section Start

variable {N : Type} {host : Host N} {standard : Standard} (meets : Meets host standard)

/-- An account that can be shown. -/
structure AccountMeets (standard : Standard) (account : AccountConfig) : Prop where
  username : standard.text account.username
  plain : standard.Plain account.username
  mode : standard.text account.mode

include meets in
private theorem addAccount_steady {account : AccountConfig} (fit : AccountMeets standard account) :
    Within (Steady standard) (addAccount host account) := by
  refine (timestamp_steady host).bind_returns (timestamp_returns meets) fun time timed => ?_
  refine steady_modify (fun manager clean => clean.setAccount ⟨fit.username, fit.plain⟩ ?_ ?_) (fun _ => rfl)
    fun _ => rfl
  · refine meets.message ?_
    simp [ownMessages]
  · intro text member
    simp only [accountStrings, Option.toList_none, flatMap_nil, append_nil, mem_cons, not_mem_nil, or_false] at member
    rcases member with rfl | rfl | rfl | rfl | rfl
    · exact fit.username
    · exact fit.mode
    · exact meets.word (mem_append_left _ (by simp))
    · exact meets.word (mem_append_left _ (by simp))
    · exact meets.time timed

include meets in
theorem resetRun_steady {accounts : List AccountConfig} (fit : ∀ account ∈ accounts, AccountMeets standard account) :
    Within (Steady standard) (resetRun host accounts) := by
  refine Within.bind ?_ fun _ => Within.bind (Within.forEach fun account member =>
    addAccount_steady meets (fit account member)) fun _ => Within.bind ?_ fun _ => ?_
  · exact steady_modify (fun _ clean => { clean with
      names := by simp, statuses := by simp, accounts := by simp, history := by simp, lastError := by simp })
      (fun _ => rfl) fun _ => rfl
  · exact steady_modify (fun _ clean => clean.withLogs (by simp)) (fun _ => rfl) fun _ => rfl
  · refine (timestamp_steady host).bind_returns (timestamp_returns meets) fun time timed => ?_
    refine Within.bind ?_ fun _ => .pure _
    intro manager clean
    refine ⟨{ clean with startedAt := ?_, logDir := ?_ }, rfl, fun _ => rfl⟩
    · intro started isTime
      cases isTime
      exact timed
    · intro dir isDir
      cases isDir
      exact meets.runDir timed

theorem resetRun_started {accounts : List AccountConfig} {manager next : RuntimeManager N} {botsDir : Text}
    (ran : resetRun host accounts manager = (.ok botsDir, next)) : next.startedAt.isSome = true := by
  obtain ⟨_, _, _, afterReset⟩ := bind_eq_ok ran
  obtain ⟨_, _, _, afterAccounts⟩ := bind_eq_ok afterReset
  obtain ⟨_, _, _, afterLogs⟩ := bind_eq_ok afterAccounts
  obtain ⟨time, ticked, _, afterTime⟩ := bind_eq_ok afterLogs
  cases afterTime
  rfl

theorem openLogs_steady (botsDir : Text) : Within (Steady standard) (openLogs host botsDir) :=
  steady_modify (fun _ clean => { clean with }) (fun _ => rfl) fun _ => rfl

include meets in
theorem writeDiagnostics_steady {manager : RuntimeManager N} (started : manager.startedAt.isSome) :
    Steady standard manager (writeDiagnostics host manager).2 := by
  intro clean
  obtain ⟨time, isTime⟩ := Option.isSome_iff_exists.mp started
  unfold writeDiagnostics
  rw [get_bind]
  cases manager.logFiles with
  | none => exact ⟨clean, rfl, id⟩
  | some files =>
    refine queueLog_steady _ ?_ manager clean
    rw [isTime]
    exact meets.diagnostic _ (clean.startedAt time isTime)
      (meets.word (mem_append_left _ (by simp)))

include meets in
theorem recordChild_clean (child : Child) {manager : RuntimeManager N} (clean : Clean standard manager) :
    Clean standard (recordChild child manager).2 ∧ (recordChild child manager).2.child = some child ∧
      (manager.startedAt.isSome → (recordChild child manager).2.startedAt.isSome) := by
  have recorded : Clean standard { manager with child := some child } := { clean with }
  exact emitSnapshot_steady meets _ recorded

end Start

end MineRider.Soundness.PanelHandlers
