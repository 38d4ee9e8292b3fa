import MineRider.Soundness.PanelSteps

/-! # The password stays out of sight

Redaction replaces the password in a text, and the panel then puts the text into a frame: a log line, a JSON record, a
state of an account. None of this shows the password if the password has nothing in common with the frames and with the
escape sequences of JSON that are used. But the texts of an account's event are shown as they are, so they have to be
free of the password already.
-/

namespace MineRider.Soundness.Redaction

open List Machine Machine.Js Model.Panel PanelRecords PanelHandlers PanelSteps

section Password

variable {N : Type} (host : Host N)

/-- To be free of the password, for texts; for units, that their escape sequence has nothing in common with it. -/
def secrecy : Standard where
  text := Free host.password
  unit unit := mayEscape unit = true → Apart host.password (unitEscape unit)
  time time := ∃ n, time = host.now n

/-- The password has nothing in common with what the panel writes of its own: its words do not contain it, and it can
not be completed across the edge of one of its frames. -/
structure Uncommon : Prop where
  nonempty : host.password ≠ []
  word : ∀ text ∈ ownWords, Free host.password text
  level : ∀ level ∈ ownLevels, Free host.password level ∧ Free host.password (quote level) ∧
    Free host.password (lit "panel/" ++ level)
  time : ∀ n, Free host.password (host.now n)
  runDir : ∀ n, Free host.password (host.joinPath host.logRoot (runName (host.now n)))
  marker : Apart host.password redactedMarker
  rawOpening : ∀ n, Apart host.password (lit "[" ++ host.now n ++ lit "] ")
  opening : ∀ n, Apart host.password (lit "[" ++ host.now n ++ lit "] [")
  closing : Apart host.password (lit "] ")
  newline : Apart host.password (lit "\n")
  jsonTime : ∀ n, Apart host.password (lit "\x7b\"at\":" ++ quote (host.now n) ++ lit ",\"level\":")
  jsonMessage : Apart host.password (lit ",\"message\":\"")
  jsonEnd : Apart host.password (lit "\"\x7d\n")

variable {host}

/-- The record of a log entry, cut into its frame and its contents. -/
theorem entry_json (numbers : Numbers N) (time message : Text) (level : Value N) :
    (LogEntry.toValue ⟨time, level, message⟩).stringify numbers ++ lit "\n" =
      (lit "\x7b\"at\":" ++ quote time ++ lit ",\"level\":") ++ level.stringify numbers ++
        lit ",\"message\":\"" ++ escape message ++ lit "\"\x7d\n" := by
  have atName : lit "\x7b\"at\":" = lit "\x7b" ++ quote (lit "at") ++ lit ":" := by decide +kernel
  have levelName : lit ",\"level\":" = lit "," ++ quote (lit "level") ++ lit ":" := by decide +kernel
  have messageName : lit ",\"message\":\"" = lit "," ++ quote (lit "message") ++ lit ":" ++ lit "\"" := by
    decide +kernel
  have ending : lit "\"\x7d\n" = lit "\"" ++ lit "\x7d" ++ lit "\n" := by decide +kernel
  rw [atName, levelName, messageName, ending]
  simp only [LogEntry.toValue, Value.stringify, Value.fieldJsons, intercalate_cons_cons,
    intercalate_singleton, quote, append_assoc]

/-- Whether no unit of a text is escaped in a JSON string. -/
def unescaped (text : Text) : Bool := text.all fun unit => !mayEscape unit

variable {text : Text}

theorem not_escaped_of_unescaped (plain : unescaped text = true) {unit : UInt16} (member : unit ∈ text) :
    mayEscape unit = false := by
  simpa using all_eq_true.mp plain unit member

private theorem ownMessages_unescaped (own : text ∈ ownMessages) : unescaped text = true := by
  have all : ownMessages.all unescaped = true := by decide +kernel
  exact all_eq_true.mp all text own

private theorem redact_free (uncommon : Uncommon host) (text : Text) :
    Free host.password (redact host.password text) := by
  rw [redact, if_neg uncommon.nonempty]
  exact replaceWord_free uncommon.nonempty uncommon.marker text

/-- What is redacted keeps its units, so it can be escaped like the text it is made of. -/
theorem escape_redact_free (uncommon : Uncommon host) (plain : (secrecy host).Plain text) :
    Free host.password (escape (redact host.password text)) := by
  refine (escape_escapes _ fun unit member special => ?_).free (redact_free uncommon text)
  rw [redact, if_neg uncommon.nonempty] at member
  rcases mem_of_mem_replaceWord member with inMarker | inText
  · have own : redactedMarker ∈ ownMessages := by simp [ownMessages]
    rw [not_escaped_of_unescaped (ownMessages_unescaped own) inMarker] at special
    cases special
  · exact plain unit inText special

/-- Redaction and the frames of the panel keep a password out that is uncommon. -/
theorem Uncommon.meets (uncommon : Uncommon host) : Meets host (secrecy host) where
  now n := ⟨n, rfl⟩
  time := by
    rintro _ ⟨n, rfl⟩
    exact uncommon.time n
  word member := uncommon.word _ member
  level := by
    intro level member
    obtain ⟨plain, quoted, shown⟩ := uncommon.level level member
    refine ⟨fun text inside => ?_, quoted, fun text converted => ?_⟩
    · rw [Value.strings, mem_singleton] at inside
      exact inside ▸ plain
    · cases converted
      exact shown
  message member unit inside special := by
    rw [not_escaped_of_unescaped (ownMessages_unescaped member) inside] at special
    cases special
  redacted := redact_free uncommon
  rawLine := by
    rintro _ text ⟨n, rfl⟩
    have opened := (uncommon.rawOpening n).free_left uncommon.nonempty (redact_free uncommon text)
    exact uncommon.newline.free_right uncommon.nonempty opened
  diagnostic := by
    rintro _ source text ⟨n, rfl⟩ sourceFree
    have opened := (uncommon.opening n).free_left uncommon.nonempty sourceFree
    have closed := uncommon.closing.free_append opened (redact_free uncommon text)
    exact uncommon.newline.free_right uncommon.nonempty closed
  botLine text := uncommon.newline.free_right uncommon.nonempty (redact_free uncommon text)
  logLine := by
    rintro _ text level ⟨n, rfl⟩ levelFree plain
    rw [entry_json]
    have timed := (uncommon.jsonTime n).free_left uncommon.nonempty levelFree
    have worded := uncommon.jsonMessage.free_append timed (escape_redact_free uncommon plain)
    exact uncommon.jsonEnd.free_right uncommon.nonempty worded
  runDir := by
    rintro _ ⟨n, rfl⟩
    exact uncommon.runDir n

/-- In every run with an uncommon password and with inputs that do not carry it where the panel shows them as they are,
nothing that the panel shows, emits or writes contains the password. -/
theorem password_is_not_shown (uncommon : Uncommon host) (inputs : List Input)
    (harmless : ∀ input ∈ inputs, InputMeets host (secrecy host) input) :
    (∀ text ∈ snapshotStrings (inputs.foldl (System.step host) System.new).manager.getSnapshot,
        Free host.password text) ∧
      (∀ username, ∀ event ∈ (inputs.foldl (System.step host) System.new).manager.getAccountEvents username,
        ∀ text ∈ eventStrings event, Free host.password text) ∧
      (∀ emitted ∈ (inputs.foldl (System.step host) System.new).manager.emitted, ∀ text ∈ emittedStrings emitted,
        Free host.password text) ∧
      ∀ line ∈ (inputs.foldl (System.step host) System.new).manager.written, Free host.password line.2 := by
  have meets := uncommon.meets
  have fit : SystemMeets (secrecy host) (inputs.foldl (System.step host) System.new) := by
    refine List.foldlRecOn inputs (System.step host) systemMeets_new fun system fit input member => ?_
    exact step_meets meets fit (harmless input member)
  exact ⟨fit.manager.snapshot meets.time, fit.manager.accountEvents, fit.manager.emitted, fit.manager.written⟩

end Password

section Demo

def oneBot : List AccountConfig := [⟨lit "Bot01", lit "afk", true⟩]

/-- A start whose child lives. -/
def startedRun : List Input := [
  .startRequested oneBot [], .arrived 0 .fulfilled, .arrived 0 (.directory (lit "tmp")), .arrived 0 .fulfilled,
  .arrived 0 .fulfilled, .arrived 0 .fulfilled, .arrived 0 .fulfilled, .arrived 0 .fulfilled,
  .arrived 0 (.spawned (.alive 100))]

def stillTime : Text := lit "2026-01-01T00:00:00.000Z"

/-- A host whose clock stands still. -/
def stillHost (password : Text) (parse : Text → Except Text (Value ℕ)) : Host ℕ where
  numbers := ⟨(· == 0), fun _ => true, fun n => lit (toString n), fun n => lit (toString n)⟩
  parse := parse
  now _ := stillTime
  joinPath first second := first ++ lit "/" ++ second
  toLowerCase text := text
  logRoot := lit "logs"
  password := password

def quietHost : Host ℕ := stillHost (lit "#!") fun _ => .error (lit "?")

private theorem quietHost_uncommon : Uncommon quietHost := by
  have apart : ∀ {text : Text}, text ≠ [] → ((lit "#!").all fun unit => !text.contains unit) = true →
      Apart quietHost.password text := by
    intro text nonempty disjoint
    have nowhere : ∀ unit ∈ lit "#!", unit ∉ text := by simpa using disjoint
    exact apart_of_disjoint (by decide +kernel) nonempty nowhere
  have rawOpening : Apart quietHost.password (lit "[" ++ stillTime ++ lit "] ") :=
    apart (by decide +kernel) (by decide +kernel)
  have opening : Apart quietHost.password (lit "[" ++ stillTime ++ lit "] [") :=
    apart (by decide +kernel) (by decide +kernel)
  have jsonTime : Apart quietHost.password (lit "\x7b\"at\":" ++ quote stillTime ++ lit ",\"level\":") :=
    apart (by decide +kernel) (by decide +kernel)
  have runDir : Free quietHost.password (lit "logs" ++ lit "/" ++ runName stillTime) := by
    unfold Free
    decide +kernel
  have time : Free quietHost.password stillTime := by
    unfold Free
    decide +kernel
  exact
    { nonempty := by decide +kernel
      word := by unfold Free; decide +kernel
      level := by unfold Free; decide +kernel
      time := fun _ => time
      runDir := fun _ => runDir
      marker := apart (by decide +kernel) (by decide +kernel)
      rawOpening := fun _ => rawOpening
      opening := fun _ => opening
      closing := apart (by decide +kernel) (by decide +kernel)
      newline := apart (by decide +kernel) (by decide +kernel)
      jsonTime := fun _ => jsonTime
      jsonMessage := apart (by decide +kernel) (by decide +kernel)
      jsonEnd := apart (by decide +kernel) (by decide +kernel) }

/-- A line of output that shows the password. -/
def loginLine : Text := lit "login #! failed"

def loginRun : List Input := startedRun ++ [.line 0 .stderr loginLine]

private theorem plain_of_unescaped {text : Text} (plain : unescaped text = true) : (secrecy quietHost).Plain text := by
  intro unit member special
  rw [not_escaped_of_unescaped plain member] at special
  cases special

private theorem loginRun_harmless : ∀ input ∈ loginRun, InputMeets quietHost (secrecy quietHost) input := by
  have unmarked : payload loginLine = none := by decide +kernel
  have line : LineMeets quietHost (secrecy quietHost) loginLine :=
    { plain := plain_of_unescaped (by decide +kernel)
      event := fun json carried => by rw [unmarked] at carried; cases carried
      error := fun json carried => by rw [unmarked] at carried; cases carried }
  have account : AccountMeets (secrecy quietHost) ⟨lit "Bot01", lit "afk", true⟩ :=
    { username := by change ¬ _ <:+: _; decide +kernel
      plain := plain_of_unescaped (by decide +kernel)
      mode := by change ¬ _ <:+: _; decide +kernel }
  intro input member
  simp only [loginRun, startedRun, cons_append, nil_append, mem_cons, not_mem_nil, or_false]
    at member
  rcases member with rfl | rfl | rfl | rfl | rfl | rfl | rfl | rfl | rfl | rfl
  · intro selected listed
    have within := (mem_filter.mp listed).1
    obtain rfl := mem_singleton.mp within
    exact account
  all_goals trivial

theorem password_is_not_shown_demo :
    ((loginRun.foldl (System.step quietHost) System.new).manager.logs.map (·.message)) =
        [lit "login [REDACTED] failed"] ∧
      ∀ line ∈ (loginRun.foldl (System.step quietHost) System.new).manager.written,
        Free quietHost.password line.2 := by
  refine ⟨by decide +kernel, ?_⟩
  exact (password_is_not_shown quietHost_uncommon loginRun loginRun_harmless).2.2.2

/-- What an event of the bot says. -/
def eventText : Text := lit "\x7b\"username\":\"Bot01\",\"status\":\"online\",\"message\":\"sekret\"\x7d"

def eventValue : Value ℕ := .object [
  (lit "username", .string (lit "Bot01")), (lit "status", .string (lit "online")),
  (lit "message", .string (lit "sekret"))]

/-- A host that reads the event as JSON does. -/
def leakHost : Host ℕ :=
  stillHost (lit "sekret") fun json => if json = eventText then .ok eventValue else .error (lit "?")

def leakRun : List Input := startedRun ++ [.line 0 .stdout (lit "@panel:" ++ eventText)]

/-- The message of an account's event is shown as it is, in the snapshot and in the history of the account. -/
theorem event_message_shows_password :
    (∃ text ∈ snapshotStrings (leakRun.foldl (System.step leakHost) System.new).manager.getSnapshot,
        leakHost.password <:+: text) ∧
      ∃ event ∈ (leakRun.foldl (System.step leakHost) System.new).manager.getAccountEvents (lit "Bot01"),
        leakHost.password <:+: event.message := by
  decide +kernel

end Demo

end MineRider.Soundness.Redaction
