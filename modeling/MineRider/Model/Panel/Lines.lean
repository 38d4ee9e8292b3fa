import MineRider.Machine.Javascript

/-! # Lines of output

What the panel makes of the texts it reads and writes: terminal sequences are removed, the JSON of an event is cut out
of its line, the failures of the process are told apart by how their line begins, and the password is replaced.
-/

namespace MineRider.Model.Panel

open Machine Machine.Js

section Reading

/-- The lines of a text behind `current`, the beginning of the first: a line feed ends a line, together with the
carriage return before it. -/
def splitLinesFrom : Text → Text → List Text
  | current, [] => [current]
  | current, unit :: rest =>
    if unit = 0x0A then
      (if current.getLast? = some 0x0D then current.dropLast else current) :: splitLinesFrom [] rest
    else splitLinesFrom (current ++ [unit]) rest

/-- `split(/\r?\n/)` -/
def splitLines (value : Text) : List Text := splitLinesFrom [] value

/-- The calls of the callback of `attach_line_reader`, for the chunks that are still to come. -/
def attachLineReader (pending : Text) : List Text → List Text
  | [] => if pending = [] then [] else [pending]
  | chunk :: chunks =>
    let lines := splitLines (pending ++ chunk)
    lines.dropLast ++ attachLineReader (lines.getLast?.getD []) chunks

def panelMarker : Text := lit "@panel:"

/-- Where `strip_ansi` is in a terminal sequence, with what it has read of it. -/
inductive AnsiState where
  | text
  | escape
  | parameters (read : Text)
  | intermediates (read : Text)

/-- What was read of a sequence that turns out not to be one. -/
def AnsiState.pending : AnsiState → Text
  | .text => []
  | .escape => [0x1B]
  | .parameters read => read
  | .intermediates read => read

/-- The state after a unit that does not continue a sequence. -/
def ansiStart (unit : UInt16) : AnsiState := if unit = 0x1B then .escape else .text

/-- One unit: what it leaves in the text, and the state after it. -/
def ansiStep (state : AnsiState) (unit : UInt16) : Text × AnsiState :=
  let parameter := 0x30 ≤ unit && unit ≤ 0x3F
  let intermediate := 0x20 ≤ unit && unit ≤ 0x2F
  let final := 0x40 ≤ unit && unit ≤ 0x7E
  let restart := (state.pending ++ (if unit = 0x1B then [] else [unit]), ansiStart unit)
  match state with
  | .text => restart
  | .escape => if unit = 0x5B then ([], .parameters [0x1B, 0x5B]) else restart
  | .parameters read =>
    if parameter then ([], .parameters (read ++ [unit]))
    else if intermediate then ([], .intermediates (read ++ [unit]))
    else if final then ([], .text)
    else restart
  | .intermediates read =>
    if intermediate then ([], .intermediates (read ++ [unit]))
    else if final then ([], .text)
    else restart

def stripFrom : AnsiState → Text → Text
  | state, [] => state.pending
  | state, unit :: rest =>
    let (left, next) := ansiStep state unit
    left ++ stripFrom next rest

def stripAnsi (value : Text) : Text := stripFrom .text value

/-- The rest of the loop of `extract_panel_json`: the object up to the brace that closes it, or none if it is not
closed. -/
def objectEnd : ℕ → Bool → Bool → Text → Option Text
  | _, _, _, [] => none
  | depth, true, escaped, unit :: rest =>
    let read :=
      if escaped then objectEnd depth true false rest
      else if unit = 0x5C then objectEnd depth true true rest
      else if unit = 0x22 then objectEnd depth false false rest
      else objectEnd depth true false rest
    read.map (unit :: ·)
  | depth, false, escaped, unit :: rest =>
    if unit = 0x22 then (objectEnd depth true escaped rest).map (unit :: ·)
    else if unit = 0x7B then (objectEnd (depth + 1) false escaped rest).map (unit :: ·)
    else if unit = 0x7D then
      if depth = 1 then some [unit] else (objectEnd (depth - 1) false escaped rest).map (unit :: ·)
    else (objectEnd depth false escaped rest).map (unit :: ·)

/-- The first complete object of a line from an offset on. -/
def extractPanelJson (line : Text) (offset : ℕ) : Text :=
  let rest := line.drop offset
  let start := rest.dropWhile (· ≠ 0x7B)
  if start = [] then trim rest else (objectEnd 0 false false start).getD (trim start)

end Reading

section Classes

/-- The codes of the failures that the process reports itself, with the beginnings of their lines. -/
def processErrorPatterns : List (Text × List Text) := [
  (lit "invalid_arguments", [lit "error: unrecognized argument", lit "error: --lua-workers must be",
    lit "error: a script path is required"]),
  (lit "script_read_failed", [lit "error: could not read script"]),
  (lit "proxy_profile_invalid", [lit "error: proxy profile configuration failed"]),
  (lit "tokio_start_failed", [lit "error: could not start the tokio runtime"]),
  (lit "swarm_start_failed", [lit "error: swarm failed to start"])]

def classifyProcessError (line : Text) : Option Text :=
  match processErrorPatterns.find? fun pattern => pattern.2.any (·.isPrefixOf line) with
  | some pattern => some pattern.1
  | none => if (lit "error: ").isPrefixOf line then some (lit "process_error") else none

/-- A letter, a digit or an underscore. -/
def isWordUnit (unit : UInt16) : Bool :=
  (0x30 ≤ unit && unit ≤ 0x39) || (0x41 ≤ unit && unit ≤ 0x5A) || (0x61 ≤ unit && unit ≤ 0x7A) || unit == 0x5F

def lowerUnit (unit : UInt16) : UInt16 := if 0x41 ≤ unit && unit ≤ 0x5A then unit + 0x20 else unit

/-- One of the words stands in the rest of a text as a whole word, in any case; `inWord` says that the unit before is
part of a word. -/
def hasWordFrom (words : List Text) : Bool → Text → Bool
  | _, [] => false
  | inWord, unit :: rest =>
    (!inWord && words.any fun word =>
      word.isPrefixOf ((unit :: rest).map lowerUnit) && !((unit :: rest)[word.length]?.any isWordUnit)) ||
    hasWordFrom words (isWordUnit unit) rest

def hasWord (words : List Text) (line : Text) : Bool := hasWordFrom words false line

inductive Source where
  | stdout
  | stderr
deriving DecidableEq, Repr

def Source.name : Source → Text
  | .stdout => lit "stdout"
  | .stderr => lit "stderr"

/-- The level under which a line that is no event is logged. -/
def lineLevel (source : Source) (line : Text) : Text :=
  if source = .stderr || hasWord [lit "error", lit "failed", lit "panic"] line then lit "error"
  else if hasWord [lit "warn"] line then lit "warn"
  else lit "info"

end Classes

section Writing

def redactedMarker : Text := lit "[REDACTED]"

/-- `redact`, for the password of the environment; there is none if it is empty. -/
def redact (password value : Text) : Text :=
  if password = [] then value else replaceWord password redactedMarker value

/-- A user name as a file name. -/
def safeLogName (value : Text) : Text :=
  let safe := ((if value = [] then lit "unknown" else value).map fun unit =>
    if isWordUnit unit || unit == 0x2D then unit else 0x5F).take 64
  if safe = [] then lit "unknown" else safe

def formatDiagnostic (password time source message : Text) : Text :=
  lit "[" ++ time ++ lit "] [" ++ source ++ lit "] " ++ redact password message ++ lit "\n"

end Writing

end MineRider.Model.Panel
