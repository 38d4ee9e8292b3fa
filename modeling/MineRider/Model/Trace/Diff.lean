import Mathlib.Algebra.Order.Field.Rat
import MineRider.Model.Trace.Normalize

/-! # Comparing traces

The comparator walks two normalized traces and stops at the first divergence. A serverbound packet
that matches is also held to the timing class of the clientbound packet before it. What timestamps
mean, the equality of `serde_json` values and how values are printed are parameters; delays are exact.
-/

namespace MineRider.Model.Trace

open Minecraft

section Coverage

inductive ConnectionState where
  | handshaking
  | status
  | login
  | configuration
  | play
deriving DecidableEq, Repr

inductive TimingClass where
  | strict
  | tickBound
  | periodic
  | bestEffort
  | none
deriving DecidableEq, Repr

def TimingClass.debug : TimingClass → String
  | .strict => "Strict"
  | .tickBound => "TickBound"
  | .periodic => "Periodic"
  | .bestEffort => "BestEffort"
  | .none => "None"

/-- The packets whose coverage entry asks for a strict answer. -/
def strictIds : ConnectionState → List Int32
  -- `encryption_begin`, `success`, `compress`, `login_plugin_request`, `cookie_request`
  | .login => [1, 2, 3, 4, 5]
  -- `cookie_request`, `finish_configuration`, `keep_alive`, `ping`, `add_resource_pack`, `transfer`,
  -- `select_known_packs`
  | .configuration => [0, 3, 4, 5, 9, 11, 14]
  -- `chunk_batch_finished`, `cookie_request`, `keep_alive`, `ping`, `position`, `add_resource_pack`,
  -- `start_configuration`, `transfer`
  | .play => [12, 22, 39, 55, 66, 75, 112, 122]
  | _ => []

/-- `clientbound_coverage(state, id).obligation.timing`: every other entry expects no answer. -/
def clientboundCoverage (state : ConnectionState) (id : Int32) : TimingClass :=
  if id ∈ strictIds state then .strict else .none

def f64Max : ℚ := (2 ^ 53 - 1) * 2 ^ 971

def f64Epsilon : ℚ := 1 / 2 ^ 52

def timingOk (timing : TimingClass) (delayExpectedMs delayActualMs : ℚ) : Bool :=
  match timing with
  | .strict => delayActualMs ≤ delayExpectedMs + 100 ∧ delayActualMs ≤ 1000
  | .tickBound => |delayActualMs - delayExpectedMs| ≤ 100
  | .periodic =>
    delayExpectedMs ≤ f64Epsilon ∨
      max 0 (min (delayActualMs / delayExpectedMs) f64Max) ≥ 1 / 2 ∧ delayActualMs ≤ delayExpectedMs * 2 + 50
  | .bestEffort | .none => true

end Coverage

section Diff

inductive DivergenceKind where
  | missingPacket
  | extraPacket
  | wrongPacket
  | wrongFieldValue
  | timingViolation
deriving DecidableEq, Repr

structure Divergence where
  index : ℕ
  kind : DivergenceKind
  detail : String

structure DiffReport where
  compared : ℕ
  divergence : Option Divergence
  fallout : ℕ

/-- What the comparator takes from outside. A `serde_json` number is finite, so each value equals itself. -/
structure Outside where
  time : UInt64 → ℚ
  equal : Json → Json → Bool
  equal_self : ∀ value, equal value value = true
  /-- `{:?}` -/
  debug : Option Json → String
  /-- `{:.1}` -/
  oneDecimal : ℚ → String

def lookahead : ℕ := 8

def Direction.debug : Direction → String
  | .clientbound => "Clientbound"
  | .serverbound => "Serverbound"

def eventLabel (event : TraceEvent) : String :=
  event.dir.debug ++ " " ++ event.state ++ " id=" ++ toString event.id ++ " (" ++ event.name ++ ")"

def stateOf (event : TraceEvent) : Option ConnectionState :=
  if event.state = "login" then some .login
  else if event.state = "configuration" then some .configuration
  else if event.state = "play" then some .play
  else none

def samePacket (a b : TraceEvent) : Bool :=
  a.dir = b.dir ∧ a.state = b.state ∧ a.id = b.id ∧ a.name = b.name

/-- `events[..i].iter().rev().find(|event| event.dir == Direction::Clientbound)` -/
def latestClientbound (events : List TraceEvent) (i : ℕ) : Option TraceEvent :=
  (events.take i).reverse.find? (·.dir = .clientbound)

variable (outside : Outside)

def sameFields : Option Json → Option Json → Bool
  | some a, some b => outside.equal a b
  | none, none => true
  | _, _ => false

/-- `matches` -/
def matchesEvent (expected actual : TraceEvent) : Bool :=
  samePacket expected actual && sameFields outside expected.fields actual.fields

def findAhead (haystack : List TraceEvent) (start : ℕ) (needle : TraceEvent) : Option ℕ :=
  (((haystack.drop start).take lookahead).findIdx? (matchesEvent outside · needle)).map (start + ·)

def checkTiming (expected actual : List TraceEvent) (i j : ℕ) (wanted got : TraceEvent) : Option Divergence := do
  guard (wanted.dir = .serverbound)
  let trigger ← latestClientbound expected i
  let state ← stateOf trigger
  guard ¬(state = .play ∧ wanted.id ∈ [28, 29, 30, 31, 42])
  let timing := clientboundCoverage state trigger.id
  guard ¬(timing = .none ∨ timing = .bestEffort)
  let delayExpected := outside.time wanted.tsRelMs - outside.time trigger.tsRelMs
  let actualTrigger ← latestClientbound actual j
  let delayActual := outside.time got.tsRelMs - outside.time actualTrigger.tsRelMs
  guard (timingOk timing delayExpected delayActual = false)
  return ⟨i, .timingViolation, eventLabel got ++ " responded after " ++ outside.oneDecimal delayActual ++
    "ms (expected " ++ outside.oneDecimal delayExpected ++ "ms, class " ++ timing.debug ++ ")"⟩

/-- What is reported of two events at one position that do not match. -/
def mismatch (expected actual : List TraceEvent) (i j : ℕ) (wanted got : TraceEvent) : Divergence :=
  if samePacket wanted got then
    ⟨i, .wrongFieldValue, eventLabel wanted ++ " fields differ: expected " ++ outside.debug wanted.fields ++
      ", got " ++ outside.debug got.fields⟩
  else
    match findAhead outside actual (j + 1) wanted with
    | some found =>
      ⟨i, .extraPacket, "unexpected " ++ eventLabel got ++ " (expected " ++ eventLabel wanted ++ " reappears " ++
        toString (found - j) ++ " events later)"⟩
    | none =>
      if (findAhead outside expected (i + 1) got).isSome then
        ⟨i, .missingPacket, "expected " ++ eventLabel wanted ++ " before " ++ eventLabel got⟩
      else ⟨i, .wrongPacket, "expected " ++ eventLabel wanted ++ ", got " ++ eventLabel got⟩

/-- The loop of `diff`, with `i`, `j` and `compared` as it leaves them. -/
def diffLoop (expected actual : List TraceEvent) (i j compared : ℕ) : (ℕ × ℕ × ℕ) × Option Divergence :=
  match _inside : expected[i]?, actual[j]? with
  | none, none => ((i, j, compared), none)
  | none, some got => ((i, j, compared), some ⟨i, .extraPacket, "unexpected " ++ eventLabel got⟩)
  | some wanted, none => ((i, j, compared), some ⟨i, .missingPacket, "expected " ++ eventLabel wanted⟩)
  | some wanted, some got =>
    if matchesEvent outside wanted got then
      match checkTiming outside expected actual i j wanted got with
      | some violation => ((i, j, compared), some violation)
      | none => diffLoop expected actual (i + 1) (j + 1) (compared + 1)
    else ((i, j, compared), some (mismatch outside expected actual i j wanted got))
termination_by expected.length - i
decreasing_by
  have := (List.getElem?_eq_some_iff.mp _inside).1
  omega

def diff (expected actual : List TraceEvent) : DiffReport :=
  let ((i, j, compared), divergence) := diffLoop outside expected actual 0 0 0
  let fallout := if divergence.isSome then max (expected.length - i) (actual.length - j) - 1 else 0
  ⟨compared, divergence, fallout⟩

end Diff

end MineRider.Model.Trace
