import MineRider.Model.Trace.Diff

/-! # What the trace comparator reports

The walk over two traces stops at the first position whose events do not match or whose answer breaks
its timing class, so the longest prefix that matches with respected timing says all it reports. A
strict answer must come within a second, whatever was expected: a trace with a slower one differs
from itself.
-/

namespace MineRider.Soundness.TraceDiff

open Option Model.Trace

section Timing

/-- The time from `trigger` to `event`. -/
def delay (outside : Outside) (trigger event : TraceEvent) : ℚ :=
  outside.time event.tsRelMs - outside.time trigger.tsRelMs

/-- The event at `k` answers `trigger`, the latest clientbound packet before it, in `state`. -/
def Answers (events : List TraceEvent) (k : ℕ) (event trigger : TraceEvent) (state : ConnectionState) : Prop :=
  event.dir = .serverbound ∧ latestClientbound events k = some trigger ∧ stateOf trigger = some state ∧
    ¬(state = .play ∧ event.id ∈ [28, 29, 30, 31, 42])

variable (outside : Outside) (expected actual : List TraceEvent) (k : ℕ)

/-- If the event at `k` is an answer, it keeps to the timing class of what it answers. -/
def OnTime (wanted got : TraceEvent) : Prop :=
  ∀ trigger state answered, Answers expected k wanted trigger state → latestClientbound actual k = some answered →
    timingOk (clientboundCoverage state trigger.id) (delay outside trigger wanted) (delay outside answered got) = true

/-- The traces have matching events at `k`, and timing is respected there. -/
def AgreeAt : Prop :=
  ∃ wanted got, expected[k]? = some wanted ∧ actual[k]? = some got ∧ matchesEvent outside wanted got = true ∧
    OnTime outside expected actual k wanted got

/-- `n` is the length of the longest prefix of the traces that matches with respected timing. -/
def LongestAgreement (n : ℕ) : Prop := IsGreatest {n | ∀ k < n, AgreeAt outside expected actual k} n

variable {outside expected actual k} {wanted got : TraceEvent}

theorem checkTiming_eq_none_iff :
    checkTiming outside expected actual k k wanted got = none ↔ OnTime outside expected actual k wanted got := by
  simp only [checkTiming, bind_eq_bind, bind_eq_none_iff, guard_eq_some', pure_def,
    reduceCtorEq, imp_false, forall_const, Bool.not_eq_false]
  constructor
  · rintro silent trigger state answered ⟨serverbound, latest, known, asked⟩ earlier
    by_cases idle : clientboundCoverage state trigger.id = .none ∨ clientboundCoverage state trigger.id = .bestEffort
    · rcases idle with idle | idle <;> rw [idle] <;> rfl
    · exact silent serverbound trigger latest state known asked idle answered earlier
  · intro onTime serverbound trigger latest state known asked _ answered earlier
    exact onTime trigger state answered ⟨serverbound, latest, known, asked⟩ earlier

private theorem timingOk_self (state : ConnectionState) (id : Int32) (d : ℚ) :
    timingOk (clientboundCoverage state id) d d = true ↔ (clientboundCoverage state id = .strict → d ≤ 1000) := by
  unfold clientboundCoverage
  split_ifs
  · simp [timingOk]
  · simp [timingOk]

end Timing

section Walk

variable {outside : Outside} {expected actual : List TraceEvent} {i j : ℕ} {wanted got : TraceEvent}

private theorem mismatch_index : (mismatch outside expected actual i j wanted got).index = i := by
  unfold mismatch
  cases findAhead outside actual (j + 1) wanted <;> split_ifs <;> rfl

private theorem checkTiming_index : ∀ d ∈ checkTiming outside expected actual i j wanted got, d.index = i := by
  intro d reported
  simp only [checkTiming, bind_eq_bind, mem_def, bind_eq_some_iff, pure_def, Option.some.injEq] at reported
  obtain ⟨-, -, -, -, -, -, -, -, -, -, -, -, -, -, rfl⟩ := reported
  rfl

theorem agreeAt_iff (first : expected[i]? = some wanted) (second : actual[i]? = some got) :
    AgreeAt outside expected actual i ↔
      matchesEvent outside wanted got = true ∧ checkTiming outside expected actual i i wanted got = none := by
  simp [AgreeAt, first, second, checkTiming_eq_none_iff]

private theorem longestAgreement_of_not (before : ∀ k < i, AgreeAt outside expected actual k)
    (differ : ¬AgreeAt outside expected actual i) : LongestAgreement outside expected actual i :=
  ⟨before, fun _ longer => not_lt.mp fun beyond => differ (longer i beyond)⟩

private theorem agreement_le (agree : ∀ k < i, AgreeAt outside expected actual k) :
    i ≤ expected.length ∧ i ≤ actual.length := by
  cases i with
  | zero => simp
  | succ n =>
    obtain ⟨_, _, first, second, -⟩ := agree n n.lt_succ_self
    exact ⟨(List.getElem?_eq_some_iff.mp first).1, (List.getElem?_eq_some_iff.mp second).1⟩

/-- From a position up to which the traces agree, the walk goes to the end of the longest agreement. -/
theorem diffLoop_spec (n : ℕ) (before : ∀ k < n, AgreeAt outside expected actual k) :
    ∃ m, LongestAgreement outside expected actual m ∧
      ∃ stop, diffLoop outside expected actual n n n = ((m, m, m), stop) ∧
        (stop = none ↔ m = expected.length ∧ m = actual.length) ∧ ∀ d ∈ stop, d.index = m := by
  have stops := longestAgreement_of_not before
  have bounds := agreement_le before
  rw [diffLoop]
  split
  case h_1 first second =>
    rw [List.getElem?_eq_none_iff] at first second
    refine ⟨n, stops ?_, none, rfl, ?_, by simp⟩
    · rintro ⟨_, _, found, -⟩
      exact absurd (List.getElem?_eq_some_iff.mp found).1 (not_lt.mpr first)
    · exact iff_of_true rfl ⟨le_antisymm bounds.1 first, le_antisymm bounds.2 second⟩
  case h_2 got first second =>
    have inside := (List.getElem?_eq_some_iff.mp second).1
    refine ⟨n, stops ?_, _, rfl, ?_, by simp⟩
    · rintro ⟨_, _, found, -⟩
      simp [first] at found
    · simp [inside.ne]
  case h_3 wanted first second =>
    have inside := (List.getElem?_eq_some_iff.mp first).1
    refine ⟨n, stops ?_, _, rfl, ?_, by simp⟩
    · rintro ⟨_, _, -, found, -⟩
      simp [second] at found
    · simp [inside.ne]
  case h_4 wanted got first second =>
    have inside := (List.getElem?_eq_some_iff.mp first).1
    split_ifs with same
    · split
      case h_1 violation late =>
        refine ⟨n, stops ?_, _, rfl, by simp [inside.ne], ?_⟩
        · simp [agreeAt_iff first second, late]
        · rintro d ⟨⟩
          exact checkTiming_index _ late
      case h_2 onTime =>
        refine diffLoop_spec (n + 1) fun k below => ?_
        rcases Nat.lt_succ_iff_lt_or_eq.mp below with earlier | rfl
        · exact before k earlier
        · exact (agreeAt_iff first second).mpr ⟨same, onTime⟩
    · refine ⟨n, stops ?_, _, rfl, by simp [inside.ne], ?_⟩
      · simp [agreeAt_iff first second, same]
      · rintro d ⟨⟩
        exact mismatch_index
termination_by expected.length - n

end Walk

/-- No divergence is reported exactly if the traces agree in all events. Otherwise the report names the end of the
longest agreement, and counts all but one of the events after it in the longer trace. -/
theorem diff_reports_longest_agreement (outside : Outside) (expected actual : List TraceEvent) :
    ∃ m, LongestAgreement outside expected actual m ∧
      ((diff outside expected actual).divergence = none ↔ expected.length = m ∧ actual.length = m) ∧
      ∀ d ∈ (diff outside expected actual).divergence, d.index = m ∧ (diff outside expected actual).compared = m ∧
        (diff outside expected actual).fallout = max (expected.length - m) (actual.length - m) - 1 := by
  have start : ∀ k < 0, AgreeAt outside expected actual k := by simp
  obtain ⟨m, longest, stop, ran, ended, indexed⟩ := diffLoop_spec 0 start
  simp only [diff, ran]
  refine ⟨m, longest, ended.trans (and_congr eq_comm eq_comm), fun d reported => ⟨indexed d reported, rfl, ?_⟩⟩
  rw [if_pos (isSome_of_mem reported)]

private theorem matchesEvent_self (outside : Outside) (event : TraceEvent) :
    matchesEvent outside event event = true := by
  cases fields : event.fields <;> simp [matchesEvent, samePacket, sameFields, fields, outside.equal_self]

theorem agreeAt_self_iff {outside : Outside} {events : List TraceEvent} {k : ℕ} {event : TraceEvent}
    (found : events[k]? = some event) :
    AgreeAt outside events events k ↔ ∀ trigger state, Answers events k event trigger state →
      clientboundCoverage state trigger.id = .strict → delay outside trigger event ≤ 1000 := by
  rw [agreeAt_iff found found, checkTiming_eq_none_iff, and_iff_right (matchesEvent_self outside event)]
  refine forall₂_congr fun trigger state => ⟨fun onTime answers => ?_, fun prompt answered answers latest => ?_⟩
  · exact (timingOk_self ..).mp (onTime trigger answers answers.2.1)
  · cases answers.2.1.symm.trans latest
    exact (timingOk_self ..).mpr (prompt answers)

/-- A trace agrees with itself exactly if each answer to a packet with a strict obligation comes within a second. -/
theorem diff_self_iff (outside : Outside) (events : List TraceEvent) :
    (diff outside events events).divergence = none ∧ (diff outside events events).compared = events.length ↔
      ∀ k event, events[k]? = some event → ∀ trigger state, Answers events k event trigger state →
        clientboundCoverage state trigger.id = .strict → delay outside trigger event ≤ 1000 := by
  have start : ∀ k < 0, AgreeAt outside events events k := by simp
  obtain ⟨m, longest, stop, ran, ended, -⟩ := diffLoop_spec 0 start
  simp only [diff, ran, ended, and_self]
  constructor
  · rintro rfl k event found
    exact (agreeAt_self_iff found).mp (longest.1 k (List.getElem?_eq_some_iff.mp found).1)
  · intro prompt
    refine le_antisymm (agreement_le longest.1).1 (longest.2 fun k below => ?_)
    exact (agreeAt_self_iff (List.getElem?_eq_getElem below)).mpr (prompt k _ (List.getElem?_eq_getElem below))

/-- A keep-alive of the server, and its answer a second and a half later. -/
def slowAnswer : List TraceEvent :=
  let ask : TraceEvent := ⟨0, 0, 0, .clientbound, "play", 39, "keep_alive", none, "", false, false, 9, "", "", 0⟩
  [ask, { ask with tsRelMs := 0x4097700000000000, tick := 30, dir := .serverbound, id := 26 }]

/-- Reads the two timestamps of `slowAnswer`, the floats 0 and 1500. -/
def plain : Outside where
  time bits := if bits = 0 then 0 else 1500
  equal _ _ := true
  equal_self _ := rfl
  debug _ := ""
  oneDecimal _ := ""

theorem slow_answer_differs_from_itself : ¬((diff plain slowAnswer slowAnswer).divergence = none ∧
    (diff plain slowAnswer slowAnswer).compared = slowAnswer.length) := by
  have compared : (diff plain slowAnswer slowAnswer).compared = 1 := by decide +kernel
  rw [compared]
  exact fun same => absurd same.2 (by decide)

end MineRider.Soundness.TraceDiff
