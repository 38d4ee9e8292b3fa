import MineRider.Machine.Run
import MineRider.Soundness.PanelSteps

/-! # One child at a time

A start request looks for a recorded child once, and records its own only after several waits. As long as no second
request comes in between, the child that a start creates is the only one that lives, and it stays recorded until the
manager has learned of its death. Two starts that overlap each create a child, and the first of them is forgotten.
-/

namespace MineRider.Soundness.PanelChildren

open List Machine Machine.Js Model.Panel PanelRecords PanelHandlers PanelSteps Map

variable {N : Type}

section Condition

/-- No call of `start` waits. -/
def Idle (system : System N) : Prop := ∀ entry ∈ system.calls, isStart entry.2 = false

/-- A start is not requested while another one waits. -/
def Alone (system : System N) : Input → Prop
  | .startRequested _ _ => Idle system
  | _ => True

instance (system : System N) (input : Input) : Decidable (Alone system input) := by
  unfold Alone Idle
  split <;> infer_instance

end Condition

section Invariant

/-- The living child is recorded, and no child is while a start waits. -/
structure Exclusive (system : System N) : Prop where
  recorded : ∀ child, system.life child = some .alive → system.manager.child.map (·.id) = some child
  single : ∀ first ∈ system.calls, ∀ second ∈ system.calls, isStart first.2 = true → isStart second.2 = true →
    first.1 = second.1
  vacant : ∀ entry ∈ system.calls, isStart entry.2 = true → system.manager.child = none
  fresh : ∀ entry ∈ system.children, entry.1 < system.nextChild

private theorem exclusive_new : Exclusive (System.new : System N) where
  recorded child alive := by cases alive
  single first member := by cases member
  vacant entry member := by cases member
  fresh entry member := by cases member

/-- Every call of `start` that waits did so before. -/
def NoNewStart (system next : System N) : Prop :=
  ∀ entry ∈ next.calls, isStart entry.2 = true → ∃ old ∈ system.calls, isStart old.2 = true ∧ old.1 = entry.1

variable {system next : System N}

theorem Exclusive.frame (exclusive : Exclusive system) (child : next.manager.child = system.manager.child)
    (children : next.children = system.children) (nextChild : next.nextChild = system.nextChild)
    (calls : NoNewStart system next) : Exclusive next where
  recorded id alive := by
    rw [child]
    refine exclusive.recorded id ?_
    rwa [System.life, children] at alive
  single first inFirst second inSecond isFirst isSecond := by
    obtain ⟨oldFirst, wasFirst, startFirst, sameFirst⟩ := calls first inFirst isFirst
    obtain ⟨oldSecond, wasSecond, startSecond, sameSecond⟩ := calls second inSecond isSecond
    rw [← sameFirst, ← sameSecond]
    exact exclusive.single oldFirst wasFirst oldSecond wasSecond startFirst startSecond
  vacant entry member isStarting := by
    obtain ⟨old, was, start, _⟩ := calls entry member isStarting
    rw [child]
    exact exclusive.vacant old was start
  fresh entry member := by
    rw [nextChild]
    exact exclusive.fresh entry (children ▸ member)

end Invariant

section Steps

variable {host : Host N} {system next : System N}

private theorem clean_any (manager : RuntimeManager N) : Clean .any manager where
  startedAt _ _ := trivial
  logDir _ _ := trivial
  names _ _ := ⟨trivial, fun _ _ => trivial⟩
  statuses _ _ _ _ := trivial
  accounts _ _ _ _ := trivial
  history _ _ _ _ _ _ := trivial
  lastError _ _ _ _ := trivial
  logs _ _ _ _ := trivial
  written _ _ := trivial
  emitted _ _ _ _ := trivial

private theorem inputMeets_any (host : Host N) (input : Input) : InputMeets host .any input := by
  cases input with
  | startRequested accounts requested => exact fun _ _ => ⟨trivial, fun _ _ => trivial, trivial⟩
  | stopRequested failure => exact fun _ _ _ _ => trivial
  | exited child code signal | failed child message => exact ⟨trivial, fun _ _ => trivial⟩
  | line child source rawLine =>
    have level : ∀ value : Value N, LevelMeets host .any value :=
      fun _ => ⟨fun _ _ => trivial, trivial, fun _ _ => trivial⟩
    exact ⟨fun _ _ => trivial, fun _ _ _ _ _ => ⟨fun _ _ _ _ _ _ _ => trivial, fun _ _ _ _ _ _ _ _ _ => trivial,
      fun value _ _ => level value⟩, fun _ _ _ _ _ _ => trivial⟩
  | arrived id arrival | stopWaited id | died child | cleaned id => trivial

section

variable (exclusive : Exclusive system)

include exclusive

/-- A child is created while none is recorded, so while none lives, and the start that ends was the only one. -/
theorem Exclusive.create {id : ℕ} {accounts : List AccountConfig} {stage : StartStage}
    (waits : get system.calls id = some (.start accounts stage)) (pid : Option ℕ) (life : Life) :
    Exclusive ((system.create pid life).settle id) := by
  have vacant : system.manager.child = none := exclusive.vacant _ (mem_of_get waits) rfl
  have idle : Idle ((system.create pid life).settle id) := by
    intro entry member
    obtain ⟨listed, other⟩ := mem_filter.mp member
    by_contra starting
    have same := exclusive.single entry listed _ (mem_of_get waits) (by simpa using starting) rfl
    simp [same] at other
  have new : ∀ entry ∈ system.children, entry.1 ≠ system.nextChild :=
    fun entry member => (exclusive.fresh entry member).ne
  refine ⟨fun child alive => ?_, fun first inFirst _ _ starting => ?_, fun entry member starting => ?_,
    fun entry member => ?_⟩
  · have looked : (if child = system.nextChild then some life else system.life child) = some .alive := by
      rw [System.life, ← get_append new]
      exact alive
    split at looked
    · rename_i created
      rw [created]
      rfl
    · have recorded := exclusive.recorded child looked
      rw [vacant] at recorded
      cases recorded
  · rw [idle first inFirst] at starting
    cases starting
  · rw [idle entry member] at starting
    cases starting
  · rcases mem_concat_iff.mp member with old | rfl
    · exact Nat.lt_succ_of_lt (exclusive.fresh entry old)
    · exact Nat.lt_succ_self _

theorem Exclusive.request (idle : Idle system) (vacant : system.manager.child = none)
    (selected : List AccountConfig) : Exclusive (system.wait (.start selected .building)) := by
  have starts : ∀ entry ∈ (system.wait (.start selected .building)).calls, isStart entry.2 = true →
      entry.1 = system.nextCall := by
    intro entry member starting
    rcases mem_concat_iff.mp member with old | rfl
    · rw [idle entry old] at starting
      cases starting
    · rfl
  exact
    { recorded := exclusive.recorded
      single := fun first inFirst second inSecond isFirst isSecond =>
        (starts first inFirst isFirst).trans (starts second inSecond isSecond).symm
      vacant := fun _ _ _ => vacant
      fresh := exclusive.fresh }

/-- A child that does not live any more. -/
theorem Exclusive.setLife {child : ℕ} {before life : Life}
    (known : system.life child = some before) (ended : life ≠ .alive) : Exclusive (system.setLife child life) where
  recorded other alive := by
    have looked : (if other = child then some life else system.life other) = some .alive := by
      rw [System.life, ← get_set known]
      exact alive
    split at looked
    · exact absurd (Option.some.inj looked) ended
    · exact exclusive.recorded other looked
  single := exclusive.single
  vacant := exclusive.vacant
  fresh entry member := by
    rcases mem_set member with rfl | old
    · exact exclusive.fresh (child, before) (mem_of_get known)
    · exact exclusive.fresh entry old

/-- The manager forgets a child that does not live. -/
theorem Exclusive.forget {child : ℕ} (ended : system.life child ≠ some .alive)
    {manager : RuntimeManager N} (forgets : manager.child =
      if system.manager.child.map (·.id) = some child then none else system.manager.child) :
    Exclusive { system with manager } where
  recorded other alive := by
    have recorded := exclusive.recorded other alive
    rw [forgets]
    split
    · rename_i same
      rw [recorded] at same
      exact absurd (Option.some.inj same ▸ alive) ended
    · exact recorded
  single := exclusive.single
  vacant entry member starting := by
    have vacant : system.manager.child = none := exclusive.vacant entry member starting
    rw [forgets, vacant]
    rfl
  fresh := exclusive.fresh

private theorem part_exclusive (part : Part host .any system next) : Exclusive next := by
  cases part with
  | record steady =>
    exact exclusive.frame (steady (clean_any _)).2.1 rfl rfl fun entry member starting => ⟨entry, member, starting, rfl⟩
  | wait other =>
    refine exclusive.frame rfl rfl rfl fun entry member starting => ?_
    rcases mem_concat_iff.mp member with old | rfl
    · exact ⟨entry, old, starting, rfl⟩
    · rw [other] at starting
      cases starting
  | moveTo waits =>
    refine exclusive.frame rfl rfl rfl fun entry member starting => ?_
    rcases mem_set member with rfl | old
    · exact ⟨_, mem_of_get waits, rfl, rfl⟩
    · exact ⟨entry, old, starting, rfl⟩
  | settle id =>
    exact exclusive.frame rfl rfl rfl fun entry member starting =>
      ⟨entry, (mem_filter.mp member).1, starting, rfl⟩
  | create pid life waits => exact exclusive.create waits pid life
  | died alive => exact exclusive.setLife alive (by decide)
  | @exited child _ _ dead fit =>
    have ended : system.life child ≠ some .alive := by
      rw [dead]
      decide
    exact (exclusive.forget ended (handleExit_clean (meets_any host) fit (clean_any _)).2.1).setLife dead (by decide)

theorem step_exclusive (fit : SystemMeets .any system) {input : Input}
    (alone : Alone system input) : Exclusive (system.step host input) := by
  rcases step_parts (meets_any host) fit (inputMeets_any host input) with
    ⟨accounts, requested, rfl, vacant, step⟩ | parts
  · rw [step]
    exact exclusive.request alone vacant _
  · generalize system.step host input = next at parts ⊢
    induction parts with
    | refl => exact exclusive
    | tail _ part ih => exact part_exclusive ih part

end

end Steps

section Runs

/-- As long as no start is requested while another one waits, at most one child lives, and it is the recorded one. -/
theorem one_child_at_a_time (host : Host N) (inputs : List Input)
    (alone : Along (System.step host) Alone System.new inputs) :
    (∀ first second, (inputs.foldl (System.step host) System.new).life first = some .alive →
        (inputs.foldl (System.step host) System.new).life second = some .alive → first = second) ∧
      ∀ child, (inputs.foldl (System.step host) System.new).life child = some .alive →
        (inputs.foldl (System.step host) System.new).manager.child.map (·.id) = some child := by
  have kept : ∀ system input, SystemMeets .any system ∧ Exclusive system → Alone system input →
      SystemMeets .any (system.step host input) ∧ Exclusive (system.step host input) := by
    rintro system input ⟨fit, exclusive⟩ allowed
    exact ⟨step_meets (meets_any host) fit (inputMeets_any host input), step_exclusive exclusive fit allowed⟩
  have exclusive := (alone.invariant kept ⟨systemMeets_new, exclusive_new⟩).2
  refine ⟨fun first second isFirst isSecond => ?_, exclusive.recorded⟩
  have recorded := exclusive.recorded first isFirst
  rw [exclusive.recorded second isSecond] at recorded
  exact (Option.some.inj recorded).symm

/-- A host with a clock that stands still and a parser that accepts nothing. -/
def plainHost : Host ℕ where
  numbers := ⟨(· == 0), fun _ => true, fun n => lit (toString n), fun n => lit (toString n)⟩
  parse _ := .error (lit "?")
  now _ := lit "t"
  joinPath first second := first ++ lit "/" ++ second
  toLowerCase text := text
  logRoot := lit "logs"
  password := lit "pw"

def oneAccount : List AccountConfig := [⟨lit "Bot01", lit "afk", true⟩]

/-- Everything that the call of `start` waits for arrives, and its child is alive. -/
def started (call pid : ℕ) : List Input := [
  .arrived call .fulfilled, .arrived call (.directory (lit "tmp")), .arrived call .fulfilled, .arrived call .fulfilled,
  .arrived call .fulfilled, .arrived call .fulfilled, .arrived call .fulfilled,
  .arrived call (.spawned (.alive pid))]

/-- A start, a stop, the death of the child and its report, and another start. -/
def restart : List Input := List.flatten [
  [.startRequested oneAccount []], started 0 100,
    [.stopRequested none, .died 0, .exited 0 (some 0) none, .stopWaited 1],
  [.startRequested oneAccount []], started 3 101]

theorem one_child_at_a_time_demo :
    (restart.foldl (System.step plainHost) System.new).life 1 = some .alive ∧
      (restart.foldl (System.step plainHost) System.new).manager.child.map (·.id) = some 1 := by
  have alone : Along (System.step plainHost) Alone System.new restart := by decide +kernel
  have alive : (restart.foldl (System.step plainHost) System.new).life 1 = some .alive := by decide +kernel
  exact ⟨alive, (one_child_at_a_time plainHost restart alone).2 1 alive⟩

/-- Two starts whose waits overlap. -/
def overlapping : List Input := List.flatten [
  [.startRequested oneAccount [], .startRequested oneAccount []], started 0 100, started 1 101]

/-- Both starts find no child recorded, so both create one, and the first is forgotten while it lives. -/
theorem overlapping_starts_leave_two_children :
    (overlapping.foldl (System.step plainHost) System.new).life 0 = some .alive ∧
      (overlapping.foldl (System.step plainHost) System.new).life 1 = some .alive ∧
      (overlapping.foldl (System.step plainHost) System.new).manager.child.map (·.id) = some 1 := by
  decide +kernel

end Runs

end MineRider.Soundness.PanelChildren
