import MineRider.Soundness.Lanes

/-! # The peaks of a queue's lanes

Every lane notes the most it ever held, and the peak of the queue is reported as the sum of the three. The lanes
need not have been at their longest together.
-/

namespace MineRider.Soundness.QueuePeaks

open List Model.Lua Lanes PriorityQueue

variable {ε : Type} (priority : ε → Priority) (name : ε → EventName)

section Statement

def length (queue : PriorityQueue ε) : Priority → ℕ
  | .high => queue.high.length
  | .coalescible => queue.coalesced.keys.length
  | .low => queue.low.length

def step (counted : CountedQueue ε) : QueueStep ε → CountedQueue ε
  | .push envelope => (counted.push priority name envelope).2
  | .drain => counted.drainReady.2

/-- The queues of a run, from the first to the last. -/
def reached (counted : CountedQueue ε) : List (QueueStep ε) → List (PriorityQueue ε)
  | [] => [counted.queue]
  | next :: rest => counted.queue :: reached (step priority name counted next) rest

/-- The peak reported at the end of a run is the largest depth of it. -/
def PeakIsLargest (counted : CountedQueue ε) (steps : List (QueueStep ε)) : Prop :=
  IsGreatest {depth | ∃ queue ∈ reached priority name counted steps, queue.depth = depth}
    (steps.foldl (step priority name) counted).peakDepth

end Statement

section Peaks

variable {counted : CountedQueue ε} {lane : Priority}

def peak (counted : CountedQueue ε) : Priority → ℕ
  | .high => counted.statsHigh.peakDepth
  | .coalescible => counted.statsCoalesced.peakDepth
  | .low => counted.statsLow.peakDepth

private theorem drainCoalesced_length (coalesced : AList fun _ : UInt32 × EventName => Envelope ε)
    (order : List (UInt32 × EventName)) :
    (drainCoalesced coalesced order).2.keys.length ≤ coalesced.keys.length := by
  induction order generalizing coalesced with
  | nil => exact le_refl _
  | cons key order ih =>
    refine (ih (coalesced.erase key)).trans ?_
    exact ((kerase_sublist key coalesced.entries).map Sigma.fst).length_le

/-- A step raises the peak of a lane to what the lane then holds. -/
theorem peak_step (next : QueueStep ε) (below : length counted.queue lane ≤ peak counted lane) :
    peak (step priority name counted next) lane =
      max (peak counted lane) (length (step priority name counted next).queue lane) := by
  have same := (max_eq_left below).symm
  cases next with
  | drain =>
    have kept : length counted.drainReady.2.queue lane ≤ length counted.queue lane := by
      cases lane with
      | high | low => exact Nat.zero_le _
      | coalescible => exact drainCoalesced_length _ _
    exact (max_eq_left (kept.trans below)).symm
  | push envelope =>
    rw [step, CountedQueue.push, push]
    -- The other lanes are left alone; a high lane that is full leaves its own alone too.
    cases priority envelope.event with
    | high =>
      rw [pushHigh]
      cases lane <;> dsimp only <;> split <;> first | exact same | rfl
    | coalescible =>
      rw [pushCoalescible]
      cases lane <;> dsimp only <;> split <;> first | exact same | rfl
    | low =>
      rw [pushLow]
      cases lane <;> dsimp only <;> split <;> first | exact same | rfl

private theorem first_reached (counted : CountedQueue ε) (steps : List (QueueStep ε)) :
    counted.queue ∈ reached priority name counted steps := by
  cases steps with
  | nil => exact mem_singleton_self _
  | cons => exact mem_cons_self

/-- The peak of a lane after a run is the one before it or the most the lane held in the run. -/
theorem run_peak (steps : List (QueueStep ε)) (below : length counted.queue lane ≤ peak counted lane) :
    let last := peak (steps.foldl (step priority name) counted) lane
    (peak counted lane ≤ last ∧ ∀ queue ∈ reached priority name counted steps, length queue lane ≤ last) ∧
      (last = peak counted lane ∨ ∃ queue ∈ reached priority name counted steps, length queue lane = last) := by
  induction steps generalizing counted with
  | nil => exact ⟨⟨le_refl _, forall_mem_singleton.mpr below⟩, .inl rfl⟩
  | cons next rest ih =>
    have raised := peak_step priority name next below
    obtain ⟨⟨least, upper⟩, attained⟩ := ih (raised ▸ le_max_right _ _)
    have grown : peak counted lane ≤ peak (step priority name counted next) lane := raised ▸ le_max_left _ _
    refine ⟨⟨grown.trans least, forall_mem_cons.mpr ⟨below.trans (grown.trans least), upper⟩⟩, ?_⟩
    rcases attained with kept | ⟨queue, inside, most⟩
    · rcases max_choice (peak counted lane) (length (step priority name counted next).queue lane) with old | new
      · exact .inl (kept.trans (raised.trans old))
      · refine .inr ⟨_, mem_cons_of_mem _ (first_reached priority name _ rest), ?_⟩
        exact (kept.trans (raised.trans new)).symm
    · exact .inr ⟨queue, mem_cons_of_mem _ inside, most⟩

/-- Peaks that the lanes reached are reached together exactly if their sum is the largest depth. -/
theorem sum_of_peaks_iff {queues : List (PriorityQueue ε)}
    (upper : ∀ lane, ∀ queue ∈ queues, length queue lane ≤ peak counted lane)
    (attained : ∀ lane, ∃ queue ∈ queues, length queue lane = peak counted lane) :
    IsGreatest {depth | ∃ queue ∈ queues, queue.depth = depth} counted.peakDepth ↔
      ∃ queue ∈ queues, ∀ other ∈ queues, ∀ lane, length other lane ≤ length queue lane := by
  constructor
  · rintro ⟨⟨queue, inside, most⟩, -⟩
    refine ⟨queue, inside, fun other among lane => (upper lane other among).trans ?_⟩
    have high := upper .high queue inside
    have coalescible := upper .coalescible queue inside
    have low := upper .low queue inside
    simp only [CountedQueue.peakDepth, depth, length, peak] at most high coalescible low
    cases lane <;> simp only [length, peak] <;> omega
  · rintro ⟨queue, inside, longest⟩
    have together : ∀ lane, peak counted lane = length queue lane := by
      intro lane
      obtain ⟨other, among, most⟩ := attained lane
      exact (most.symm.trans_le (longest other among lane)).antisymm (upper lane queue inside)
    have total : counted.peakDepth = queue.depth :=
      congrArg₂ (· + ·) (congrArg₂ (· + ·) (together .high) (together .coalescible)) (together .low)
    rw [total]
    refine ⟨⟨queue, inside, rfl⟩, ?_⟩
    rintro _ ⟨other, among, rfl⟩
    have longer := longest other among
    exact Nat.add_le_add (Nat.add_le_add (longer .high) (longer .coalescible)) (longer .low)

end Peaks

/-- The peak reported for a queue is the largest depth it reached exactly if its lanes were once at their longest
together. -/
theorem peak_depth_iff (highCapacity lowCapacity : ℕ) (steps : List (QueueStep ε)) :
    PeakIsLargest priority name (.new highCapacity lowCapacity) steps ↔
    ∃ queue ∈ reached priority name (.new highCapacity lowCapacity) steps,
      ∀ other ∈ reached priority name (.new highCapacity lowCapacity) steps, ∀ lane,
        length other lane ≤ length queue lane := by
  have start : ∀ lane, length (.new highCapacity lowCapacity : CountedQueue ε).queue lane =
      peak (.new highCapacity lowCapacity : CountedQueue ε) lane := by
    intro lane
    cases lane <;> rfl
  refine sum_of_peaks_iff (fun lane => (run_peak priority name steps (start lane).le).1.2) fun lane => ?_
  rcases (run_peak priority name steps (start lane).le).2 with same | attained
  · exact ⟨_, first_reached priority name _ steps, (start lane).trans same.symm⟩
  · exact attained

/-- A lifecycle event is delivered before a timer fires. -/
def lanesInTurn : List (QueueStep WorkItem) := [.push ⟨0, .bot .connected⟩, .drain, .push ⟨0, .timerFired 1⟩]

/-- The queue never holds more than one item, and reports a peak of two. -/
theorem lanes_in_turn_are_added : ¬ PeakIsLargest WorkItem.priority WorkItem.name (.new 1024 4096) lanesInTurn := by
  rintro ⟨⟨queue, inside, most⟩, -⟩
  have depths : queue.depth ∈ [0, 1, 0, 1] := mem_map_of_mem (f := depth) inside
  rw [most] at depths
  exact absurd depths (by decide)

end MineRider.Soundness.QueuePeaks
