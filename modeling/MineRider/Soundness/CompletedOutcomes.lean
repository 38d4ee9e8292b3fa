import MineRider.Machine.Recency
import MineRider.Soundness.InventoryMoves

/-! # Which outcomes are kept

The outcomes of finished and rejected transactions are kept so that an observer can look them up. When there is
no more room the outcome of the smallest id goes. Ids need not finish in their order, and then the smallest id
can be one that has only just finished. The outcomes that are kept are the most recent ones exactly if, whenever
one has to go, the smallest of the kept ids is the one that finished first.
-/

namespace MineRider.Soundness.CompletedOutcomes

open AList List Model.Minecraft InventoryState InventoryMoves Machine Recency

section Statement

abbrev Completion := UInt64 × InventoryOutcome

/-- The outcomes that are kept after transactions were finished and rejected, in this order. -/
def completedAfter (history : List Completion) : AList fun _ : UInt64 => InventoryOutcome :=
  (history.foldl (fun s completion => s.complete completion.1 completion.2) InventoryState.new).completedTransactions

/-- The outcomes of the ids that finished most recently are kept, and no others; so an outcome can be looked up
until as many others have followed as are kept. -/
structure KeepsRecent (history : List Completion) : Prop where
  recent : ∀ id outcome, (completedAfter history).lookup id = some outcome ↔
    (id, outcome) ∈ recent maxCompletedTransactions history
  found : ∀ {before id outcome after}, history = before ++ (id, outcome) :: after → id ∉ after.map Prod.fst →
    after.length < maxCompletedTransactions → (completedAfter history).lookup id = some outcome

/-- No outcome has to go for the id, or the one that has to go has the smallest id of all. -/
def OldestIsSmallest (history : List Completion) (id : UInt64) : Prop :=
  id ∈ (recent maxCompletedTransactions history).map Prod.fst ∨
    (recent maxCompletedTransactions history).length < maxCompletedTransactions ∨
    ∀ oldest, (recent maxCompletedTransactions history).getLast? = some oldest →
      ∀ completion ∈ recent maxCompletedTransactions history, oldest.1 ≤ completion.1

end Statement

section Steps

variable {history : List Completion} {id : UInt64} {outcome : InventoryOutcome}

theorem completedAfter_concat (history : List Completion) (id : UInt64) (outcome : InventoryOutcome) :
    completedAfter (history ++ [(id, outcome)]) = (makeRoom (completedAfter history) id).insert id outcome := by
  rw [completedAfter, foldl_concat]
  rfl

/-- What an outcome can be looked up for. -/
def Agrees (completed : AList fun _ : UInt64 => InventoryOutcome) (kept : List Completion) : Prop :=
  ∀ id outcome, completed.lookup id = some outcome ↔ (id, outcome) ∈ kept

variable {completed : AList fun _ : UInt64 => InventoryOutcome} {kept : List Completion}

section

variable (agrees : Agrees completed kept)

include agrees

theorem Agrees.mem_iff (id : UInt64) : id ∈ completed ↔ id ∈ kept.map Prod.fst := by
  rw [← lookup_isSome, Option.isSome_iff_exists, mem_map]
  constructor
  · rintro ⟨outcome, found⟩
    exact ⟨(id, outcome), (agrees id outcome).mp found, rfl⟩
  · rintro ⟨⟨_, outcome⟩, member, rfl⟩
    exact ⟨outcome, (agrees _ outcome).mpr member⟩

theorem Agrees.length_eq (nodup : (kept.map Prod.fst).Nodup) :
    completed.keys.length = kept.length := by
  rw [← length_map Prod.fst]
  refine ((perm_ext_iff_of_nodup completed.keys_nodup nodup).mpr fun id => ?_).length_eq
  rw [← AList.mem_keys, agrees.mem_iff]

/-- A kept outcome is replaced. -/
theorem Agrees.insert_others (id : UInt64) (outcome : InventoryOutcome) :
    Agrees (completed.insert id outcome) ((id, outcome) :: others id kept) := by
  intro other result
  rw [lookup_insert_eq_ite, mem_cons, others, mem_filter, bne_iff_ne, Prod.mk.injEq]
  by_cases same : other = id
  · simp [same, eq_comm]
  · simp [same, agrees other result]

theorem Agrees.insert_absent {id : UInt64} (absent : id ∉ kept.map Prod.fst)
    (outcome : InventoryOutcome) : Agrees (completed.insert id outcome) ((id, outcome) :: kept) := by
  have replaced := agrees.insert_others id outcome
  rwa [others_of_absent absent] at replaced

end

/-- Dropping the oldest outcome drops its id. -/
theorem mem_dropLast_iff {oldest completion : Completion} (nodup : (kept.map Prod.fst).Nodup)
    (last : kept.getLast? = some oldest) :
    completion ∈ kept.dropLast ↔ completion ∈ kept ∧ completion.1 ≠ oldest.1 := by
  obtain ⟨front, rfl⟩ := getLast?_eq_some_iff.mp last
  rw [map_append, nodup_append] at nodup
  rw [dropLast_concat, mem_append, mem_singleton]
  constructor
  · intro member
    exact ⟨.inl member, nodup.2.2 _ (mem_map_of_mem member) _ (by simp)⟩
  · rintro ⟨member | rfl, different⟩
    · exact member
    · exact absurd rfl different

section

variable {oldest : Completion} (agrees : Agrees completed kept) (nodup : (kept.map Prod.fst).Nodup)

include agrees nodup

theorem Agrees.erase (last : kept.getLast? = some oldest) : Agrees (completed.erase oldest.1) kept.dropLast := by
  intro other result
  rw [lookup_erase_eq_ite, mem_dropLast_iff nodup last, ← agrees other result]
  by_cases same : other = oldest.1
  · simp [same]
  · simp [same]

/-- In a full store the smallest id is evicted, so the right outcomes are kept exactly if it is the oldest. -/
theorem agrees_evict_iff
    (absent : id ∉ kept.map Prod.fst) {smallest : UInt64} (least : completed.keys.min? = some smallest)
    (last : kept.getLast? = some oldest) :
    Agrees ((completed.erase smallest).insert id outcome) ((id, outcome) :: kept.dropLast) ↔
      ∀ completion ∈ kept, oldest.1 ≤ completion.1 := by
  obtain ⟨held, minimal⟩ := min?_eq_some_iff.mp least
  have oldestKept : oldest ∈ kept := mem_of_getLast? last
  constructor
  · intro evicted
    -- The oldest outcome is no longer to be kept, so it is the one that was evicted.
    have same : oldest.1 = smallest := by
      by_contra different
      have distinct : oldest.1 ≠ id := by
        rintro rfl
        exact absent (mem_map_of_mem oldestKept)
      have stays : ((completed.erase smallest).insert id outcome).lookup oldest.1 = some oldest.2 := by
        rw [lookup_insert_eq_ite, if_neg distinct, lookup_erase_eq_ite, if_neg different]
        exact (agrees oldest.1 oldest.2).mpr oldestKept
      rcases mem_cons.mp ((evicted oldest.1 oldest.2).mp stays) with new | dropped
      · exact distinct (Prod.mk.inj new).1
      · exact ((mem_dropLast_iff nodup last).mp dropped).2 rfl
    intro completion member
    rw [same]
    apply minimal
    rw [← AList.mem_keys, agrees.mem_iff]
    exact mem_map_of_mem member
  · intro sorted
    have same : smallest = oldest.1 := by
      rw [← AList.mem_keys, agrees.mem_iff] at held
      obtain ⟨completion, member, rfl⟩ := mem_map.mp held
      refine UInt64.le_antisymm (minimal _ ?_) (sorted completion member)
      rw [← AList.mem_keys, agrees.mem_iff]
      exact mem_map_of_mem oldestKept
    rw [same]
    refine (agrees.erase nodup last).insert_absent (fun member => absent ?_) outcome
    obtain ⟨completion, dropped, rfl⟩ := mem_map.mp member
    exact mem_map_of_mem (dropLast_subset _ dropped)

end

/-- One more outcome. -/
theorem agrees_concat_iff (agrees : Agrees (completedAfter history) (recent maxCompletedTransactions history))
    (id : UInt64) (outcome : InventoryOutcome) :
    Agrees (completedAfter (history ++ [(id, outcome)]))
        (recent maxCompletedTransactions (history ++ [(id, outcome)])) ↔
      OldestIsSmallest history id := by
  have nodup := recent_nodup maxCompletedTransactions history
  have length := agrees.length_eq nodup
  have atMost := recent_length_le maxCompletedTransactions history
  have known := agrees.mem_iff id
  rw [completedAfter_concat, makeRoom]
  unfold OldestIsSmallest
  by_cases present : id ∈ (recent maxCompletedTransactions history).map Prod.fst
  · rw [if_neg (fun evicts => evicts.1 (known.mpr present)), recent_concat_of_present present]
    exact iff_of_true (agrees.insert_others id outcome) (.inl present)
  by_cases room : (recent maxCompletedTransactions history).length < maxCompletedTransactions
  · rw [if_neg (fun evicts => by omega), recent_concat_of_room present room]
    exact iff_of_true (agrees.insert_absent present outcome) (.inr (.inl room))
  · have positive : 0 < maxCompletedTransactions := by decide
    have full : (recent maxCompletedTransactions history).length = maxCompletedTransactions := by omega
    rw [if_pos ⟨mt known.mp present, by omega⟩, recent_concat_of_full present full positive]
    cases least : (completedAfter history).keys.min? with
    | none =>
      have empty := min?_eq_none_iff.mp least
      rw [empty, length_nil] at length
      omega
    | some smallest =>
      cases last : (recent maxCompletedTransactions history).getLast? with
      | none =>
        rw [getLast?_eq_none_iff.mp last, length_nil] at full
        omega
      | some oldest =>
        simp only [present, room, false_or, Option.some.injEq, forall_eq']
        exact agrees_evict_iff agrees nodup present least last

end Steps

section Histories

theorem agrees_nil : Agrees (completedAfter []) (recent maxCompletedTransactions []) := by
  intro id outcome
  simp [completedAfter, InventoryState.new, recent, latest]

theorem Agrees.keepsRecent {history : List Completion}
    (agrees : Agrees (completedAfter history) (recent maxCompletedTransactions history)) : KeepsRecent history where
  recent := agrees
  found := by
    rintro before id outcome after rfl unchanged few
    exact (agrees id outcome).mpr (mem_recent_of_recent unchanged few)

/-- After every part of a history the most recent outcomes are kept, exactly if whenever an outcome has to go
the oldest has the smallest id. -/
theorem completed_keeps_recent_iff (history : List Completion) :
    (∀ before, before <+: history → KeepsRecent before) ↔
      ∀ before id outcome, before ++ [(id, outcome)] <+: history → OldestIsSmallest before id := by
  constructor
  · intro keeps before id outcome reached
    have earlier := keeps before ((prefix_append before _).trans reached)
    exact (agrees_concat_iff earlier.recent id outcome).mp (keeps _ reached).recent
  · intro inOrder before reached
    suffices agrees : Agrees (completedAfter before) (recent maxCompletedTransactions before) from agrees.keepsRecent
    induction before using List.reverseRecOn with
    | nil => exact agrees_nil
    | append_singleton before completion ih =>
      have earlier := ih ((prefix_append before _).trans reached)
      exact (agrees_concat_iff earlier completion.1 completion.2).mpr (inOrder before _ _ reached)

/-- The outcome in an event. -/
def completion? : InventoryEvent → Option Completion
  | .transactionFinished id outcome => some (id, outcome)
  | .transactionRejected id error => some (id, .rejected error)
  | _ => none

private theorem completion?_of_not_transaction {event : InventoryEvent} (quiet : ofTransaction event = false) :
    completion? event = none := by
  cases event with
  | transactionFinished id outcome | transactionRejected id error => cases quiet
  | _ => rfl

/-- The outcomes a run has reported. -/
def completions (events : List InventoryEvent) : List Completion := events.filterMap completion?

theorem completions_append (events more : List InventoryEvent) :
    completions (events ++ more) = completions events ++ completions more := filterMap_append

/-- The outcomes of a state that was reached with these events. -/
def Recorded (events : List InventoryEvent) (s : InventoryState) : Prop :=
  s.completedTransactions = completedAfter (completions events)

variable {reach : Reach} {s next : InventoryState} {events more : List InventoryEvent}

section

variable (recorded : Recorded events s)

include recorded

theorem Recorded.complete {id : UInt64} {outcome : InventoryOutcome}
    (kept : next.completedTransactions = (s.complete id outcome).completedTransactions)
    (reported : completions more = [(id, outcome)]) : Recorded (events ++ more) next := by
  unfold Recorded at recorded ⊢
  rw [kept, InventoryState.complete, recorded, completions_append, reported, completedAfter_concat]

theorem Recorded.quiet (kept : next.completedTransactions = s.completedTransactions)
    (silent : completions more = []) : Recorded (events ++ more) next := by
  unfold Recorded at recorded ⊢
  rw [kept, recorded, completions_append, silent, append_nil]

theorem Recorded.change (change : Change reach s more next) :
    Recorded (events ++ more) next := by
  cases change with
  | edit edit =>
    obtain ⟨quiet, -, completed⟩ := edit.transactions
    refine recorded.quiet completed (filterMap_eq_nil_iff.mpr fun event member => ?_)
    exact completion?_of_not_transaction (quiet event member)
  | send id => exact recorded.quiet rfl rfl
  | finish outcome pending => exact recorded.complete rfl rfl

theorem Recorded.changes (changes : Changes reach s more next) :
    Recorded (events ++ more) next := by
  induction changes generalizing events with
  | none s => rwa [append_nil]
  | cons change rest ih =>
    rw [← append_assoc]
    exact ih (recorded.change change)

end

/-- In every run of an inventory the kept outcomes are those of the outcomes it has reported. -/
theorem run_recorded (calls : List InventoryStep) :
    Recorded (InventoryState.run calls).1 (InventoryState.run calls).2 := by
  induction calls using List.reverseRecOn with
  | nil => rfl
  | append_singleton calls call ih =>
    rw [run_concat]
    have move := step_moves (InventoryState.run calls).2 call
    generalize ((InventoryState.run calls).2.step call).1 = more,
      ((InventoryState.run calls).2.step call).2 = next at move
    cases move with
    | changes changes => exact ih.changes changes
    | reject id error => exact ih.complete rfl rfl
    | queue => exact ih.quiet rfl rfl

end Histories

section Loss

variable {completed : AList fun _ : UInt64 => InventoryOutcome} {id : UInt64}

/-- As long as there is room nothing goes. -/
theorem keys_completedAfter {history : List Completion} (distinct : (history.map Prod.fst).Nodup)
    (fits : history.length ≤ maxCompletedTransactions) :
    (completedAfter history).keys = (history.map Prod.fst).reverse := by
  induction history using List.reverseRecOn with
  | nil => rfl
  | append_singleton history completion ih =>
    obtain ⟨id, outcome⟩ := completion
    rw [map_append, nodup_append] at distinct
    rw [length_append, length_singleton] at fits
    have before := ih distinct.1 (by omega)
    have length : (completedAfter history).keys.length = history.length := by
      rw [before, length_reverse, length_map]
    have absent : id ∉ (completedAfter history).keys := by
      rw [before, mem_reverse]
      exact fun earlier => distinct.2.2 id earlier id (by simp) rfl
    have room : makeRoom (completedAfter history) id = completedAfter history := if_neg (fun full => by omega)
    rw [completedAfter_concat, room, keys_insert, erase_of_not_mem absent, before, map_append, reverse_append]
    rfl

section

variable (full : completed.keys.length = maxCompletedTransactions) (absent : id ∉ completed)

include full absent

theorem makeRoom_of_full :
    ∃ smallest, completed.keys.min? = some smallest ∧ makeRoom completed id = completed.erase smallest := by
  unfold makeRoom
  rw [if_pos ⟨absent, full.ge⟩]
  cases least : completed.keys.min? with
  | none =>
    rw [min?_eq_none_iff.mp least] at full
    exact absurd full (by decide)
  | some smallest => exact ⟨smallest, rfl, rfl⟩

private theorem full_of_full (outcome : InventoryOutcome) :
    ((makeRoom completed id).insert id outcome).keys.length = maxCompletedTransactions := by
  obtain ⟨smallest, least, dropped⟩ := makeRoom_of_full full absent
  have member := min?_mem least
  have absentAfter : id ∉ (completed.erase smallest).keys := by
    rw [keys_erase]
    exact fun earlier => absent (mem_keys.mpr (mem_of_mem_erase earlier))
  rw [dropped, keys_insert, erase_of_not_mem absentAfter, keys_erase, length_cons, length_erase_of_mem member, full]
  decide

/-- The smallest id goes first, however late it came. -/
theorem smallest_is_lost (outcome : InventoryOutcome) {small : UInt64} (present : small ∈ completed)
    (least : ∀ other ∈ completed, small ≤ other) : ((makeRoom completed id).insert id outcome).lookup small = none := by
  obtain ⟨smallest, found, dropped⟩ := makeRoom_of_full full absent
  obtain ⟨held, minimal⟩ := min?_eq_some_iff.mp found
  have same : small = smallest :=
    UInt64.le_antisymm (least smallest (mem_keys.mpr held)) (minimal small (mem_keys.mp present))
  have different : small ≠ id := by
    rintro rfl
    exact absent present
  rw [dropped, lookup_insert_ne different, same, lookup_erase]

end

/-- Ids from one on, in their order. -/
def inOrder : List Completion := (List.range 128).map fun i => (UInt64.ofNat (i + 1), .timedOut)

private theorem inOrder_ids :
    (inOrder.map Prod.fst).Nodup ∧ ∀ id ∈ inOrder.map Prod.fst, 1 ≤ id.toNat ∧ id.toNat ≤ 128 := by
  have ids : inOrder.map Prod.fst = (List.range 128).map fun i => UInt64.ofNat (i + 1) := by
    rfl
  have number : ∀ i ∈ List.range 128, (UInt64.ofNat (i + 1)).toNat = i + 1 := by
    intro i member
    rw [mem_range] at member
    rw [UInt64.toNat_ofNat', Nat.mod_eq_of_lt (by omega)]
  rw [ids]
  constructor
  · refine List.Nodup.map_on (fun i first j second same => ?_) nodup_range
    have equal := congrArg UInt64.toNat same
    rw [number i first, number j second] at equal
    omega
  · intro id member
    obtain ⟨i, inRange, rfl⟩ := mem_map.mp member
    rw [number i inRange]
    rw [mem_range] at inRange
    omega

/-- When the store is full the id zero finishes, and the next id after it. -/
def lateZero : List Completion := inOrder ++ [(0, .timedOut)] ++ [(129, .timedOut)]

/-- The outcome of zero is gone with the next one. -/
theorem late_outcome_is_lost :
    (completedAfter lateZero).lookup 0 = none ∧
      (0, .timedOut) ∈ recent maxCompletedTransactions lateZero ∧ ¬ KeepsRecent lateZero := by
  obtain ⟨distinct, range⟩ := inOrder_ids
  have length : inOrder.length = maxCompletedTransactions := by
    rw [inOrder, length_map, length_range]
    rfl
  have keys := keys_completedAfter distinct length.le
  have small : ∀ id ∈ completedAfter inOrder, 1 ≤ id.toNat ∧ id.toNat ≤ 128 := by
    intro id member
    rw [AList.mem_keys, keys, mem_reverse] at member
    exact range id member
  have full : (completedAfter inOrder).keys.length = maxCompletedTransactions := by
    rw [keys, length_reverse, length_map, length]
  have noZero : 0 ∉ completedAfter inOrder := fun member => absurd (small 0 member).1 (by decide)
  have stillFull := full_of_full full noZero .timedOut
  rw [← completedAfter_concat] at stillFull
  have zero : 0 ∈ completedAfter (inOrder ++ [(0, .timedOut)]) := by
    rw [completedAfter_concat, mem_insert]
    exact .inl rfl
  have unknown : 129 ∉ completedAfter (inOrder ++ [(0, .timedOut)]) := by
    obtain ⟨smallest, _, dropped⟩ := makeRoom_of_full full noZero
    rw [completedAfter_concat, dropped, mem_insert, mem_erase]
    rintro (same | ⟨_, member⟩)
    · exact absurd same (by decide)
    · exact absurd (small 129 member).2 (by decide)
  have lost : (completedAfter lateZero).lookup 0 = none := by
    rw [lateZero, completedAfter_concat]
    exact smallest_is_lost stillFull unknown .timedOut zero fun other _ => UInt64.le_iff_toNat_le.mpr (Nat.zero_le _)
  have due : (0, .timedOut) ∈ recent maxCompletedTransactions lateZero := by
    rw [lateZero, append_assoc]
    exact mem_recent_of_recent (by decide) (by decide)
  refine ⟨lost, due, fun keeps => ?_⟩
  rw [(keeps.recent 0 .timedOut).mpr due] at lost
  cases lost

end Loss

end MineRider.Soundness.CompletedOutcomes
