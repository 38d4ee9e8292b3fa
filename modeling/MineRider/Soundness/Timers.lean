import MineRider.Model.Lua.Timers
import MineRider.ToMathlib.AListUpdate
import MineRider.ToMathlib.Concat

/-! # Timers keep their times

The log of a run is orderly: what it records of one timer comes in an order that the timer's delay and
interval allow. The invariant ties the log to the registry. An entry knows when it may fire next, a
timer whose callback is running may have been cleared but not collected again, and the ids of a pass
belong to timers that were due when it began.

The ids come from a 64-bit counter, so all of this holds until the counter has gone round.
-/

namespace MineRider.Soundness.Timers

open AList List Model.Lua

section Records

def TimerRecord.id : TimerRecord → UInt64
  | .scheduled id .. => id
  | .cleared id => id
  | .fired id .. => id

def scheduledId : TimerRecord → Option UInt64
  | .scheduled id .. => some id
  | _ => none

/-- The ids that were given out, in order. -/
def scheduledIds (log : List TimerRecord) : List UInt64 := log.filterMap scheduledId

/-- Whether the record is a firing of the timer. -/
def firing (id : UInt64) : TimerRecord → Bool
  | .fired other .. => other == id
  | _ => false

/-- What an earlier record of a timer demands of a later one. -/
def Allows : TimerRecord → TimerRecord → Prop
  | .scheduled id .., .scheduled other .. => id ≠ other
  | .scheduled id time delay interval, .fired other moment read =>
    id = other → read = interval.map (fun i => max i minTimerInterval) ∧ time + max delay minTimerInterval ≤ moment
  | .cleared id, .fired other .. => id ≠ other
  | .fired id .., .scheduled other .. => id ≠ other
  | .fired id time interval, .fired other moment _ => id = other → ∃ i, interval = some i ∧ time + i ≤ moment
  | _, _ => True

theorem scheduledIds_append (log more : List TimerRecord) :
    scheduledIds (log ++ more) = scheduledIds log ++ scheduledIds more := filterMap_append

theorem mem_of_mem_concat {log : List TimerRecord} {mine record : TimerRecord} (member : mine ∈ log ++ [record])
    (other : mine ≠ record) : mine ∈ log :=
  (mem_concat_iff.mp member).resolve_right other

theorem allowed_concat {log : List TimerRecord} {record : TimerRecord} (allowed : log.Pairwise Allows)
    (each : ∀ earlier ∈ log, Allows earlier record) : (log ++ [record]).Pairwise Allows := by
  refine pairwise_append.mpr ⟨allowed, pairwise_singleton _ _, fun earlier member last isLast => ?_⟩
  rw [mem_singleton.mp isLast]
  exact each earlier member

/-- The ids a fresh counter gives out. -/
def numbers (count : ℕ) : List UInt64 := (List.range count).map fun k => UInt64.ofNat (k + 1)

theorem numbers_succ (count : ℕ) : numbers (count + 1) = numbers count ++ [UInt64.ofNat (count + 1)] := by
  rw [numbers, range_succ, map_append]
  rfl

private theorem ofNat_injective {a b : ℕ} (same : UInt64.ofNat (a + 1) = UInt64.ofNat (b + 1)) (small : a < 2 ^ 64)
    (small' : b < 2 ^ 64) : a = b := by
  have remainders := congrArg UInt64.toNat same
  simp only [UInt64.toNat_ofNat'] at remainders
  omega

private theorem fresh {count : ℕ} (few : count + 1 ≤ 2 ^ 64) : UInt64.ofNat (count + 1) ∉ numbers count := by
  intro member
  obtain ⟨k, inside, same⟩ := mem_map.mp member
  have smaller := mem_range.mp inside
  have equal := ofNat_injective same (by omega) (by omega)
  omega

private theorem numbers_nodup {count : ℕ} (few : count ≤ 2 ^ 64) : (numbers count).Nodup := by
  refine nodup_range.map_on ?_
  intro a inside b inside' same
  exact ofNat_injective same ((mem_range.mp inside).trans_le few) ((mem_range.mp inside').trans_le few)

end Records

section Invariant

/-- What the log allows an entry to be, apart from the timer whose callback is running. -/
structure Waits (log : List TimerRecord) (running : Option (UInt64 × Option ℕ)) (id : UInt64)
    (entry : TimerEntry) : Prop where
  asked : ∀ time delay interval, .scheduled id time delay interval ∈ log →
    entry.interval = interval.map (fun i => max i minTimerInterval) ∧
      time + max delay minTimerInterval ≤ entry.nextFire
  kept : .cleared id ∉ log
  same : ∀ time interval, .fired id time interval ∈ log → interval = entry.interval
  apart : (∀ interval, running ≠ some (id, interval)) →
    ∀ time interval, .fired id time interval ∈ log → ∃ i, interval = some i ∧ time + i ≤ entry.nextFire

/-- Ids are given out in order, and records, entries and the pass only know those. -/
structure Numbered (registry : TimerRegistry) (due : List UInt64) (log : List TimerRecord) : Prop where
  inOrder : scheduledIds log = numbers (scheduledIds log).length
  next : registry.nextId = UInt64.ofNat (scheduledIds log).length
  recorded : ∀ record ∈ log, TimerRecord.id record ∈ scheduledIds log
  known : ∀ id ∈ registry.entries, id ∈ scheduledIds log
  collected : ∀ id ∈ due, id ∈ scheduledIds log

structure Orderly (timers : Timers) : Prop where
  numbered : Numbered timers.registry timers.due timers.log
  past : ∀ id time interval, .fired id time interval ∈ timers.log → time ≤ timers.clock
  waits : ∀ id entry, timers.registry.entries.lookup id = some entry → Waits timers.log timers.running id entry
  once : timers.due.Nodup
  due : ∀ id ∈ timers.due, ∀ entry, timers.registry.entries.lookup id = some entry → entry.nextFire ≤ timers.clock
  busy : ∀ id interval, timers.running = some (id, interval) → id ∉ timers.due ∧
    (∃ time, .fired id time interval ∈ timers.log) ∧ ∀ entry, timers.registry.entries.lookup id = some entry →
      entry.interval = interval ∧ entry.nextFire ≤ timers.clock
  bounded : timers.registry.entries.keys.length ≤ maxTimersPerWorker
  allowed : timers.log.Pairwise Allows

private theorem orderly_start : Orderly Timers.start where
  numbered :=
    { inOrder := rfl
      next := rfl
      recorded := by rintro record ⟨⟩
      known := by rintro id ⟨⟩
      collected := by rintro id ⟨⟩ }
  past := by rintro id time interval ⟨⟩
  waits := by rintro id entry ⟨⟩
  once := nodup_nil
  due := by rintro id ⟨⟩
  busy := by rintro id interval ⟨⟩
  bounded := Nat.zero_le _
  allowed := List.Pairwise.nil

variable {log : List TimerRecord} {running : Option (UInt64 × Option ℕ)} {id : UInt64} {entry : TimerEntry}

/-- A record of another timer changes nothing. -/
theorem Waits.record (waits : Waits log running id entry) {record : TimerRecord}
    (other : TimerRecord.id record ≠ id) : Waits (log ++ [record]) running id entry := by
  have older : ∀ mine, TimerRecord.id mine = id → mine ∈ log ++ [record] → mine ∈ log := by
    rintro mine rfl member
    exact mem_of_mem_concat member fun last => other (congrArg TimerRecord.id last).symm
  exact
    { asked := fun time delay interval member => waits.asked time delay interval (older _ rfl member)
      kept := fun member => waits.kept (older _ rfl member)
      same := fun time interval member => waits.same time interval (older _ rfl member)
      apart := fun free time interval member => waits.apart free time interval (older _ rfl member) }

theorem Waits.running_other (waits : Waits log running id entry) {running' : Option (UInt64 × Option ℕ)}
    (free : ∀ interval, running ≠ some (id, interval)) : Waits log running' id entry :=
  ⟨waits.asked, waits.kept, waits.same, fun _ => waits.apart free⟩

variable {registry : TimerRegistry} {due : List UInt64}

/-- Entries and ids of the pass may go. -/
theorem Numbered.shrink (numbered : Numbered registry due log) {registry' : TimerRegistry} {due' : List UInt64}
    (next : registry'.nextId = registry.nextId) (entries : ∀ id ∈ registry'.entries, id ∈ registry.entries)
    (pass : ∀ id ∈ due', id ∈ due ∨ id ∈ registry.entries) : Numbered registry' due' log where
  inOrder := numbered.inOrder
  next := next.trans numbered.next
  recorded := numbered.recorded
  known id member := numbered.known id (entries id member)
  collected id member := (pass id member).elim (numbered.collected id) (numbered.known id)

/-- A record that gives out no id. -/
theorem Numbered.record (numbered : Numbered registry due log) {record : TimerRecord}
    (other : scheduledId record = none) (mine : TimerRecord.id record ∈ scheduledIds log) :
    Numbered registry due (log ++ [record]) := by
  have ids : scheduledIds (log ++ [record]) = scheduledIds log := by
    rw [scheduledIds_append, scheduledIds, scheduledIds, filterMap_cons_none other, filterMap_nil, append_nil]
  refine ⟨?_, ?_, ?_, ?_, ?_⟩
  · rw [ids]
    exact numbered.inOrder
  · rw [ids]
    exact numbered.next
  · rw [ids]
    exact forall_mem_concat.mpr ⟨numbered.recorded, mine⟩
  · rw [ids]
    exact numbered.known
  · rw [ids]
    exact numbered.collected

private theorem lookup_of_erase {other : UInt64} (found : (registry.entries.erase id).lookup other = some entry) :
    other ≠ id ∧ registry.entries.lookup other = some entry := by
  rw [lookup_erase_eq_ite] at found
  split_ifs at found with same
  exact ⟨same, found⟩

theorem mem_of_lookup (found : registry.entries.lookup id = some entry) : id ∈ registry.entries :=
  lookup_isSome.mp (by rw [found]; rfl)

end Invariant

section Steps

variable {timers timers' : Timers} {now : ℕ} {log : List TimerRecord} {running : Option (UInt64 × Option ℕ)}
  {id : UInt64}
  {entry : TimerEntry} {registry : TimerRegistry} {due : List UInt64}

/-- Time passes. -/
theorem Orderly.later (orderly : Orderly timers) (later : timers.clock ≤ now) :
    Orderly { timers with clock := now } :=
  { orderly with
    past := fun id time interval member => (orderly.past id time interval member).trans later
    due := fun id member entry found => (orderly.due id member entry found).trans later
    busy := fun id interval running =>
      let ⟨apart, known, entries⟩ := orderly.busy id interval running
      ⟨apart, known, fun entry found => ⟨(entries entry found).1, (entries entry found).2.trans later⟩⟩ }

/-- A scheduling gives out an id that was not given out before. -/
theorem Numbered.schedule (numbered : Numbered registry due log) (entry : TimerEntry) (time delay : ℕ)
    (interval : Option ℕ)
    (few : (scheduledIds log).length + 1 ≤ 2 ^ 64) :
    registry.nextId + 1 ∉ scheduledIds log ∧
      Numbered ⟨registry.entries.insert (registry.nextId + 1) entry, registry.nextId + 1⟩ due
        (log ++ [.scheduled (registry.nextId + 1) time delay interval]) := by
  have shifted : registry.nextId + 1 = UInt64.ofNat ((scheduledIds log).length + 1) := by
    rw [numbered.next, UInt64.ofNat_add]
    rfl
  have ids : scheduledIds (log ++ [.scheduled (registry.nextId + 1) time delay interval]) =
      scheduledIds log ++ [registry.nextId + 1] := scheduledIds_append _ _
  have older : ∀ id ∈ scheduledIds log, id ∈ scheduledIds log ++ [registry.nextId + 1] :=
    fun id member => mem_append_left _ member
  have newest : registry.nextId + 1 ∈ scheduledIds log ++ [registry.nextId + 1] :=
    mem_append_right _ mem_cons_self
  refine ⟨?_, ?_, ?_, ?_, ?_, ?_⟩
  · rw [numbered.inOrder, shifted]
    exact fresh few
  · rw [ids, length_append, length_singleton, numbers_succ, ← numbered.inOrder, shifted]
  · rw [ids, length_append, length_singleton, shifted]
  · rw [ids]
    exact forall_mem_concat.mpr ⟨fun record member => older _ (numbered.recorded record member), newest⟩
  · intro id member
    rw [ids]
    rcases (mem_insert _).mp member with rfl | before
    · exact newest
    · exact older id (numbered.known id before)
  · intro id member
    rw [ids]
    exact older id (numbered.collected id member)

/-- The only record of a new timer is its scheduling. -/
theorem waits_new {delay : ℕ} {interval : Option ℕ} {func : LuaFn} {botId : Option UInt32}
    (absent : ∀ record ∈ log, TimerRecord.id record ≠ id) :
    Waits (log ++ [.scheduled id now delay interval]) running id
      ⟨func, interval.map fun i => max i minTimerInterval, now + max delay minTimerInterval, botId⟩ := by
  have only : ∀ record ∈ log ++ [.scheduled id now delay interval], TimerRecord.id record = id →
      record = .scheduled id now delay interval := by
    exact forall_mem_concat.mpr ⟨fun record member mine => absurd mine (absent record member), fun _ => rfl⟩
  refine ⟨?_, ?_, ?_, ?_⟩
  · intro time delay' interval' member
    cases only _ member rfl
    exact ⟨rfl, le_rfl⟩
  · intro member
    cases only _ member rfl
  · intro time read member
    cases only _ member rfl
  · intro _ time read member
    cases only _ member rfl

private theorem schedule_orderly (orderly : Orderly timers) (later : timers.clock ≤ now) (delay : ℕ)
    (interval : Option ℕ) (func : LuaFn) (botId : Option UInt32)
    (few : (scheduledIds (timers.schedule now delay interval func botId).log).length ≤ 2 ^ 64) :
    Orderly (timers.schedule now delay interval func botId) := by
  unfold Timers.schedule at few ⊢
  split_ifs at few ⊢ with full
  · exact orderly.later later
  · rw [scheduledIds_append, length_append] at few
    obtain ⟨unused, numbered⟩ := orderly.numbered.schedule
      ⟨func, interval.map fun i => max i minTimerInterval, now + max delay minTimerInterval, botId⟩
      now delay interval few
    have others : ∀ id ∈ scheduledIds timers.log, id ≠ timers.registry.nextId + 1 := by
      rintro id member rfl
      exact unused member
    have absent : ∀ record ∈ timers.log, TimerRecord.id record ≠ timers.registry.nextId + 1 :=
      fun record member => others _ (orderly.numbered.recorded record member)
    refine
      { numbered := numbered, past := ?_, waits := ?_, once := orderly.once, due := ?_, busy := ?_
        bounded := length_keys_insert_le _ orderly.bounded (.inr (not_le.mp full)), allowed := ?_ }
    · intro id time read member
      exact (orderly.past id time read (mem_of_mem_concat member TimerRecord.noConfusion)).trans later
    · intro id entry found
      rw [lookup_insert_eq_ite] at found
      split_ifs at found with same
      · cases found
        subst same
        exact waits_new absent
      · exact (orderly.waits id entry found).record (Ne.symm same)
    · intro id member entry found
      rw [lookup_insert_ne (others id (orderly.numbered.collected id member))] at found
      exact (orderly.due id member entry found).trans later
    · intro id read running
      obtain ⟨apart, ⟨time, called⟩, entries⟩ := orderly.busy id read running
      refine ⟨apart, ⟨time, mem_append_left _ called⟩, ?_⟩
      intro entry found
      have other : id ≠ timers.registry.nextId + 1 := absent _ called
      rw [lookup_insert_ne other] at found
      exact ⟨(entries entry found).1, (entries entry found).2.trans later⟩
    · refine allowed_concat orderly.allowed fun record member => ?_
      have other := absent record member
      cases record with
      | scheduled id time delay' interval' | fired id time read => exact other
      | cleared id => exact trivial

private theorem clear_orderly (orderly : Orderly timers) (id : UInt64) : Orderly (timers.clear id) := by
  unfold Timers.clear
  split
  · exact orderly
  · rename_i cleared found
    have mine : id ∈ scheduledIds timers.log := orderly.numbered.known id (mem_of_lookup found)
    have shrunk : Numbered { timers.registry with entries := timers.registry.entries.erase id } timers.due timers.log :=
      orderly.numbered.shrink rfl (fun other member => (mem_erase.mp member).2) fun _ => .inl
    refine
      { numbered := shrunk.record rfl mine, past := ?_, waits := ?_, once := orderly.once, due := ?_, busy := ?_
        bounded := (length_keys_erase_le _ _).trans orderly.bounded, allowed := ?_ }
    · intro other time read member
      exact orderly.past other time read (mem_of_mem_concat member TimerRecord.noConfusion)
    · intro other entry still
      obtain ⟨different, before⟩ := lookup_of_erase still
      exact (orderly.waits other entry before).record (Ne.symm different)
    · intro other member entry still
      exact orderly.due other member entry (lookup_of_erase still).2
    · intro other read running
      obtain ⟨apart, ⟨time, called⟩, entries⟩ := orderly.busy other read running
      exact ⟨apart, ⟨time, mem_append_left _ called⟩, fun entry still => entries entry (lookup_of_erase still).2⟩
    · refine allowed_concat orderly.allowed fun record member => ?_
      cases record <;> exact trivial

private theorem collect_orderly (orderly : Orderly timers) (later : timers.clock ≤ now) {order : List UInt64}
    (idle : timers.running = none) (walk : order.Perm timers.registry.entries.keys) :
    Orderly (timers.collect now order) := by
  have collected : ∀ id ∈ order.filter (Timers.isDue timers.registry now), id ∈ timers.registry.entries := by
    intro id member
    exact mem_keys.mpr (walk.mem_iff.mp (mem_of_mem_filter member))
  exact
    { orderly.later later with
      numbered := orderly.numbered.shrink rfl (fun _ member => member) fun id member => .inr (collected id member)
      once := (walk.nodup_iff.mpr timers.registry.entries.keys_nodup).filter _
      due := by
        intro id member entry found
        have due := (mem_filter.mp member).2
        rw [Timers.isDue, show timers.registry.entries.lookup id = some entry from found] at due
        exact of_decide_eq_true due
      busy := by
        intro id interval running
        rw [Timers.collect, idle] at running
        cases running }

/-- The visited id is no longer part of the pass. -/
theorem Orderly.visited (orderly : Orderly timers) (later : timers.clock ≤ now) {rest : List UInt64}
    (pass : timers.due = id :: rest) (idle : timers.running = none) :
    Orderly { timers with clock := now, due := rest } := by
  have inside : ∀ other ∈ rest, other ∈ timers.due := by
    intro other member
    rw [pass]
    exact mem_cons_of_mem _ member
  exact
    { orderly.later later with
      numbered := orderly.numbered.shrink rfl (fun _ member => member) fun other member => .inl (inside other member)
      once := by
        have once := orderly.once
        rw [pass] at once
        exact once.of_cons
      due := fun other member entry found => (orderly.due other (inside other member) entry found).trans later
      busy := by
        intro other interval running
        rw [idle] at running
        cases running }

/-- A timer that waits and is ripe may fire. -/
theorem Waits.allows (waits : Waits log running id entry) (free : ∀ interval, running ≠ some (id, interval))
    (ripe : entry.nextFire ≤ now) : ∀ record ∈ log, Allows record (.fired id now entry.interval) := by
  intro record member
  cases record with
  | scheduled other time delay interval =>
    rintro rfl
    obtain ⟨read, early⟩ := waits.asked time delay interval member
    exact ⟨read, early.trans ripe⟩
  | cleared other =>
    rintro rfl
    exact waits.kept member
  | fired other time interval =>
    rintro rfl
    obtain ⟨i, read, early⟩ := waits.apart free time interval member
    exact ⟨i, read, early.trans ripe⟩

/-- What the log says of a timer while its callback runs. -/
theorem Waits.called (waits : Waits log running id entry) :
    Waits (log ++ [.fired id now entry.interval]) (some (id, entry.interval)) id entry := by
  refine ⟨?_, ?_, ?_, fun free => absurd rfl (free entry.interval)⟩
  · intro time delay interval member
    exact waits.asked time delay interval (mem_of_mem_concat member TimerRecord.noConfusion)
  · intro member
    exact waits.kept (mem_of_mem_concat member TimerRecord.noConfusion)
  · intro time interval member
    rcases mem_concat_iff.mp member with before | last
    · exact waits.same time interval before
    · cases last
      rfl

private theorem fire_orderly (orderly : Orderly timers) (later : timers.clock ≤ now) {rest : List UInt64}
    (pass : timers.due = id :: rest) (idle : timers.running = none) (disabled : List UInt32) :
    Orderly (timers.fire now disabled id rest) := by
  have visited := orderly.visited later pass idle
  have collected : id ∈ timers.due := by
    rw [pass]
    exact mem_cons_self
  unfold Timers.fire
  split
  · exact visited
  · rename_i entry found
    split_ifs with skipped
    · exact visited
    · have free : ∀ other interval, timers.running ≠ some (other, interval) := by
        intro other interval running
        rw [idle] at running
        cases running
      have waits := orderly.waits id entry found
      have ripe : entry.nextFire ≤ now := (orderly.due id collected entry found).trans later
      refine
        { visited with
          numbered := visited.numbered.record rfl (orderly.numbered.collected id collected)
          past := ?_, waits := ?_, busy := ?_, allowed := ?_ }
      · intro other time read member
        rcases mem_concat_iff.mp member with before | last
        · exact visited.past other time read before
        · cases last
          exact le_rfl
      · intro other entry' found'
        by_cases same : other = id
        · subst same
          cases found.symm.trans found'
          exact waits.called
        · exact ((orderly.waits other entry' found').running_other (free other)).record (Ne.symm same)
      · intro other interval running
        cases running
        have once := orderly.once
        rw [pass] at once
        refine ⟨(nodup_cons.mp once).1, ⟨now, mem_append_right _ mem_cons_self⟩, ?_⟩
        intro entry' found'
        cases found.symm.trans found'
        exact ⟨rfl, ripe⟩
      · exact allowed_concat orderly.allowed (waits.allows (free id) ripe)

/-- Once its callback is over, a timer waits for its next time. -/
theorem Waits.rearmed {interval : ℕ} (waits : Waits log running id entry) (read : entry.interval = some interval)
    (ripe : entry.nextFire ≤ now) (past : ∀ time fired, .fired id time fired ∈ log → time ≤ now) :
    Waits log none id { entry with nextFire := now + interval } := by
  refine ⟨?_, waits.kept, waits.same, ?_⟩
  · intro time delay asked member
    obtain ⟨same, early⟩ := waits.asked time delay asked member
    refine ⟨same, ?_⟩
    change time + max delay minTimerInterval ≤ now + interval
    omega
  · intro _ time fired member
    have passed := past time fired member
    refine ⟨interval, (waits.same time fired member).trans read, ?_⟩
    change time + interval ≤ now + interval
    omega

/-- After a firing the other entries are as before, and the timer's own, if it stays, has its next time. -/
theorem lookup_rearmed {interval : Option ℕ} {other : UInt64}
    (found : (Timers.rearmed registry now id interval).entries.lookup other = some entry) :
    (other ≠ id ∧ registry.entries.lookup other = some entry) ∨
      ∃ before i, interval = some i ∧ other = id ∧ registry.entries.lookup id = some before ∧
        entry = { before with nextFire := now + i } := by
  unfold Timers.rearmed at found
  split at found
  · exact .inl (lookup_of_erase found)
  · rename_i i
    split at found
    · rename_i absent
      refine .inl ⟨?_, found⟩
      rintro rfl
      cases absent.symm.trans found
    · rename_i before present
      rw [lookup_insert_eq_ite] at found
      split_ifs at found with same
      · exact .inr ⟨before, i, rfl, same, present, (Option.some.inj found).symm⟩
      · exact .inl ⟨same, found⟩

private theorem rearmed_bounded {interval : Option ℕ} (bounded : registry.entries.keys.length ≤ maxTimersPerWorker) :
    (Timers.rearmed registry now id interval).nextId = registry.nextId ∧
      (Timers.rearmed registry now id interval).entries.keys.length ≤ maxTimersPerWorker := by
  unfold Timers.rearmed
  split
  · exact ⟨rfl, (length_keys_erase_le _ _).trans bounded⟩
  · split
    · exact ⟨rfl, bounded⟩
    · rename_i present
      exact ⟨rfl, length_keys_insert_le _ bounded (.inl (mem_of_lookup present))⟩

private theorem finish_orderly (orderly : Orderly timers) (later : timers.clock ≤ now) {interval : Option ℕ}
    (busy : timers.running = some (id, interval)) : Orderly (timers.finish now id interval) := by
  obtain ⟨apart, _, entries⟩ := orderly.busy id interval busy
  have known : ∀ other ∈ (Timers.rearmed timers.registry now id interval).entries, other ∈ timers.registry.entries := by
    intro other member
    obtain ⟨entry, found⟩ := Option.isSome_iff_exists.mp (lookup_isSome.mpr member)
    rcases lookup_rearmed found with ⟨_, before⟩ | ⟨_, _, _, rfl, before, _⟩
    all_goals exact mem_of_lookup before
  exact
    { orderly.later later with
      numbered := orderly.numbered.shrink (rearmed_bounded orderly.bounded).1 known fun _ => .inl
      waits := by
        intro other entry found
        rcases lookup_rearmed found with ⟨different, before⟩ | ⟨entry, i, rfl, rfl, before, rfl⟩
        · refine (orderly.waits other entry before).running_other fun read running => ?_
          rw [busy] at running
          cases running
          exact different rfl
        · obtain ⟨read, ripe⟩ := entries entry before
          exact (orderly.waits other entry before).rearmed read (ripe.trans later)
            fun time fired member => (orderly.past other time fired member).trans later
      due := by
        intro other member entry found
        rcases lookup_rearmed found with ⟨_, before⟩ | ⟨_, _, _, rfl, _⟩
        · exact (orderly.due other member entry before).trans later
        · exact absurd member apart
      busy := by rintro other read ⟨⟩
      bounded := (rearmed_bounded orderly.bounded).2 }

private theorem schedule_log (delay : ℕ) (interval : Option ℕ) (func : LuaFn) (botId : Option UInt32) :
    timers.log <+: (timers.schedule now delay interval func botId).log := by
  unfold Timers.schedule
  split_ifs
  · exact prefix_rfl
  · exact prefix_append _ _

private theorem clear_log (id : UInt64) : timers.log <+: (timers.clear id).log := by
  unfold Timers.clear
  split
  · exact prefix_rfl
  · exact prefix_append _ _

private theorem fire_log (disabled : List UInt32) (rest : List UInt64) :
    timers.log <+: (timers.fire now disabled id rest).log := by
  unfold Timers.fire
  split
  · exact prefix_rfl
  · split_ifs
    · exact prefix_rfl
    · exact prefix_append _ _

/-- The log only grows, and every step keeps it orderly as long as the counter has not gone round. -/
theorem step_orderly {step : TimerStep} (stepped : timers.step step = some timers') : timers.log <+: timers'.log ∧
    (Orderly timers → (scheduledIds timers'.log).length ≤ 2 ^ 64 → Orderly timers') := by
  cases step with
  | schedule now delay interval func botId =>
    simp only [Timers.step] at stepped
    split_ifs at stepped with later
    cases stepped
    exact ⟨schedule_log .., fun orderly => schedule_orderly orderly later delay interval func botId⟩
  | clear id =>
    cases stepped
    exact ⟨clear_log id, fun orderly _ => clear_orderly orderly id⟩
  | collect now order =>
    simp only [Timers.step] at stepped
    split_ifs at stepped with possible
    cases stepped
    exact ⟨prefix_rfl, fun orderly _ => collect_orderly orderly possible.1 possible.2.2.1 possible.2.2.2⟩
  | fire now disabled =>
    simp only [Timers.step] at stepped
    split at stepped
    · rename_i id rest idle pass
      split_ifs at stepped with later
      cases stepped
      exact ⟨fire_log .., fun orderly _ => fire_orderly orderly later pass idle disabled⟩
    · cases stepped
  | finish now =>
    simp only [Timers.step] at stepped
    split at stepped
    · rename_i id interval busy
      split_ifs at stepped with later
      cases stepped
      exact ⟨prefix_rfl, fun orderly _ => finish_orderly orderly later busy⟩
    · cases stepped

theorem run_orderly {steps : List TimerStep} (ran : timers.run steps = some timers') : timers.log <+: timers'.log ∧
    (Orderly timers → (scheduledIds timers'.log).length ≤ 2 ^ 64 → Orderly timers') := by
  induction steps generalizing timers with
  | nil =>
    cases ran
    exact ⟨prefix_rfl, fun orderly _ => orderly⟩
  | cons step rest ih =>
    obtain ⟨middle, stepped, ran'⟩ := Option.bind_eq_some_iff.mp ran
    obtain ⟨grows, keeps⟩ := step_orderly stepped
    obtain ⟨grows', keeps'⟩ := ih ran'
    refine ⟨grows.trans grows', fun orderly few => keeps' (keeps orderly ?_) few⟩
    exact (grows'.filterMap scheduledId).length_le.trans few

end Steps

section Runs

/-- A property that two members cannot both have is had by at most one. -/
theorem countP_le_one {α : Type} {p : α → Bool} {l : List α} (never : l.Pairwise fun a b => ¬ (p a ∧ p b)) :
    l.countP p ≤ 1 := by
  induction never with
  | nil => exact Nat.zero_le 1
  | @cons a rest apart _ ih =>
    rw [countP_cons]
    split_ifs with mine
    · have none : rest.countP p = 0 :=
        countP_eq_zero.mpr fun b member theirs => apart b member ⟨mine, theirs⟩
      omega
    · exact ih

/-- The order in which a scheduling and a firing of one timer are recorded. -/
theorem fired_after {log : List TimerRecord} (allowed : log.Pairwise Allows) {id : UInt64} {time delay moment : ℕ}
    {interval read : Option ℕ} (asked : .scheduled id time delay interval ∈ log)
    (fired : .fired id moment read ∈ log) :
    read = interval.map (fun i => max i minTimerInterval) ∧ time + max delay minTimerInterval ≤ moment := by
  have either : log.Pairwise fun a b => Allows a b ∨ Allows b a := allowed.imp Or.inl
  have symmetric : Std.Symm fun a b : TimerRecord => Allows a b ∨ Allows b a := ⟨fun _ _ => Or.symm⟩
  rcases either.forall asked fired TimerRecord.noConfusion with inOrder | reversed
  · exact inOrder rfl
  · exact absurd rfl reversed

/-- In a run of schedulings, clears and passes, in any order and with any callbacks in between, and with
a clock that never goes back: a one-shot timer fires at most once and not before its delay; a timer that
was cleared does not fire any more; an interval timer's firings are its interval apart; no id is given
out twice; and the number of timers is bounded. -/
theorem timers_keep_time (steps : List TimerStep) (timers : Timers) (ran : Timers.start.run steps = some timers)
    (few : (scheduledIds timers.log).length ≤ 2 ^ 64) :
    (∀ id time delay, .scheduled id time delay none ∈ timers.log →
      timers.log.countP (firing id) ≤ 1 ∧
        ∀ moment read, .fired id moment read ∈ timers.log → time + max delay minTimerInterval ≤ moment) ∧
      (∀ before after id, timers.log = before ++ .cleared id :: after → ∀ moment read, .fired id moment read ∉ after) ∧
      (∀ id time delay interval, .scheduled id time delay (some interval) ∈ timers.log →
        ∀ before between after first second read read',
          timers.log = before ++ .fired id first read :: (between ++ .fired id second read' :: after) →
            first + max interval minTimerInterval ≤ second) ∧
      (scheduledIds timers.log).Nodup ∧ timers.registry.entries.keys.length ≤ maxTimersPerWorker := by
  have orderly := (run_orderly ran).2 orderly_start few
  refine ⟨?_, ?_, ?_, ?_, orderly.bounded⟩
  · intro id time delay asked
    refine ⟨countP_le_one ?_, fun moment read fired => (fired_after orderly.allowed asked fired).2⟩
    refine List.Pairwise.imp_of_mem ?_ orderly.allowed
    rintro (_ | _ | ⟨first, moment, read⟩) (_ | _ | ⟨second, moment', read'⟩) member member' allows ⟨mine, theirs⟩
    all_goals first | cases mine | cases theirs | skip
    have one : first = id := by simpa [firing] using mine
    have other : second = id := by simpa [firing] using theirs
    subst one other
    -- The first firing has read no interval, so nothing may follow it.
    obtain ⟨i, some, _⟩ := allows rfl
    have none := (fired_after orderly.allowed asked member).1
    rw [some] at none
    cases none
  · intro before after id split moment read fired
    have allowed := orderly.allowed
    rw [split, pairwise_append, pairwise_cons] at allowed
    exact allowed.2.1.1 _ fired rfl
  · intro id time delay interval asked before between after first second read read' split
    have allowed := orderly.allowed
    have member : TimerRecord.fired id first read ∈ timers.log := by
      rw [split]
      exact mem_append_right _ mem_cons_self
    have same := (fired_after allowed asked member).1
    rw [split, pairwise_append, pairwise_cons] at allowed
    have later : TimerRecord.fired id second read' ∈ between ++ .fired id second read' :: after :=
      mem_append_right _ mem_cons_self
    obtain ⟨i, some, apart⟩ := allowed.2.1.1 _ later rfl
    rw [same] at some
    cases some
    exact apart
  · rw [orderly.numbered.inOrder]
    exact numbers_nodup few

/-- Two timers are due together, and the callback of the first clears the second. -/
def clearingPass : List TimerStep :=
  [.schedule 0 5000000 none 1 none, .schedule 0 20000000 (some 30000000) 2 (some 7), .collect 25000000 [1, 2],
    .fire 25000000 [], .clear 2, .finish 26000000, .fire 26000000 []]

theorem timers_keep_time_demo :
    ∃ timers, Timers.start.run clearingPass = some timers ∧
      timers.log = [.scheduled 1 0 5000000 none, .scheduled 2 0 20000000 (some 30000000), .fired 1 25000000 none,
        .cleared 2] ∧
      timers.log.countP (firing 1) ≤ 1 := by
  refine ⟨_, rfl, by decide, ?_⟩
  exact ((timers_keep_time clearingPass _ rfl (by decide)).1 1 0 5000000 (by decide)).1

/-- As many timers scheduled and cleared, one after the other. -/
def turnover : ℕ → List TimerStep
  | 0 => []
  | count + 1 => turnover count ++ [.schedule 0 0 none 0 none, .clear (UInt64.ofNat (count + 1))]

theorem run_append (timers : Timers) (first second : List TimerStep) :
    timers.run (first ++ second) = (timers.run first).bind fun timers => timers.run second := by
  induction first generalizing timers with
  | nil => rfl
  | cons step rest ih =>
    rw [cons_append, Timers.run, Timers.run, Option.bind_assoc]
    exact congrArg _ (funext fun timers => ih timers)

private theorem turnover_run (count : ℕ) :
    ∃ timers, Timers.start.run (turnover count) = some timers ∧
      timers.registry = ⟨∅, UInt64.ofNat count⟩ ∧ timers.clock = 0 ∧ scheduledIds timers.log = numbers count := by
  induction count with
  | zero => exact ⟨_, rfl, rfl, rfl, rfl⟩
  | succ count ih =>
    obtain ⟨⟨registry, clock, due, running, log⟩, ran, rfl, rfl, ids⟩ := ih
    have shifted : UInt64.ofNat count + 1 = UInt64.ofNat (count + 1) := by
      rw [UInt64.ofNat_add]
      rfl
    have room : ¬ (∅ : AList fun _ : UInt64 => TimerEntry).keys.length ≥ maxTimersPerWorker := by decide
    have removed : ∀ entry, ((∅ : AList fun _ : UInt64 => TimerEntry).insert (UInt64.ofNat (count + 1)) entry).erase
        (UInt64.ofNat (count + 1)) = ∅ := fun entry => erase_insert entry (notMem_empty _)
    rw [turnover, run_append, ran]
    refine ⟨⟨⟨∅, UInt64.ofNat (count + 1)⟩, 0, due, running,
      log ++ [.scheduled (UInt64.ofNat (count + 1)) 0 0 none] ++ [.cleared (UInt64.ofNat (count + 1))]⟩,
      ?_, rfl, rfl, ?_⟩
    · simp only [Option.bind_some, Timers.run, Timers.step, le_refl, if_true, Timers.schedule, if_neg room, shifted,
        Timers.clear, lookup_insert, removed]
    · rw [scheduledIds_append, scheduledIds_append, ids, numbers_succ]
      exact append_nil _

private theorem numbers_repeat {count : ℕ} (positive : 0 < count) (wraps : UInt64.ofNat (count + 1) = UInt64.ofNat 1) :
    ¬ (numbers (count + 1)).Nodup := by
  intro nodup
  rw [numbers_succ, nodup_append] at nodup
  have first : UInt64.ofNat 1 ∈ numbers count := mem_map.mpr ⟨0, mem_range.mpr positive, rfl⟩
  exact nodup.2.2 _ first _ mem_cons_self wraps.symm

/-- After `2 ^ 64` timers the ids start again. -/
theorem ids_are_reused : ∃ steps timers, Timers.start.run steps = some timers ∧ ¬ (scheduledIds timers.log).Nodup := by
  obtain ⟨timers, ran, _, _, ids⟩ := turnover_run (2 ^ 64 + 1)
  refine ⟨_, timers, ran, ?_⟩
  rw [ids]
  exact numbers_repeat (Nat.two_pow_pos 64) (by decide)

end Runs

end MineRider.Soundness.Timers
