import MineRider.Machine.Backlog
import MineRider.Model.Lua.Queue
import MineRider.ToMathlib.Concat

/-! # The three lanes of a worker's queue

Between two drains each lane holds what is left of the items pushed to it: the high lane those that found
room, the coalescing lane the newest one of every key, the low lane the newest ones that fit. A drain delivers
the three in this order and starts over. All of this is for items of any type with a priority and a name.

The key of the coalescing lane is a name, and several variants of events share one. A later event of another
variant with the same name therefore replaces an event, and that is the only way in which one is lost.
-/

namespace MineRider.Soundness.Lanes

open List Model.Lua Model.Minecraft Machine WorkItem

variable {ε : Type}

section Statement

inductive QueueStep (ε : Type) where
  | push (envelope : Envelope ε)
  | drain

/-- What was pushed before a drain, since the one before it, and what the drain delivered. -/
structure Drain (ε : Type) where
  pushed : List (Envelope ε × PushOutcome)
  batch : List (Envelope ε)

structure Trace (ε : Type) where
  queue : PriorityQueue ε
  /-- Pushed since the last drain, with the outcome. -/
  pushed : List (Envelope ε × PushOutcome)
  drains : List (Drain ε)

def Trace.step (priority : ε → Priority) (name : ε → EventName) (t : Trace ε) : QueueStep ε → Trace ε
  | .push envelope =>
    { t with
      queue := (t.queue.push priority name envelope).2,
      pushed := t.pushed ++ [(envelope, (t.queue.push priority name envelope).1)] }
  | .drain => ⟨t.queue.drainReady.2, [], t.drains ++ [⟨t.pushed, t.queue.drainReady.1⟩]⟩

def Trace.run (priority : ε → Priority) (name : ε → EventName) (highCapacity lowCapacity : ℕ)
    (steps : List (QueueStep ε)) : Trace ε :=
  steps.foldl (Trace.step priority name) ⟨.new highCapacity lowCapacity, [], []⟩

variable (priority : ε → Priority) (name : ε → EventName)

def inLane (lane : Priority) (envelope : Envelope ε) : Bool := priority envelope.event = lane

/-- The items pushed to a lane. -/
def arrivals (lane : Priority) (pushed : List (Envelope ε × PushOutcome)) : List (Envelope ε) :=
  (pushed.map Prod.fst).filter (inLane priority lane)

def acceptedHigh (pushed : List (Envelope ε × PushOutcome)) : List (Envelope ε) :=
  arrivals priority .high (pushed.filter (·.2 = .accepted))

def coalescingKey (envelope : Envelope ε) : UInt32 × EventName := (envelope.botId, name envelope.event)

/-- What a drain delivers of the pushes since the last one. -/
def delivery (lowCapacity : ℕ) (pushed : List (Envelope ε × PushOutcome)) : List (Envelope ε) :=
  acceptedHigh priority pushed ++ coalesced (coalescingKey name) (arrivals priority .coalescible pushed) ++
    (arrivals priority .low pushed).rtake lowCapacity

/-- Everything that was pushed. -/
def Trace.allPushed (t : Trace ε) : List (Envelope ε × PushOutcome) :=
  (t.drains.map Drain.pushed).flatten ++ t.pushed

def Trace.delivered (t : Trace ε) : List (Envelope ε) := (t.drains.map Drain.batch).flatten

structure LanesHold (highCapacity lowCapacity : ℕ) (t : Trace ε) : Prop where
  enumerates : Enumerates t.queue.coalesceOrder t.queue.coalesced
  /-- Accepted high items are delivered once and in order, or still wait. -/
  accepted : acceptedHigh priority t.allPushed = t.delivered.filter (inLane priority .high) ++ t.queue.high
  /-- Every drain delivers the high items, the newest values and the newest low items, in this order. -/
  drains : ∀ drain ∈ t.drains, drain.batch = delivery priority name lowCapacity drain.pushed
  high : t.queue.high.length ≤ highCapacity
  low : t.queue.low.length ≤ lowCapacity

end Statement

section Draining

variable {order : List (UInt32 × EventName)} {map : AList fun _ : UInt32 × EventName => Envelope ε}

/-- Taking the values out in the order of their keys. -/
theorem drainCoalesced_values (enumerates : Enumerates order map) :
    (PriorityQueue.drainCoalesced map order).1 = order.filterMap map.lookup := by
  induction order generalizing map with
  | nil => rfl
  | cons key order ih =>
    have later : order.filterMap (map.erase key).lookup = order.filterMap map.lookup := by
      refine filterMap_congr fun other member => AList.lookup_erase_ne ?_
      rintro rfl
      exact (nodup_cons.mp enumerates.nodup).1 member
    change (map.lookup key).toList ++ (PriorityQueue.drainCoalesced (map.erase key) order).1 = _
    rw [ih enumerates.pop, later]
    cases found : map.lookup key with
    | none | some envelope => rw [filterMap_cons, found]; rfl

/-- It leaves nothing behind. -/
theorem drainCoalesced_rest (enumerates : Enumerates order map) :
    Enumerates [] (PriorityQueue.drainCoalesced map order).2 := by
  induction order generalizing map with
  | nil => exact enumerates
  | cons key order ih => exact ih enumerates.pop

end Draining

section Lanes

variable {queue : PriorityQueue ε} {highCapacity lowCapacity : ℕ} {key : Envelope ε → UInt32 × EventName}
  {high coalescible low : List (Envelope ε)}

/-- The lanes hold what is left of the items that were accepted or pushed to each of them. -/
structure Holds (highCapacity lowCapacity : ℕ) (key : Envelope ε → UInt32 × EventName)
    (high coalescible low : List (Envelope ε)) (queue : PriorityQueue ε) : Prop where
  room : queue.highCapacity = highCapacity
  window : queue.lowCapacity = lowCapacity
  highLane : queue.high = high
  bounded : queue.high.length ≤ highCapacity
  coalescing : Coalesces key coalescible queue.coalesceOrder queue.coalesced
  lowLane : 0 < lowCapacity → queue.low = low.rtake lowCapacity
  lowItems : queue.low ⊆ low

theorem Holds.new : Holds highCapacity lowCapacity key [] [] [] (.new highCapacity lowCapacity) :=
  ⟨rfl, rfl, rfl, Nat.zero_le _, .ofEmpty .empty, fun _ => (rtake_nil ..).symm, nil_subset _⟩

section

variable (holds : Holds highCapacity lowCapacity key high coalescible low queue)

include holds

theorem Holds.pushHigh (envelope : Envelope ε) :
    Holds highCapacity lowCapacity key
      (high ++ if (queue.pushHigh envelope).1 = .accepted then [envelope] else []) coalescible low
      (queue.pushHigh envelope).2 := by
  rw [PriorityQueue.pushHigh]
  split
  · rw [if_neg (by simp), append_nil]
    exact holds
  · rename_i room
    rw [holds.room] at room
    refine ⟨holds.room, holds.window, ?_, ?_, holds.coalescing, holds.lowLane, holds.lowItems⟩
    · rw [if_pos rfl, ← holds.highLane]
    · simpa using Nat.succ_le_of_lt (Nat.lt_of_not_le room)

theorem Holds.pushCoalescible (envelope : Envelope ε) :
    Holds highCapacity lowCapacity key high (coalescible ++ [envelope]) low
      (queue.pushCoalescible (key envelope) envelope).2 := by
  rw [PriorityQueue.pushCoalescible]
  split
  · rename_i old
    exact ⟨holds.room, holds.window, holds.highLane, holds.bounded, holds.coalescing.replace old, holds.lowLane,
      holds.lowItems⟩
  · rename_i new
    exact ⟨holds.room, holds.window, holds.highLane, holds.bounded, holds.coalescing.push new, holds.lowLane,
      holds.lowItems⟩

theorem Holds.pushLow (envelope : Envelope ε) :
    Holds highCapacity lowCapacity key high coalescible (low ++ [envelope]) (queue.pushLow envelope).2 := by
  rw [PriorityQueue.pushLow]
  split
  · rename_i full
    refine ⟨holds.room, holds.window, holds.highLane, holds.bounded, holds.coalescing, fun positive => ?_, ?_⟩
    · rw [holds.window, holds.lowLane positive] at full
      rw [rtake_snoc_full positive full, ← holds.lowLane positive]
    · refine append_subset.mpr ⟨fun _ member => ?_, subset_append_right _ _⟩
      exact mem_append_left _ (holds.lowItems (mem_of_mem_tail member))
  · rename_i room
    refine ⟨holds.room, holds.window, holds.highLane, holds.bounded, holds.coalescing, fun positive => ?_, ?_⟩
    · rw [holds.window, holds.lowLane positive] at room
      rw [rtake_snoc_room (Nat.lt_of_not_le room), ← holds.lowLane positive]
    · refine append_subset.mpr ⟨fun _ member => ?_, subset_append_right _ _⟩
      exact mem_append_left _ (holds.lowItems member)

/-- A drain delivers the lanes one after the other. -/
theorem Holds.delivers : queue.drainReady.1 = high ++ Machine.coalesced key coalescible ++ queue.low := by
  change queue.high ++ (PriorityQueue.drainCoalesced queue.coalesced queue.coalesceOrder).1 ++ queue.low = _
  rw [drainCoalesced_values holds.coalescing.enumerates, holds.coalescing.values, holds.highLane]

theorem Holds.drain :
    Holds highCapacity lowCapacity key [] [] [] queue.drainReady.2 where
  room := holds.room
  window := holds.window
  highLane := rfl
  bounded := Nat.zero_le _
  coalescing := .ofEmpty (drainCoalesced_rest holds.coalescing.enumerates)
  lowLane _ := (rtake_nil ..).symm
  lowItems := nil_subset _

end

end Lanes

section Traces

variable {priority : ε → Priority} {name : ε → EventName} {highCapacity lowCapacity : ℕ} {t : Trace ε}
  {pushed : List (Envelope ε × PushOutcome)}

theorem arrivals_snoc (lane : Priority) (pushed : List (Envelope ε × PushOutcome)) (envelope : Envelope ε)
    (outcome : PushOutcome) : arrivals priority lane (pushed ++ [(envelope, outcome)]) =
      arrivals priority lane pushed ++ if priority envelope.event = lane then [envelope] else [] := by
  by_cases here : priority envelope.event = lane <;> simp [arrivals, inLane, here]

theorem acceptedHigh_snoc (pushed : List (Envelope ε × PushOutcome)) (envelope : Envelope ε) (outcome : PushOutcome) :
    acceptedHigh priority (pushed ++ [(envelope, outcome)]) = acceptedHigh priority pushed ++
      if priority envelope.event = .high ∧ outcome = .accepted then [envelope] else [] := by
  by_cases accepted : outcome = .accepted
  · simp [acceptedHigh, accepted, arrivals_snoc]
  · simp [acceptedHigh, accepted]

/-- The lanes of the queue hold what is left of the pushes since the last drain. -/
def Held (priority : ε → Priority) (name : ε → EventName) (highCapacity lowCapacity : ℕ) (t : Trace ε) : Prop :=
  Holds highCapacity lowCapacity (coalescingKey name) (acceptedHigh priority t.pushed)
    (arrivals priority .coalescible t.pushed) (arrivals priority .low t.pushed) t.queue

theorem step_held (held : Held priority name highCapacity lowCapacity t) (step : QueueStep ε) :
    Held priority name highCapacity lowCapacity (t.step priority name step) := by
  cases step with
  | drain => exact held.drain
  | push envelope =>
    simp only [Held, Trace.step, arrivals_snoc, acceptedHigh_snoc, PriorityQueue.push]
    cases inLane : priority envelope.event with
    | high => simpa using held.pushHigh envelope
    | coalescible => simpa [coalescingKey] using held.pushCoalescible envelope
    | low => simpa using held.pushLow envelope

theorem run_held (priority : ε → Priority) (name : ε → EventName) (highCapacity lowCapacity : ℕ)
    (steps : List (QueueStep ε)) :
    Held priority name highCapacity lowCapacity (Trace.run priority name highCapacity lowCapacity steps) := by
  exact List.foldlRecOn (motive := Held priority name highCapacity lowCapacity) steps _ Holds.new
    fun _ held step _ => step_held held step

variable {envelope : Envelope ε}

theorem lane_of_mem_arrivals {lane : Priority}
    (member : envelope ∈ arrivals priority lane pushed) : inLane priority lane envelope = true :=
  (mem_filter.mp member).2

private theorem lane_unique {lane other : Priority} (here : inLane priority lane envelope = true)
    (there : inLane priority other envelope = true) : lane = other := by
  simp only [inLane, decide_eq_true_eq] at here there
  exact here.symm.trans there

private theorem filter_other {lane : Priority} {items : List (Envelope ε)} (other : lane ≠ .high)
    (here : ∀ envelope ∈ items, inLane priority lane envelope = true) : items.filter (inLane priority .high) = [] := by
  rw [filter_eq_nil_iff]
  intro envelope member isHigh
  exact other (lane_unique (here envelope member) isHigh)

private theorem filter_lanes {high values low : List (Envelope ε)}
    (isHigh : ∀ envelope ∈ high, inLane priority .high envelope = true)
    (isCoalescible : ∀ envelope ∈ values, inLane priority .coalescible envelope = true)
    (isLow : ∀ envelope ∈ low, inLane priority .low envelope = true) :
    (high ++ values ++ low).filter (inLane priority .high) = high := by
  rw [filter_append, filter_append, filter_eq_self.mpr isHigh,
    filter_other (fun same => Priority.noConfusion same) isCoalescible,
    filter_other (fun same => Priority.noConfusion same) isLow, append_nil, append_nil]

private theorem lane_of_mem_coalesced
    (member : envelope ∈ coalesced (coalescingKey name) (arrivals priority .coalescible pushed)) :
    inLane priority .coalescible envelope = true :=
  lane_of_mem_arrivals (mem_of_newest (mem_coalesced.mp member)).1

/-- The high items of a delivery are those that were accepted. -/
theorem filter_delivery (pushed : List (Envelope ε × PushOutcome)) :
    (delivery priority name lowCapacity pushed).filter (inLane priority .high) = acceptedHigh priority pushed :=
  filter_lanes (fun _ => lane_of_mem_arrivals) (fun _ => lane_of_mem_coalesced) fun _ member =>
    lane_of_mem_arrivals (mem_of_mem_drop member)

/-- The high items of the next drain are those in the high lane. -/
theorem Held.filter_drainReady (held : Held priority name highCapacity lowCapacity t) :
    t.queue.drainReady.1.filter (inLane priority .high) = t.queue.high := by
  rw [held.delivers, held.highLane]
  exact filter_lanes (fun _ => lane_of_mem_arrivals) (fun _ => lane_of_mem_coalesced) fun _ member =>
    lane_of_mem_arrivals (held.lowItems member)

theorem acceptedHigh_append (first second : List (Envelope ε × PushOutcome)) :
    acceptedHigh priority (first ++ second) = acceptedHigh priority first ++ acceptedHigh priority second := by
  simp only [acceptedHigh, arrivals, filter_append, map_append]

private theorem acceptedHigh_drains {drains : List (Drain ε)}
    (delivered : ∀ drain ∈ drains, drain.batch = delivery priority name lowCapacity drain.pushed) :
    acceptedHigh priority (drains.map Drain.pushed).flatten =
      (drains.map Drain.batch).flatten.filter (inLane priority .high) := by
  induction drains with
  | nil => rfl
  | cons drain rest ih =>
    rw [map_cons, flatten_cons, map_cons, flatten_cons, acceptedHigh_append, filter_append,
      ih fun other member => delivered other (mem_cons_of_mem _ member), delivered drain mem_cons_self,
      filter_delivery]

/-- Every drain of a run delivers what is left of the pushes before it. -/
def DrainsDeliver (priority : ε → Priority) (name : ε → EventName) (lowCapacity : ℕ) (t : Trace ε) : Prop :=
  ∀ drain ∈ t.drains, drain.batch = delivery priority name lowCapacity drain.pushed

theorem step_drainsDeliver (positive : 0 < lowCapacity) (held : Held priority name highCapacity lowCapacity t)
    (deliver : DrainsDeliver priority name lowCapacity t) (step : QueueStep ε) :
    DrainsDeliver priority name lowCapacity (t.step priority name step) := by
  cases step with
  | push envelope => exact deliver
  | drain =>
    intro drain member
    rcases mem_concat_iff.mp member with past | rfl
    · exact deliver drain past
    · rw [held.delivers, held.lowLane positive]
      rfl

theorem run_drainsDeliver (priority : ε → Priority) (name : ε → EventName) (highCapacity : ℕ)
    (positive : 0 < lowCapacity) (steps : List (QueueStep ε)) :
    DrainsDeliver priority name lowCapacity (Trace.run priority name highCapacity lowCapacity steps) := by
  induction steps using List.reverseRecOn with
  | nil => exact nofun
  | append_singleton steps step ih =>
    rw [Trace.run, foldl_concat]
    exact step_drainsDeliver positive (run_held priority name highCapacity lowCapacity steps) ih step

end Traces

section Results

/-- The lanes of every run with room in the low lane. -/
theorem queue_lanes_hold (priority : ε → Priority) (name : ε → EventName) (highCapacity lowCapacity : ℕ)
    (positive : 0 < lowCapacity) (steps : List (QueueStep ε)) :
    LanesHold priority name highCapacity lowCapacity (Trace.run priority name highCapacity lowCapacity steps) := by
  have held := run_held priority name highCapacity lowCapacity steps
  have deliver := run_drainsDeliver priority name highCapacity positive steps
  refine ⟨held.coalescing.enumerates, ?_, deliver, held.bounded, ?_⟩
  · rw [Trace.allPushed, acceptedHigh_append, acceptedHigh_drains deliver, held.highLane]
    rfl
  · rw [held.lowLane positive]
    exact length_rtake_le _ _

/-- A full high lane, a coalesced value and a low lane that has dropped an item. -/
def busyQueue : List (QueueStep WorkItem) :=
  [.push ⟨0, .bot .connected⟩, .push ⟨0, .bot .spawned⟩, .push ⟨0, .bot (.time 1)⟩, .push ⟨0, .timerFired 1⟩,
    .push ⟨0, .timerFired 2⟩, .push ⟨0, .bot (.time 2)⟩, .drain]

theorem busy_queue_lanes_hold : 0 < 1 ∧
    LanesHold WorkItem.priority WorkItem.name 1 1 (Trace.run WorkItem.priority WorkItem.name 1 1 busyQueue) ∧
    (Trace.run WorkItem.priority WorkItem.name 1 1 busyQueue).delivered =
      [⟨0, .bot .connected⟩, ⟨0, .bot (.time 2)⟩, ⟨0, .timerFired 2⟩] :=
  ⟨by decide, queue_lanes_hold _ _ 1 1 (by decide) busyQueue, rfl⟩

end Results

section Variants

/-- The variants of the events that are coalesced. -/
inductive Variant where
  | health
  | time
  | weather
  | hud (inner : HudEvent)
deriving DecidableEq, Repr

def variant? : WorkItem → Option Variant
  | .bot (.health ..) => some .health
  | .bot (.time _) => some .time
  | .bot (.weather _) => some .weather
  | .bot (.hud inner) => some (.hud inner)
  | _ => none

def Variant.name : Variant → EventName
  | .health => .health
  | .time => .time
  | .weather => .weather
  | .hud inner => hudEventName inner

private theorem name_of_coalescible {item : WorkItem} (coalescible : item.priority = .coalescible) :
    ∃ variant, variant? item = some variant ∧ item.name = variant.name := by
  cases item with
  | bot event =>
    cases event with
    | health | time | weather | hud => exact ⟨_, rfl, rfl⟩
    | inventory inner =>
      change botEventPriority (.inventory inner) = _ at coalescible
      unfold botEventPriority at coalescible
      split at coalescible <;> simp_all
    | _ => cases coalescible
  | _ => cases coalescible

-- items of any type that carry a work item, so that equal work items can still be told apart

variable (work : ε → WorkItem)

def workTrace (highCapacity lowCapacity : ℕ) (steps : List (QueueStep ε)) : Trace ε :=
  Trace.run (priority ∘ work) (name ∘ work) highCapacity lowCapacity steps

/-- The coalescible items pushed since the last drain. -/
def coalescible (t : Trace ε) : List (Envelope ε) := arrivals (priority ∘ work) .coalescible t.pushed

def variantOf (envelope : Envelope ε) : UInt32 × Option Variant := (envelope.botId, variant? (work envelope.event))

/-- The next drain delivers the last event of every bot and variant. -/
def NewestDelivered (t : Trace ε) : Prop :=
  ∀ bot variant envelope, newest (variantOf work) (bot, some variant) (coalescible work t) = some envelope →
    envelope ∈ t.queue.drainReady.1

/-- Among the events pushed since the last drain, those of one bot with one name are of one variant. -/
def OneVariantPerName (t : Trace ε) : Prop :=
  ∀ a ∈ coalescible work t, ∀ b ∈ coalescible work t,
    coalescingKey (name ∘ work) a = coalescingKey (name ∘ work) b →
    variantOf work a = variantOf work b

variable {work} {highCapacity lowCapacity : ℕ} {steps : List (QueueStep ε)} {t : Trace ε} {envelope : Envelope ε}

private theorem key_of_variant {a b : Envelope ε} (first : a ∈ coalescible work t) (second : b ∈ coalescible work t)
    (same : variantOf work a = variantOf work b) :
    coalescingKey (name ∘ work) a = coalescingKey (name ∘ work) b := by
  have firstLane := lane_of_mem_arrivals first
  have secondLane := lane_of_mem_arrivals second
  simp only [inLane, Function.comp, decide_eq_true_eq] at firstLane secondLane
  obtain ⟨firstVariant, isFirst, firstName⟩ := name_of_coalescible firstLane
  obtain ⟨secondVariant, isSecond, secondName⟩ := name_of_coalescible secondLane
  simp only [variantOf, isFirst, isSecond, Prod.mk.injEq, Option.some.injEq] at same
  simp only [coalescingKey, Function.comp, firstName, secondName, same]

section

variable (held : Held (priority ∘ work) (name ∘ work) highCapacity lowCapacity t)

include held

/-- A coalescible event is delivered if it is the newest one with its name. -/
theorem mem_drainReady (member : envelope ∈ coalescible work t) : envelope ∈ t.queue.drainReady.1 ↔
      newest (coalescingKey (name ∘ work)) (coalescingKey (name ∘ work) envelope)
        (coalescible work t) = some envelope := by
  have here := lane_of_mem_arrivals member
  rw [held.delivers, mem_append, mem_append, mem_coalesced]
  constructor
  · rintro ((high | delivered) | low)
    · cases lane_unique here (lane_of_mem_arrivals high)
    · exact delivered
    · cases lane_unique here (lane_of_mem_arrivals (held.lowItems low))
  · exact fun delivered => .inl (.inr delivered)

private theorem newest_of_delivered (delivered : NewestDelivered work t) {a last : Envelope ε}
    (isLast : newest (variantOf work) (variantOf work a) (coalescible work t) = some last) :
    newest (coalescingKey (name ∘ work)) (coalescingKey (name ∘ work) last)
      (coalescible work t) = some last := by
  obtain ⟨member, sameVariant⟩ := mem_of_newest isLast
  have here := lane_of_mem_arrivals member
  simp only [inLane, Function.comp, decide_eq_true_eq] at here
  obtain ⟨variant, isVariant, -⟩ := name_of_coalescible here
  refine (mem_drainReady held member).mp (delivered last.botId variant last ?_)
  rw [← isLast, ← sameVariant, variantOf, isVariant]

end

/-- Every variant gets its last event through exactly if no two variants meet under one name. -/
theorem newest_delivered_iff (work : ε → WorkItem) (highCapacity lowCapacity : ℕ) (steps : List (QueueStep ε)) :
    NewestDelivered work (workTrace work highCapacity lowCapacity steps) ↔
      OneVariantPerName work (workTrace work highCapacity lowCapacity steps) := by
  have held := run_held (priority ∘ work) (name ∘ work) highCapacity lowCapacity steps
  change Held _ _ _ _ (workTrace work highCapacity lowCapacity steps) at held
  constructor
  · intro delivered a first b second sameKey
    -- the last events of both variants are delivered, and they are the newest of one key
    obtain ⟨lastA, isLastA⟩ := exists_newest (variantOf work) first
    obtain ⟨lastB, isLastB⟩ := exists_newest (variantOf work) second
    have newestA := newest_of_delivered held delivered isLastA
    have newestB := newest_of_delivered held delivered isLastB
    obtain ⟨memberA, variantA⟩ := mem_of_newest isLastA
    obtain ⟨memberB, variantB⟩ := mem_of_newest isLastB
    rw [key_of_variant memberA first variantA, sameKey, ← key_of_variant memberB second variantB, newestB] at newestA
    cases newestA
    exact variantA.symm.trans variantB
  · intro oneVariant bot variant envelope isLast
    obtain ⟨member, isVariant⟩ := mem_of_newest isLast
    rw [mem_drainReady held member, ← isLast, newest, newest, ← isVariant]
    congr 1
    refine filter_congr fun other arrived => decide_eq_decide.mpr ?_
    exact ⟨oneVariant other arrived envelope member, key_of_variant arrived member⟩

/-- Vitals and experience both have the name `hud`. -/
def hudChanges : List (QueueStep WorkItem) :=
  [.push ⟨0, .bot (.hud .vitalsChanged)⟩, .push ⟨0, .bot (.hud .experienceChanged)⟩]

/-- The change of the vitals is never delivered. -/
theorem vitals_are_replaced : ¬NewestDelivered id (workTrace id 1024 4096 hudChanges) := by
  intro delivered
  have member := delivered 0 (.hud .vitalsChanged) ⟨0, .bot (.hud .vitalsChanged)⟩ rfl
  exact absurd (mem_map_of_mem (f := variantOf id) member) (by decide)

end Variants

end MineRider.Soundness.Lanes
