import MineRider.Soundness.PlayFrames
import MineRider.Soundness.Transactions

/-! # Clicks and reconfigurations

A click that is announced as queued stays pending in the inventory until it is finished, whatever packets, commands
and ticks come. A reconfiguration puts a fresh inventory in its place without finishing what is pending. If nothing is
pending when one starts, no click is lost.
-/

namespace MineRider.Soundness.Reconfiguration

open List Model.Minecraft PlayLoop Machine PlayFrames
open InventoryMoves (pendingIds Move step_moves)
open Transactions (queuedIds finishedIds finishedId? queuedId? changes_accounts)

variable {K W G : Type}

section Statement

def inventoryEvent? : BotEvent → Option InventoryEvent
  | .inventory event => some event
  | _ => none

/-- What was emitted about the inventory. -/
def inventoryEvents (s : PlayLoop K W G) : List InventoryEvent := s.events.filterMap inventoryEvent?

/-- The end of a transaction. -/
def concludes (id : UInt64) : InventoryEvent → Bool
  | .transactionFinished other _ | .transactionRejected other _ => other = id
  | _ => false

/-- Every transaction announced as queued is concluded afterwards, unless it is pending. -/
def Accounted (events : List InventoryEvent) (pending : List UInt64) : Prop :=
  ∀ before id after, events = before ++ .transactionQueued id :: after →
    (∃ event ∈ after, concludes id event = true) ∨ id ∈ pending

/-- No transaction is pending when a reconfiguration starts. -/
def Drained (s : PlayLoop K W G) : LoopInput K G → Prop
  | .startConfiguration => s.phase = .playing → s.state.inventory.pendingTransactions = []
  | _ => True

end Statement

section Calls

variable {events more : List InventoryEvent} {pending next : List UInt64}

theorem Accounted.append (accounted : Accounted events pending)
    (kept : ∀ id ∈ pending, (∃ event ∈ more, concludes id event = true) ∨ id ∈ next) (added : Accounted more next) :
    Accounted (events ++ more) next := by
  intro before id after split
  rcases append_eq_append_iff.mp split with ⟨rest, rfl, isMore⟩ | ⟨rest, isEvents, isMore⟩
  · exact added rest id after isMore
  · cases rest with
    | nil =>
      exact added [] id after isMore.symm
    | cons first rest =>
      cases isMore
      rcases accounted before id rest isEvents with ⟨event, member, concluded⟩ | waiting
      · exact .inl ⟨event, mem_append_left _ member, concluded⟩
      · rcases kept id waiting with ⟨event, member, concluded⟩ | still
        · exact .inl ⟨event, mem_append_right _ member, concluded⟩
        · exact .inr still

/-- Where nothing is queued there is nothing to account for. -/
theorem accounted_of_unqueued (unqueued : queuedIds events = []) : Accounted events pending := by
  rintro before id after rfl
  rw [queuedIds, filterMap_append] at unqueued
  cases (append_eq_nil_iff.mp unqueued).2

private theorem concludes_of_finished {id : UInt64} (finished : id ∈ finishedIds events) :
    ∃ event ∈ events, concludes id event = true := by
  obtain ⟨event, member, isFinished⟩ := mem_filterMap.mp finished
  refine ⟨event, member, ?_⟩
  cases event with
  | transactionFinished other outcome =>
    cases isFinished
    exact decide_eq_true rfl
  | _ => cases isFinished

private theorem move_accounted {s next : InventoryState} {call : InventoryStep}
    (accounted : Accounted events (pendingIds s))
    (move : Move s call more next) : Accounted (events ++ more) (pendingIds next) := by
  cases move with
  | changes changes =>
    have accounts := changes_accounts changes
    refine accounted.append (fun id waiting => ?_) (accounted_of_unqueued accounts.queued)
    rcases mem_append.mp (accounts.finished.mem_iff.mp waiting) with finished | still
    · exact .inl (concludes_of_finished finished)
    · exact .inr still
  | reject id error => exact accounted.append (fun _ waiting => .inr waiting) (accounted_of_unqueued rfl)
  | @queue request tick creativeMode drag room fresh unknown known =>
    have same : pendingIds { s with drag, pendingTransactions := s.pendingTransactions ++ [⟨request, .queued, tick⟩] } =
        pendingIds s ++ [request.transactionId] := by
      rw [pendingIds, map_append]
      rfl
    rw [same]
    refine accounted.append (fun _ waiting => .inr (mem_append_left _ waiting)) ?_
    intro before id after split
    cases before with
    | nil =>
      cases split
      exact .inr (mem_append_right _ (mem_singleton.mpr rfl))
    | cons first rest =>
      have short := congrArg List.length split
      simp only [length_append, length_cons, length_nil] at short
      omega

end Calls

section Handlers

/-- The books of a session. -/
def Books (s : PlayLoop K W G) : Prop := Accounted (inventoryEvents s) (pendingIds s.state.inventory)

private theorem inventoryEvents_other {s : PlayLoop K W G} {events : List BotEvent}
    (other : ∀ event ∈ events, ofInventory event = false) :
    inventoryEvents { s with events := s.events ++ events } = inventoryEvents s := by
  have none : events.filterMap inventoryEvent? = [] := by
    refine filterMap_eq_nil_iff.mpr fun event member => ?_
    have isOther := other event member
    cases event with
    | inventory => cases isOther
    | _ => rfl
  rw [inventoryEvents, filterMap_append, none, append_nil]
  rfl

private theorem inventoryEvents_call (call : InventoryStep) (s : PlayLoop K W G) :
    inventoryEvents (callInventory call s).2 = inventoryEvents s ++ (s.state.inventory.step call).1 := by
  change (s.events ++ (s.state.inventory.step call).1.map BotEvent.inventory).filterMap inventoryEvent? = _
  rw [filterMap_append, filterMap_map]
  exact congrArg (_ ++ ·) filterMap_some

private theorem callInventory_books (call : InventoryStep) (s : PlayLoop K W G) (books : Books s) :
    Books (callInventory call s).2 := by
  rw [Books, inventoryEvents_call]
  exact move_accounted books (step_moves s.state.inventory call)

private theorem closed_books : Closed (Handler.Keep (Books : PlayLoop K W G → Prop)) where
  sends _ _ _ := id
  emits s events other books := by
    rw [Books, inventoryEvents_other other]
    exact books
  aside _ _ _ _ _ _ := id
  wire _ _ := id
  body _ _ _ _ _ := id
  modes _ _ _ := id
  calls := callInventory_books
  displays _ _ := id

private theorem closed_phase : Closed (Handler.Agree (PlayLoop.phase : PlayLoop K W G → LoopPhase)) where
  sends _ _ _ := rfl
  emits _ _ _ := rfl
  aside _ _ _ _ _ _ := rfl
  wire _ _ := rfl
  body _ _ _ _ _ := rfl
  modes _ _ _ := rfl
  calls _ _ := rfl
  displays _ _ := rfl

/-- A handler that does not change the phase does not start a configuration. -/
theorem handle_phase {m : PlayM K W G Unit} {s : PlayLoop K W G} (left : Handler.Leaves PlayLoop.phase m)
    (playing : s.phase = .playing) : (handle m s).phase ≠ .configuring := by
  intro configuring
  rcases handle_cases m s with ⟨error, ended⟩ | ran
  · rw [configuring] at ended
    cases ended
  · have same := left s
    rw [ran] at same
    have impossible := configuring.symm.trans (same.trans playing)
    cases impossible

end Handlers

section Steps

/-- The books are in order, and empty while a configuration is under way. -/
structure Settled (s : PlayLoop K W G) : Prop where
  books : Books s
  empty : s.phase = .configuring → pendingIds s.state.inventory = []

variable [Field K] [LinearOrder K] [FloorRing K] {around : Surroundings K W G}

private theorem steps_settled {s next : PlayLoop K W G} {input : LoopInput K G} (steps : Steps around s input next)
    (settled : Settled s) (drained : Drained s input) : Settled next := by
  have handled {m : PlayM K W G Unit} (kept : Handler.Within (Handler.Keep Books) m) : Books (handle m s) :=
    handle_within (fun _ _ => id) kept s settled.books
  have goesOn {m : PlayM K W G Unit} (playing : s.phase = .playing) (kept : Handler.Within (Handler.Keep Books) m)
      (left : Handler.Leaves PlayLoop.phase m) : Settled (handle m s) :=
    ⟨handled kept, fun configuring => absurd configuring (handle_phase left playing)⟩
  cases steps with
  | packet p playing =>
    exact goesOn playing (closed_books.handleClientbound p) (closed_phase.handleClientbound p)
  | startConfiguration playing =>
    have left : Handler.Leaves (fun s => s.state.inventory) (acknowledgeConfiguration around) :=
      .bind (send_within fun _ => rfl) fun _ => .modify fun _ => rfl
    have same : (handle (acknowledgeConfiguration around) s).state.inventory = s.state.inventory :=
      handle_within (fun _ _ => rfl) left s
    refine ⟨handled (closed_books.acknowledgeConfiguration fun _ _ => id), fun _ => ?_⟩
    rw [same, pendingIds, drained playing]
    rfl
  | command command entropy playing =>
    exact goesOn playing (closed_books.handleCommand command entropy) (closed_phase.handleCommand command entropy)
  | tick playing =>
    have kept : Handler.Within (Handler.Keep Books) (tick around) := closed_books.tick fun _ => closed_books.calls _
    exact goesOn playing kept (closed_phase.tick fun _ => closed_phase.calls _)
  | configured _ configuring =>
    refine ⟨?_, fun playing => ?_⟩
    · have books := settled.books
      rw [Books, settled.empty configuring] at books
      exact books
    · cases playing
  | ends =>
    refine ⟨settled.books, fun configuring => ?_⟩
    cases configuring
  | ignores => exact settled

end Steps

section Results

variable [Field K] [LinearOrder K] [FloorRing K]

/-- A queued click is concluded or still pending, and concluded before a reconfiguration discards the inventory. -/
theorem queued_clicks_are_concluded (around : Surroundings K W G) (dimensionTypes : List DimensionType) (room : ℕ)
    (inputs : List (LoopInput K G)) (drained : Along (step around) Drained (.new dimensionTypes room) inputs) :
    Accounted (inventoryEvents (run around dimensionTypes room inputs))
      (pendingIds (run around dimensionTypes room inputs).state.inventory) ∧
    ((run around dimensionTypes room inputs).phase = .configuring →
      Accounted (inventoryEvents (run around dimensionTypes room inputs)) []) := by
  have initially : Settled (.new dimensionTypes room : PlayLoop K W G) :=
    ⟨accounted_of_unqueued rfl, fun _ => rfl⟩
  have kept (s : PlayLoop K W G) (input : LoopInput K G) (settled : Settled s) (drained : Drained s input) :
      Settled (s.step around input) :=
    steps_settled (step_steps around s input) settled drained
  obtain ⟨books, empty⟩ : Settled (run around dimensionTypes room inputs) := drained.invariant kept initially
  refine ⟨books, fun configuring => ?_⟩
  rw [Books, empty configuring] at books
  exact books

def clicks : LoopInput ℚ Unit := .command (.inventoryClick ⟨7, 1, 0, 0, .pickup none .left⟩) ()
def refreshes : LoopInput ℚ Unit := .packet (.inventory (.windowItems ⟨0, 1, [], emptySlot⟩))

/-- The server corrects the window before it starts the reconfiguration. -/
theorem corrected_click_is_concluded :
    Accounted (inventoryEvents (run openPlain overworld 9 [clicks, refreshes, .startConfiguration])) [] := by
  refine (queued_clicks_are_concluded openPlain overworld 9 [clicks, refreshes, .startConfiguration] ?_).2 ?_
  · refine ⟨trivial, trivial, fun _ => ?_, trivial⟩
    decide +kernel
  · decide +kernel

/-- A click that waits for its confirmation is lost. -/
theorem waiting_click_is_lost :
    inventoryEvents (run openPlain overworld 9 [clicks, .startConfiguration, .configured overworld]) =
      [.transactionQueued 7, .transactionSent 7] ∧
    (run openPlain overworld 9 [clicks, .startConfiguration, .configured overworld]).phase = .playing ∧
    ¬Accounted (inventoryEvents (run openPlain overworld 9 [clicks, .startConfiguration, .configured overworld]))
      (pendingIds
        (run openPlain overworld 9 [clicks, .startConfiguration, .configured overworld]).state.inventory) := by
  have emitted : inventoryEvents (run openPlain overworld 9 [clicks, .startConfiguration, .configured overworld]) =
      [.transactionQueued 7, .transactionSent 7] := by decide +kernel
  refine ⟨emitted, by decide +kernel, fun accounted => ?_⟩
  rcases accounted [] 7 [.transactionSent 7] emitted with ⟨event, member, concluded⟩ | waiting
  · rw [mem_singleton.mp member] at concluded
    cases concluded
  · exact absurd waiting (by decide +kernel)

end Results

section Simulation

/-- The calls since the last configuration have led to the inventory, and their events were emitted last. -/
def Called (s : PlayLoop K W G) : Prop :=
  ∃ earlier calls, inventoryEvents s = earlier ++ (InventoryState.run calls).1 ∧
    s.state.inventory = (InventoryState.run calls).2

private theorem closed_called : Closed (Handler.Keep (Called : PlayLoop K W G → Prop)) where
  sends _ _ _ := id
  emits s events other called := by rwa [Called, inventoryEvents_other other]
  aside _ _ _ _ _ _ := id
  wire _ _ := id
  body _ _ _ _ _ := id
  modes _ _ _ := id
  calls call s := by
    rintro ⟨earlier, calls, events, same⟩
    refine ⟨earlier, calls ++ [call], ?_, ?_⟩
    all_goals rw [InventoryMoves.run_concat, ← same]
    · rw [inventoryEvents_call, events, append_assoc]
    · rfl
  displays _ _ := id

variable [Field K] [LinearOrder K] [FloorRing K]

/-- A session uses its inventory by calls only, and emits what they report. -/
theorem sessions_call_inventory (around : Surroundings K W G) (dimensionTypes : List DimensionType) (room : ℕ)
    (inputs : List (LoopInput K G)) : Called (run around dimensionTypes room inputs) := by
  refine foldlRecOn (motive := Called) inputs (step around) ⟨[], [], rfl, rfl⟩ fun s called input _ => ?_
  have handled {m : PlayM K W G Unit} (kept : Handler.Within (Handler.Keep Called) m) : Called (handle m s) :=
    handle_within (fun _ _ => id) kept s called
  have steps := step_steps around s input
  generalize s.step around input = next at steps
  cases steps with
  | packet p => exact handled (closed_called.handleClientbound p)
  | startConfiguration => exact handled (closed_called.acknowledgeConfiguration fun _ _ => id)
  | command command entropy => exact handled (closed_called.handleCommand command entropy)
  | tick => exact handled (closed_called.tick fun _ => closed_called.calls _)
  | configured => exact ⟨inventoryEvents s, [], (append_nil _).symm, rfl⟩
  | ends | ignores => exact called

end Simulation

end MineRider.Soundness.Reconfiguration
