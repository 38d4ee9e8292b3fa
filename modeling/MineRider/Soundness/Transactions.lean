import MineRider.Machine.Run
import MineRider.Soundness.InventoryBounds
import MineRider.Soundness.PlayFrames

/-! # The life of a transaction

With distinct ids, a transaction that is queued is finished once or still pending, however many others are
finished with it, and none outlives its timeout.

With repeated ids that is not so. The play loop answers a click that `prepare_click` refuses by recording the
rejection under the id of the click. If the id is taken, the rejection is recorded for a transaction that is still
pending, or in place of the outcome it had. Where a click's id is neither pending nor recorded, pending and
recorded ids stay apart, and an outcome stays what it is for as long as it is kept.
-/

namespace MineRider.Soundness.Transactions

open AList List Model.Minecraft InventoryState InventoryMoves InventoryBounds Machine PlayFrames
open Handler (Within)

section Conservation

def queuedId? : InventoryEvent → Option UInt64
  | .transactionQueued id => some id
  | _ => none

def finishedId? : InventoryEvent → Option UInt64
  | .transactionFinished id _ => some id
  | _ => none

def queuedIds (events : List InventoryEvent) : List UInt64 := events.filterMap queuedId?

def finishedIds (events : List InventoryEvent) : List UInt64 := events.filterMap finishedId?

def clickId? : InventoryStep → Option UInt64
  | .prepareClick request _ _ => some request.transactionId
  | _ => none

/-- Every transaction that is finished was queued before. -/
def Ordered (events : List InventoryEvent) : Prop :=
  ∀ before id outcome after, events = before ++ .transactionFinished id outcome :: after → id ∈ queuedIds before

/-- What the events of an inventory say about its pending transactions. -/
structure Conserved (events : List InventoryEvent) (s : InventoryState) : Prop where
  balance : ((queuedIds events).length : ℤ) - (finishedIds events).length = s.pendingTransactions.length
  once : (finishedIds events).Nodup
  ordered : Ordered events

/-- No pending transaction has reached its timeout. -/
def NoneExpired (tick : ℕ) (s : InventoryState) : Prop :=
  ∀ transaction ∈ s.pendingTransactions, ¬((tick : ℤ) - transaction.queuedTick ≥ transactionTimeoutTicks)

variable {reach : Reach} {s middle next : InventoryState} {events more : List InventoryEvent}

/-- Changes take the pending transactions that they finish, and queue none. -/
structure Accounts (s : InventoryState) (events : List InventoryEvent) (next : InventoryState) : Prop where
  finished : (pendingIds s).Perm (finishedIds events ++ pendingIds next)
  queued : queuedIds events = []

theorem Accounts.trans (first : Accounts s events middle) (second : Accounts middle more next) :
    Accounts s (events ++ more) next where
  finished := by
    rw [finishedIds, filterMap_append, append_assoc]
    exact first.finished.trans (second.finished.append_left _)
  queued := by
    rw [queuedIds, filterMap_append]
    exact append_eq_nil_iff.mpr ⟨first.queued, second.queued⟩

private theorem change_accounts (change : Change reach s events next) : Accounts s events next := by
  cases change with
  | edit edit =>
    obtain ⟨quiet, pending, -⟩ := edit.transactions
    have silent : finishedIds events = [] ∧ queuedIds events = [] := by
      rw [finishedIds, queuedIds, filterMap_eq_nil_iff, filterMap_eq_nil_iff]
      constructor <;> intro event member <;> cases event <;> first | rfl | cases quiet _ member
    refine ⟨?_, silent.2⟩
    rw [silent.1, pendingIds, pendingIds, pending]
    exact .refl _
  | send id =>
    refine ⟨?_, rfl⟩
    rw [pendingIds_eq, pendingIds_eq, requests_send]
    exact .refl _
  | @finish id outcome pending =>
    refine ⟨?_, rfl⟩
    obtain ⟨transaction, member, same⟩ := any_eq_true.mp pending
    obtain ⟨found, before, after, -, isId, split, erased⟩ := exists_of_eraseP (p := (·.id == id)) member same
    change (s.pendingTransactions.map (·.id)).Perm (_ :: (s.pendingTransactions.eraseP _).map (·.id))
    rw [erased, split, map_append, map_append, map_cons, beq_iff_eq.mp isId]
    exact perm_middle

theorem changes_accounts (changes : Changes reach s events next) : Accounts s events next := by
  induction changes with
  | none s => exact ⟨.refl _, rfl⟩
  | cons change rest ih => exact (change_accounts change).trans ih

private theorem mem_finishedIds {id : UInt64} (outcome : InventoryOutcome)
    (member : .transactionFinished id outcome ∈ events) :
    id ∈ finishedIds events := mem_filterMap.mpr ⟨_, member, rfl⟩

theorem Ordered.append (ordered : Ordered events) (known : finishedIds more ⊆ queuedIds events) :
    Ordered (events ++ more) := by
  intro before id outcome after split
  rcases append_eq_append_iff.mp split with ⟨rest, rfl, isMore⟩ | ⟨rest, isEvents, isMore⟩
  · -- among the new events
    rw [queuedIds, filterMap_append]
    refine mem_append_left _ (known (mem_finishedIds outcome ?_))
    rw [isMore]
    exact mem_append_right _ mem_cons_self
  · cases rest with
    | nil =>
      rw [append_nil] at isEvents
      rw [nil_append] at isMore
      rw [← isEvents]
      refine known (mem_finishedIds outcome ?_)
      rw [← isMore]
      exact mem_cons_self
    | cons first rest =>
      cases isMore
      exact ordered before id outcome rest isEvents

/-- The books of a run. -/
structure Kept (calls : List InventoryStep) (events : List InventoryEvent) (s : InventoryState) : Prop where
  books : (queuedIds events).Perm (finishedIds events ++ pendingIds s)
  ordered : Ordered events
  clicked : (queuedIds events).Sublist (calls.filterMap clickId?)

private theorem move_kept {calls : List InventoryStep} {call : InventoryStep} (kept : Kept calls events s)
    (move : Move s call more next) : Kept (calls ++ [call]) (events ++ more) next := by
  have pending : pendingIds s ⊆ queuedIds events := fun id member =>
    kept.books.mem_iff.mpr (mem_append_right _ member)
  have clicked : (queuedIds events).Sublist ((calls ++ [call]).filterMap clickId?) := by
    rw [filterMap_append]
    exact kept.clicked.trans (sublist_append_left _ _)
  cases move with
  | changes changes =>
    have accounts := changes_accounts changes
    refine ⟨?_, kept.ordered.append fun id member => ?_, ?_⟩
    · rw [queuedIds, finishedIds, filterMap_append, filterMap_append]
      change (queuedIds events ++ queuedIds more).Perm (finishedIds events ++ finishedIds more ++ pendingIds next)
      rw [accounts.queued, append_nil, append_assoc]
      exact kept.books.trans (accounts.finished.append_left _)
    · exact pending (accounts.finished.mem_iff.mpr (mem_append_left _ member))
    · rw [queuedIds, filterMap_append]
      change (queuedIds events ++ queuedIds more).Sublist _
      rwa [accounts.queued, append_nil]
  | reject id error =>
    refine ⟨?_, kept.ordered.append nofun, ?_⟩
    · rw [queuedIds, finishedIds, filterMap_append, filterMap_append]
      change (queuedIds events ++ []).Perm (finishedIds events ++ [] ++ pendingIds s)
      rw [append_nil, append_nil]
      exact kept.books
    · rw [queuedIds, filterMap_append]
      change (queuedIds events ++ []).Sublist _
      rwa [append_nil]
  | @queue request tick creativeMode drag room fresh unknown known =>
    refine ⟨?_, kept.ordered.append nofun, ?_⟩
    · rw [queuedIds, finishedIds, filterMap_append, filterMap_append, pendingIds, map_append]
      change (queuedIds events ++ [_]).Perm (finishedIds events ++ [] ++ (pendingIds s ++ [_]))
      rw [append_nil, ← append_assoc]
      exact kept.books.append_right _
    · rw [queuedIds, filterMap_append, filterMap_append]
      exact kept.clicked.append (List.Sublist.refl _)

theorem run_kept (calls : List InventoryStep) :
    Kept calls (run calls).1 (run calls).2 := by
  induction calls using List.reverseRecOn with
  | nil => exact ⟨.refl _, by simp [Ordered, run], .refl _⟩
  | append_singleton calls call ih =>
    rw [run_concat]
    exact move_kept ih (step_moves _ call)

private theorem expire_noneExpired (distinct : (pendingIds s).Nodup) (tick : ℕ) :
    NoneExpired tick (s.expireTransactions tick).2 := by
  intro transaction member expired
  rw [expireTransactions, finishWhere_pending distinct] at member
  have young := (mem_filter.mp member).2
  simp only [ge_iff_le, Bool.not_eq_true', decide_eq_false_iff_not, not_le] at young
  omega

end Conservation

section ConservationResults

/-- Queued transactions are finished once or pending, and do not outlive their timeout. -/
theorem transactions_are_conserved (calls : List InventoryStep) (distinct : (calls.filterMap clickId?).Nodup) :
    Conserved (InventoryState.run calls).1 (InventoryState.run calls).2 ∧
      ∀ tick, NoneExpired tick ((InventoryState.run calls).2.step (.expireTransactions tick)).2 := by
  have kept := run_kept calls
  have all := kept.books.nodup_iff.mp (distinct.sublist kept.clicked)
  refine ⟨⟨?_, (nodup_append.mp all).1, kept.ordered⟩, fun tick => ?_⟩
  · have lengths := kept.books.length_eq
    rw [length_append, pendingIds, length_map] at lengths
    omega
  · exact expire_noneExpired (inventory_stays_bounded calls).1.distinct tick

/-- Two clicks on the player's window; a snapshot corrects both. -/
def correctedClicks : List InventoryStep :=
  [.prepareClick ⟨1, 1, 0, 0, .pickup none .left⟩ 0 false, .prepareClick ⟨2, 1, 0, 0, .pickup none .left⟩ 0 false,
    .markSent 1, .packet (.windowItems ⟨0, 1, [], emptySlot⟩), .prepareClick ⟨3, 1, 0, 1, .pickup none .left⟩ 5 false]

theorem corrected_clicks_are_conserved : (correctedClicks.filterMap clickId?).Nodup ∧
    queuedIds (InventoryState.run correctedClicks).1 = [1, 2, 3] ∧
    finishedIds (InventoryState.run correctedClicks).1 = [1, 2] ∧
    Conserved (InventoryState.run correctedClicks).1 (InventoryState.run correctedClicks).2 :=
  ⟨by decide, by decide, by decide, (transactions_are_conserved correctedClicks (by decide)).1⟩

end ConservationResults

section Finality

/-- No id is both pending and recorded. -/
def Exclusive (s : InventoryState) : Prop := ∀ id ∈ pendingIds s, id ∉ s.completedTransactions

variable {reach : Reach} {s middle next : InventoryState} {events : List InventoryEvent} {id other : UInt64}

/-- A recorded outcome is still there, or was dropped. -/
def KeptOrDropped (s next : InventoryState) (id : UInt64) : Prop :=
  next.completedTransactions.lookup id = s.completedTransactions.lookup id ∨
    next.completedTransactions.lookup id = none

/-- Recording one outcome does not change another. -/
theorem complete_other (s : InventoryState) (different : other ≠ id) (outcome : InventoryOutcome) :
    KeptOrDropped s (s.complete id outcome) other := by
  rw [KeptOrDropped, complete, lookup_insert_ne different, makeRoom]
  split
  · split
    · rename_i oldest _
      by_cases dropped : other = oldest
      · right
        rw [dropped, lookup_erase]
      · left
        exact lookup_erase_ne dropped
    · exact .inl rfl
  · exact .inl rfl

theorem KeptOrDropped.not_mem (kept : KeptOrDropped s next id) (absent : id ∉ s.completedTransactions) :
    id ∉ next.completedTransactions := by
  rw [← lookup_eq_none] at absent ⊢
  rcases kept with same | dropped
  · rw [same, absent]
  · exact dropped

/-- Recording the outcome of an id that is not pending. -/
theorem Exclusive.complete (exclusive : Exclusive s) (absent : id ∉ pendingIds s) (outcome : InventoryOutcome) :
    Exclusive (s.complete id outcome) := by
  intro other pending
  refine (complete_other s ?_ outcome).not_mem (exclusive other pending)
  rintro rfl
  exact absent pending

/-- Changes neither make an id pending nor touch the outcome of one that is not. -/
structure Keeps (s next : InventoryState) : Prop where
  pending : pendingIds next ⊆ pendingIds s
  outcomes : ∀ id, id ∉ pendingIds s → KeptOrDropped s next id

private theorem change_keeps (change : Change reach s events next) : Keeps s next := by
  cases change with
  | edit edit =>
    obtain ⟨-, pending, completed⟩ := edit.transactions
    refine ⟨?_, fun id _ => .inl (by rw [completed])⟩
    rw [pendingIds, pending]
    exact List.Subset.refl _
  | send id =>
    refine ⟨?_, fun id _ => .inl rfl⟩
    rw [pendingIds_eq, requests_send, ← pendingIds_eq]
    exact List.Subset.refl _
  | @finish id outcome pending =>
    refine ⟨(eraseP_sublist.map _).subset, fun other absent => complete_other _ ?_ outcome⟩
    rintro rfl
    obtain ⟨transaction, member, same⟩ := any_eq_true.mp pending
    exact absent (mem_map.mpr ⟨transaction, member, beq_iff_eq.mp same⟩)

theorem Keeps.refl (s : InventoryState) : Keeps s s := ⟨List.Subset.refl _, fun _ _ => .inl rfl⟩

theorem Keeps.trans (first : Keeps s middle) (second : Keeps middle next) : Keeps s next := by
  refine ⟨List.Subset.trans second.pending first.pending, fun id absent => ?_⟩
  rcases second.outcomes id fun pending => absent (first.pending pending) with same | dropped
  · rw [KeptOrDropped, same]
    exact first.outcomes id absent
  · exact .inr dropped

private theorem changes_keep (changes : Changes reach s events next) : Keeps s next := by
  induction changes with
  | none s => exact .refl s
  | cons change rest ih => exact (change_keeps change).trans ih

private theorem change_exclusive (counted : Counted s) (exclusive : Exclusive s) (change : Change reach s events next) :
    Exclusive next := by
  cases change with
  | edit edit =>
    obtain ⟨-, pending, completed⟩ := edit.transactions
    rw [Exclusive, pendingIds, pending, completed]
    exact exclusive
  | send id =>
    rw [Exclusive, pendingIds_eq, requests_send, ← pendingIds_eq]
    exact exclusive
  | @finish id outcome _ =>
    have erased := eraseP_eq_filter counted.distinct id
    have left : Exclusive { s with pendingTransactions := s.pendingTransactions.eraseP (·.id == id) } :=
      fun other pending => exclusive other ((eraseP_sublist.map _).subset pending)
    refine left.complete ?_ outcome
    rw [pendingIds, erased]
    intro pending
    obtain ⟨transaction, member, same⟩ := mem_map.mp pending
    exact bne_iff_ne.mp (mem_filter.mp member).2 same

/-- What holds of the inventory of a session whose ids are fresh. -/
structure Settled (s : InventoryState) : Prop where
  counted : Counted s
  exclusive : Exclusive s

theorem Settled.new : Settled .new := ⟨.new, by simp [Exclusive, pendingIds, InventoryState.new]⟩

/-- One step keeps the inventory settled and its outcomes unchanged. -/
structure Settles (s next : InventoryState) : Prop where
  settled : Settled next
  outcomes : ∀ id, id ∈ s.completedTransactions → KeptOrDropped s next id

theorem Settled.keep (settled : Settled s) (after : Settled next) (keeps : Keeps s next) : Settles s next :=
  ⟨after, fun id recorded => keeps.outcomes id fun pending => settled.exclusive id pending recorded⟩

theorem Settled.changes (settled : Settled s) (changes : Changes reach s events next) : Settled next :=
  changes.invariant (fun _ _ _ before change =>
    ⟨change_counted before.counted change, change_exclusive before.counted before.exclusive change⟩) settled

theorem Settled.queue (settled : Settled s) {request : InventoryClickRequest} (tick : ℕ) (drag : Option DragState)
    (room : s.pendingTransactions.length < maxPendingTransactions) (fresh : request.transactionId ∉ pendingIds s)
    (unknown : request.transactionId ∉ s.completedTransactions) :
    Settled { s with drag, pendingTransactions := s.pendingTransactions ++ [⟨request, .queued, tick⟩] } where
  counted := queue_counted settled.counted tick drag room fresh
  exclusive id pending := by
    rw [pendingIds, map_append] at pending
    exact forall_mem_concat.mpr ⟨settled.exclusive, unknown⟩ id pending

theorem Settled.reject (settled : Settled s) (fresh : id ∉ pendingIds s) (unknown : id ∉ s.completedTransactions)
    (outcome : InventoryOutcome) : Settles s (s.complete id outcome) where
  settled := ⟨reject_counted settled.counted id outcome, settled.exclusive.complete fresh outcome⟩
  outcomes other recorded := by
    refine complete_other s ?_ outcome
    rintro rfl
    exact unknown recorded

end Finality

section Sessions

variable {K W G : Type}

/-- The id of a click is neither pending nor recorded. -/
def FreshId (s : PlayLoop K W G) : LoopInput K G → Prop
  | .command (.inventoryClick request) _ => s.phase = .playing →
    request.transactionId ∉ pendingIds s.state.inventory ∧
      request.transactionId ∉ s.state.inventory.completedTransactions
  | _ => True

/-- What a handler other than a click's does to a settled inventory. -/
def Calm (s next : PlayLoop K W G) : Prop :=
  Settled s.state.inventory → Settled next.state.inventory ∧ Keeps s.state.inventory next.state.inventory

theorem Calm.same {s next : PlayLoop K W G} (same : next.state.inventory = s.state.inventory) : Calm s next := by
  rw [Calm, same]
  exact fun settled => ⟨settled, .refl _⟩

instance : IsPreorder (PlayLoop K W G) Calm where
  refl _ := .same rfl
  trans _ _ _ first second settled :=
    ⟨(second (first settled).1).1, (first settled).2.trans (second (first settled).1).2⟩

private theorem stored_calm : Stored (Calm : PlayLoop K W G → PlayLoop K W G → Prop) where
  sends _ _ _ := .same rfl
  emits _ _ _ := .same rfl
  aside _ _ _ _ _ _ := .same rfl
  wire _ _ := .same rfl
  body _ _ _ _ _ := .same rfl
  modes _ _ _ := .same rfl

private theorem callInventory_calm {reach : Reach} {call : InventoryStep}
    (changes : ∀ s : InventoryState, Changes reach s (s.step call).1 (s.step call).2) :
    Within Calm (PlayLoop.callInventory call : PlayLoop.PlayM K W G Unit) :=
  fun _ settled => ⟨settled.changes (changes _), changes_keep (changes _)⟩

/-- A click with a fresh id. It is answered at once, or queued and, if the connection takes it, marked as sent. -/
theorem sendInventoryClick_settles {s : PlayLoop K W G} (settled : Settled s.state.inventory)
    {request : InventoryClickRequest} (fresh : request.transactionId ∉ pendingIds s.state.inventory)
    (unknown : request.transactionId ∉ s.state.inventory.completedTransactions) (around : Surroundings K W G) :
    Settles s.state.inventory (PlayLoop.sendInventoryClick around request s).2.state.inventory := by
  obtain ⟨error, refused⟩ | ⟨window, slot, button, mode, drag, -, -, -, queued, room, -⟩ :=
    InventoryFrames.prepareClick_refused_or_queued s.state.inventory request s.state.clock
      (s.state.hud.gameMode = .creative)
  · simp only [PlayLoop.sendInventoryClick, PlayLoop.callInventory, Handler.get_bind, Handler.modify_bind,
      InventoryState.step, refused]
    exact settled.reject fresh unknown _
  · have next : Settled (PlayLoop.callInventory (.prepareClick request s.state.clock
        (s.state.hud.gameMode = .creative)) s).2.state.inventory := by
      simp only [PlayLoop.callInventory, Handler.modify, InventoryState.step, queued]
      exact settled.queue s.state.clock drag room fresh unknown
    have tail (packet : Serverbound K) : Within Calm (do
        PlayLoop.send around packet
        PlayLoop.callInventory (.markSent request.transactionId)) :=
      .bind (stored_calm.send packet) fun _ => callInventory_calm fun s => markSent_changes s _
    obtain ⟨after, keeps⟩ := tail (.windowClick ⟨request.windowId, request.stateId, slot, button, mode, [],
      s.state.inventory.cursor⟩) _ next
    simp only [PlayLoop.sendInventoryClick, Handler.get_bind, PlayLoop.callInventory, Handler.modify_bind,
      Handler.modify, InventoryState.step, queued] at after keeps next ⊢
    exact ⟨after, (next.keep after keeps).outcomes⟩

variable [Field K] [LinearOrder K] [FloorRing K] {around : Surroundings K W G}

private theorem steps_settle {s next : PlayLoop K W G} {input : LoopInput K G} (steps : Steps around s input next)
    (settled : Settled s.state.inventory) (fresh : FreshId s input) :
    Settles s.state.inventory next.state.inventory := by
  have settles {next : PlayLoop K W G} (calm : Calm s next) : Settles s.state.inventory next.state.inventory :=
    settled.keep (calm settled).1 (calm settled).2
  have handled {m : PlayLoop.PlayM K W G Unit} (within : Within Calm m) :
      Settles s.state.inventory (PlayLoop.handle m s).state.inventory :=
    settles (handle_within (fun _ _ => .same rfl) within s)
  cases steps with
  | packet p =>
    cases p with
    | inventory packet =>
      have call : Within Calm (PlayLoop.callInventory (.packet packet) : PlayLoop.PlayM K W G Unit) :=
        callInventory_calm fun s => onPacket_changes s packet
      exact handled (stored_calm.onInventory call fun _ _ => .same rfl)
    | _ => exact handled (stored_calm.handleClientbound (by simp))
  | startConfiguration => exact handled (stored_calm.acknowledgeConfiguration fun _ _ => .same rfl)
  | command command entropy playing =>
    cases command with
    | inventoryClick request =>
      obtain ⟨notPending, unknown⟩ := fresh playing
      rw [handle_state]
      exact sendInventoryClick_settles settled notPending unknown around
    | selectHotbarSlot slot =>
      exact handled (stored_calm.sendSelectHotbarSlot (callInventory_calm fun s => select_changes s _))
    | closeGui =>
      exact handled (stored_calm.sendCloseGui fun p => callInventory_calm fun s => onCloseWindow_changes s p)
    | look yaw pitch => exact handled (update_within fun _ => .same rfl)
    | _ => exact handled (stored_calm.toBlind.handleCommand rfl entropy)
  | tick =>
    exact handled (stored_calm.tick fun clock => callInventory_calm fun s => finishAll_changes .transactions _ _ _)
  -- A configuration drops what was recorded.
  | configured => exact ⟨.new, fun _ _ => .inr rfl⟩
  | ends | ignores => exact settles (.same rfl)

end Sessions

section FinalityResults

variable {K W G : Type} [Field K] [LinearOrder K] [FloorRing K]

/-- A session in which no id is both pending and recorded, and recorded outcomes do not change while they are kept. -/
structure Final (around : Surroundings K W G) (dimensionTypes : List DimensionType) (room : ℕ)
    (inputs : List (LoopInput K G)) : Prop where
  exclusive : Exclusive (PlayLoop.run around dimensionTypes room inputs).state.inventory
  unchanged : ∀ before after id outcome, inputs = before ++ after →
    (PlayLoop.run around dimensionTypes room before).state.inventory.completedTransactions.lookup id = some outcome →
    (∀ middle, before <+: middle → middle <+: inputs →
      id ∈ (PlayLoop.run around dimensionTypes room middle).state.inventory.completedTransactions) →
    (PlayLoop.run around dimensionTypes room inputs).state.inventory.completedTransactions.lookup id = some outcome

variable {around : Surroundings K W G} {dimensionTypes : List DimensionType} {room : ℕ}

theorem run_settled {inputs : List (LoopInput K G)}
    (fresh : Along (PlayLoop.step around) FreshId (.new dimensionTypes room) inputs) :
    Settled (PlayLoop.run around dimensionTypes room inputs).state.inventory :=
  fresh.invariant (fun s input (settled : Settled s.state.inventory) allowed =>
    (steps_settle (step_steps around s input) settled allowed).settled) .new

/-- Where the id of every click is fresh, pending and recorded ids stay apart, and outcomes are final. -/
theorem outcomes_are_final (around : Surroundings K W G) (dimensionTypes : List DimensionType) (room : ℕ)
    (inputs : List (LoopInput K G))
    (fresh : Along (PlayLoop.step around) FreshId (.new dimensionTypes room) inputs) :
    Final around dimensionTypes room inputs := by
  refine ⟨(run_settled fresh).exclusive, ?_⟩
  induction inputs using List.reverseRecOn with
  | nil =>
    intro before after id outcome split recorded _
    rw [(append_eq_nil_iff.mp split.symm).1] at recorded
    exact recorded
  | append_singleton inputs input ih =>
    obtain ⟨earlier, now⟩ := along_concat.mp fresh
    intro before after id outcome split recorded kept
    rcases eq_nil_or_concat after with rfl | ⟨rest, last, rfl⟩
    · rw [split, append_nil]
      exact recorded
    · rw [concat_eq_append, ← append_assoc] at split
      obtain ⟨isBefore, _⟩ := append_inj' split rfl
      have soFar := ih earlier before rest id outcome isBefore recorded fun middle first second =>
        kept middle first (second.trans (prefix_append _ _))
      have still := kept (inputs ++ [input]) ⟨rest ++ [last], by rw [← append_assoc, split]⟩ (prefix_refl _)
      have isRecorded :
          id ∈ (PlayLoop.run around dimensionTypes room inputs).state.inventory.completedTransactions := by
        rw [← lookup_isSome, soFar]
        rfl
      rw [PlayLoop.run, foldl_concat] at still ⊢
      rcases (steps_settle (step_steps around _ input) (run_settled earlier) now).outcomes id isRecorded with
        same | dropped
      · exact same.trans soFar
      · exact absurd still (lookup_eq_none.mp dropped)

def click (id : UInt64) (windowId : Int32) : LoopInput ℚ Unit :=
  .command (.inventoryClick ⟨id, 1, windowId, 0, .pickup none .left⟩) ()

/-- Two clicks with ids of their own; the second is refused. -/
def freshClicks : List (LoopInput ℚ Unit) := [click 1 0, click 2 7]

theorem fresh_clicks_are_final :
    Along (PlayLoop.step openPlain) FreshId (.new overworld 9) freshClicks ∧ Final openPlain overworld 9 freshClicks ∧
      pendingIds (PlayLoop.run openPlain overworld 9 freshClicks).state.inventory = [1] ∧
      (PlayLoop.run openPlain overworld 9 freshClicks).state.inventory.completedTransactions.lookup 2 =
        some (.rejected (.unknownWindow 7)) := by
  have fresh : Along (PlayLoop.step openPlain) FreshId (.new overworld 9) freshClicks :=
    ⟨fun _ => by decide +kernel, fun _ => by decide +kernel, trivial⟩
  exact ⟨fresh, outcomes_are_final openPlain overworld 9 _ fresh, by decide +kernel, by decide +kernel⟩

/-- The id of a click that is still pending comes again. -/
def repeatedClick : List (LoopInput ℚ Unit) := [click 1 0, click 1 0]

/-- The second click is recorded as rejected while the first one is pending. -/
theorem repeated_click_is_not_final : ¬Final openPlain overworld 9 repeatedClick := by
  intro isFinal
  exact isFinal.exclusive 1 (by decide +kernel) (by decide +kernel)

end FinalityResults

end MineRider.Soundness.Transactions
