import MineRider.Model.Minecraft.Inventory

/-! # What inventory calls leave as it was

A click is checked in many steps, one of which moves the drag. Every check that can fail comes before that, so
a refused click changes nothing, and an accepted one queues one transaction for a slot the window has.

A packet that is not reported should not change anything either. `set_slot` stamps the window with the new
state id before it looks at the slot index, so a slot outside of the window moves the state id silently; no
other packet does such a thing.
-/

namespace MineRider.Soundness.InventoryFrames

open Model.Minecraft InventoryState Window

section Clicks

/-- The slot is one of the window's, or stands for the outside. -/
def Addresses (slotCount : ℕ) (slot : Int16) : Prop :=
  slot = outsideSlot ∨ ∃ index, slotIndex slot = some index ∧ index < slotCount

variable {slotCount : ℕ} {slot : Int16}

private theorem addresses_of_validateSlot (valid : validateSlot slot slotCount = .ok ()) :
    Addresses slotCount slot := by
  unfold validateSlot at valid
  cases found : slotIndex slot with
  | none =>
    rw [found] at valid
    cases valid
  | some index =>
    simp only [found] at valid
    split_ifs at valid with outside
    exact .inr ⟨index, found, Nat.lt_of_not_le outside⟩

/-- The slot that a check returns behind the check of that slot. -/
theorem addresses_of_validateSlot_bind {α : Type} {fields : Unit → Except InventoryError α} {result : α}
    (valid : (validateSlot slot slotCount >>= fields) = .ok result) :
    Addresses slotCount slot ∧ fields () = .ok result := by
  cases checked : validateSlot slot slotCount with
  | error error =>
    rw [checked] at valid
    cases valid
  | ok done =>
    rw [checked] at valid
    exact ⟨addresses_of_validateSlot checked, valid⟩

private theorem addresses_of_validateOptionalSlot {wanted : Option Int16}
    (valid : validateOptionalSlot wanted slotCount = .ok slot) : Addresses slotCount slot := by
  cases wanted with
  | none =>
    cases valid
    exact .inl rfl
  | some wanted =>
    obtain ⟨addresses, same⟩ := addresses_of_validateSlot_bind valid
    cases same
    exact addresses

private theorem addresses_of_dragWireSlot {phase : DragPhase} {wanted : Option Int16}
    (valid : dragWireSlot phase wanted slotCount = .ok slot) : Addresses slotCount slot := by
  unfold dragWireSlot at valid
  split at valid
  · cases valid
    exact .inl rfl
  · cases valid
    exact .inl rfl
  · obtain ⟨addresses, same⟩ := addresses_of_validateSlot_bind valid
    cases same
    exact addresses
  · cases valid

/-- A check of a click: if it fails, the drag is as it was, and if not, the slot is there. -/
structure Checks (slotCount : ℕ) (drag : Option DragState)
    (checked : Except InventoryError (Int16 × Int8 × Int32) × Option DragState) : Prop where
  refused : ∀ error, checked.1 = .error error → checked.2 = drag
  addresses : ∀ slot button mode, checked.1 = .ok (slot, button, mode) → Addresses slotCount slot

private theorem plainClick_checks (drag : Option DragState) {fields : Except InventoryError (Int16 × Int8 × Int32)}
    (addresses : ∀ slot button mode, fields = .ok (slot, button, mode) → Addresses slotCount slot) :
    Checks slotCount drag (plainClick drag fields) := by
  unfold plainClick
  split_ifs
  · exact ⟨fun _ _ => rfl, fun _ _ _ accepted => by cases accepted⟩
  · exact ⟨fun _ _ => rfl, addresses⟩

private theorem validateDrag_checks (drag : Option DragState) (phase : DragPhase) (button : DragButton)
    (wanted : Option Int16) (creativeMode : Bool) :
    Checks slotCount drag (validateDrag drag phase button wanted slotCount creativeMode) := by
  unfold validateDrag
  split_ifs
  · exact ⟨fun _ _ => rfl, fun _ _ _ accepted => by cases accepted⟩
  cases wired : dragWireSlot phase wanted slotCount with
  | error error => exact ⟨fun _ _ => rfl, fun _ _ _ accepted => by cases accepted⟩
  | ok wireSlot =>
    cases moved : nextDrag drag phase button with
    | error error => exact ⟨fun _ _ => rfl, fun _ _ _ accepted => by cases accepted⟩
    | ok next =>
      refine ⟨fun _ failed => (by cases failed), ?_⟩
      intro slot button mode accepted
      cases accepted
      exact addresses_of_dragWireSlot wired

private theorem validateClick_checks (drag : Option DragState) (click : InventoryClick) (slotCount : ℕ)
    (creativeMode : Bool) :
    Checks slotCount drag (validateClick drag click slotCount creativeMode) := by
  cases click with
  | pickup wanted button =>
    refine plainClick_checks drag fun slot button mode accepted => ?_
    cases checked : validateOptionalSlot wanted slotCount with
    | error error =>
      rw [checked] at accepted
      cases accepted
    | ok found =>
      rw [checked] at accepted
      cases accepted
      exact addresses_of_validateOptionalSlot checked
  | quickCraft phase button wanted => exact validateDrag_checks drag phase button wanted creativeMode
  | hotbarSwap wanted destination =>
    refine plainClick_checks drag fun slot button mode accepted => ?_
    obtain ⟨addresses, same⟩ := addresses_of_validateSlot_bind accepted
    cases destination with
    | offhand =>
      cases same
      exact addresses
    | slot hotbar =>
      simp only at same
      split_ifs at same
      cases same
      exact addresses
  | clone wanted =>
    refine plainClick_checks drag fun slot button mode accepted => ?_
    obtain ⟨addresses, same⟩ := addresses_of_validateSlot_bind accepted
    split_ifs at same
    cases same
    exact addresses
  | quickMove wanted _ | throw wanted _ | pickupAll wanted =>
    refine plainClick_checks drag fun slot button mode accepted => ?_
    obtain ⟨addresses, same⟩ := addresses_of_validateSlot_bind accepted
    cases same
    exact addresses

/-- A click is refused and changes nothing, or passes all checks and is queued. -/
theorem prepareClick_refused_or_queued (s : InventoryState) (request : InventoryClickRequest) (tick : ℕ)
    (creativeMode : Bool) :
    (∃ error, s.prepareClick request tick creativeMode = (.error error, s)) ∨
      ∃ window slot button mode drag, s.window request.windowId = some window ∧ request.stateId = window.stateId ∧
        validateClick s.drag request.click window.slots.length creativeMode = (.ok (slot, button, mode), drag) ∧
        s.prepareClick request tick creativeMode =
          (.ok ⟨⟨request.windowId, request.stateId, slot, button, mode, [], s.cursor⟩,
              .transactionQueued request.transactionId⟩,
            { s with drag, pendingTransactions := s.pendingTransactions ++ [⟨request, .queued, tick⟩] }) ∧
        s.pendingTransactions.length < maxPendingTransactions ∧
        request.transactionId ∉ s.pendingTransactions.map (·.id) ∧ request.transactionId ∉ s.completedTransactions := by
  unfold prepareClick
  split_ifs with full known
  · exact .inl ⟨_, rfl⟩
  · exact .inl ⟨_, rfl⟩
  rw [not_or, List.any_eq_true] at known
  have fresh : request.transactionId ∉ s.pendingTransactions.map (·.id) := by
    intro member
    obtain ⟨transaction, pending, same⟩ := List.mem_map.mp member
    exact known.1 ⟨transaction, pending, beq_iff_eq.mpr same⟩
  cases found : s.window request.windowId with
  | none => exact .inl ⟨_, rfl⟩
  | some window =>
    simp only
    split_ifs with stale
    · exact .inl ⟨_, rfl⟩
    have refused := (validateClick_checks s.drag request.click window.slots.length creativeMode).refused
    rcases checked : validateClick s.drag request.click window.slots.length creativeMode with
      ⟨error | ⟨slot, button, mode⟩, drag⟩
    · rw [checked] at refused
      have same : drag = s.drag := refused error rfl
      rw [same]
      exact .inl ⟨error, rfl⟩
    · exact .inr ⟨window, slot, button, mode, drag, rfl, not_not.mp stale, checked, rfl, Nat.lt_of_not_le full, fresh,
        known.2⟩

/-- A refused click changes nothing. An accepted one queues one transaction and moves at most the drag, and its
packet is for a slot of the requested window, or the outside, with the state id the window has. -/
theorem prepareClick_changes_only (s : InventoryState) (request : InventoryClickRequest) (tick : ℕ)
    (creativeMode : Bool) :
    (∀ error, (s.prepareClick request tick creativeMode).1 = .error error →
      (s.prepareClick request tick creativeMode).2 = s) ∧
    ∀ prepared, (s.prepareClick request tick creativeMode).1 = .ok prepared →
      (∃ drag, (s.prepareClick request tick creativeMode).2 =
        { s with drag, pendingTransactions := s.pendingTransactions ++ [⟨request, .queued, tick⟩] }) ∧
      ∃ window, s.window request.windowId = some window ∧ prepared.packet.windowId = request.windowId ∧
        prepared.packet.stateId = window.stateId ∧ Addresses window.slots.length prepared.packet.slot := by
  obtain ⟨error, refused⟩ | ⟨window, slot, button, mode, drag, found, current, checked, queued, -⟩ :=
    prepareClick_refused_or_queued s request tick creativeMode
  · rw [refused]
    exact ⟨fun _ _ => rfl, fun _ accepted => by cases accepted⟩
  · rw [queued]
    refine ⟨fun _ failed => (by cases failed), ?_⟩
    intro prepared accepted
    cases accepted
    have checks := validateClick_checks s.drag request.click window.slots.length creativeMode
    rw [checked] at checks
    exact ⟨⟨drag, rfl⟩, window, found, rfl, current, checks.addresses slot button mode rfl⟩

end Clicks

section Packets

/-- No window has such a slot. -/
def OutOfRange (slot : Int16) : Prop := ∀ index, slotIndex slot = some index → maxWindowSlots ≤ index

/-- The packet addresses a slot that no window has, of a window that is there, with another state id than the
window's. -/
def Restamps (s : InventoryState) : InventoryPacket → Prop
  | .setSlot p => p.windowId ≠ -1 ∧ OutOfRange p.slot ∧
      ∃ window, s.window p.windowId = some window ∧ window.stateId ≠ p.stateId
  | _ => False

private theorem setSlot_fst (window : Window) (slot : Int16) (item : Slot) :
    (window.setSlot slot item).1 = false ↔ OutOfRange slot := by
  unfold setSlot OutOfRange
  cases slotIndex slot with
  | none => simp
  | some index =>
    simp only [Option.some.injEq, forall_eq']
    split_ifs with outside <;> simpa using outside

private theorem setSlot_of_outOfRange (window : Window) {slot : Int16} (item : Slot) (outside : OutOfRange slot) :
    window.setSlot slot item = (false, window) := by
  unfold setSlot
  cases found : slotIndex slot with
  | none => rfl
  | some index =>
    simp only
    rw [if_pos (outside index found)]

private theorem setProperty_of_false {window : Window} {property value : Int16}
    (refused : (window.setProperty property value).1 = false) : (window.setProperty property value).2 = window := by
  unfold setProperty at refused ⊢
  split_ifs at refused ⊢
  rfl

section

variable {α : Type} (s : InventoryState) (windowId : Int32)

include s windowId

/-- `window_mut` finds what `window` finds. -/
theorem windowMut_fst (change : Window → α × Window) :
    (s.windowMut windowId change).1 = (s.window windowId).map fun window => (change window).1 := by
  unfold windowMut window
  split_ifs with player
  · rfl
  · cases s.openWindow with
    | none => rfl
    | some window =>
      by_cases same : window.id = windowId
      · simp [same]
      · simp [same]

private theorem windowMut_window (change : Window → α × Window) (sameId : ∀ window, (change window).2.id = window.id) :
    (s.windowMut windowId change).2.window windowId = (s.window windowId).map fun window => (change window).2 := by
  unfold windowMut window
  split_ifs with player
  · rfl
  · cases found : s.openWindow with
    | none => simp [found]
    | some window =>
      by_cases same : window.id = windowId
      · simp [Option.filter, same, sameId]
      · simp [Option.filter, found, same]

/-- A change that leaves the window it is made on leaves the state. -/
theorem windowMut_eq_self {change : Window → α × Window}
    (same : ∀ window, s.window windowId = some window → (change window).2 = window) :
    (s.windowMut windowId change).2 = s := by
  unfold windowMut
  unfold window at same
  split_ifs with player
  · rw [if_pos player] at same
    simp only [same s.playerInventory rfl]
  · rw [if_neg player] at same
    cases found : s.openWindow with
    | none => rfl
    | some window =>
      by_cases here : window.id = windowId
      · have kept := same window (by simp [found, here])
        simp only [here, if_true, kept, ← found]
      · simp only [here, if_false]

end

theorem onSetSlot_silent_iff (s : InventoryState) (p : PacketSetSlot) :
    ((s.onSetSlot p).1 = [] → (s.onSetSlot p).2 = s) ↔ ¬ Restamps s (.setSlot p) := by
  unfold onSetSlot Restamps
  by_cases cursor : p.windowId = -1
  · simp [cursor]
  simp only [cursor, if_false, ne_eq, not_false_eq_true, true_and, windowMut_fst]
  by_cases outside : OutOfRange p.slot
  · have stamped : ∀ window : Window, { window with stateId := p.stateId }.setSlot p.slot p.item =
        (false, { window with stateId := p.stateId }) := fun window => setSlot_of_outOfRange _ _ outside
    have refused : ((s.window p.windowId).map fun window : Window => false) ≠ some true := by
      cases s.window p.windowId <;> simp
    simp only [stamped, if_neg refused, outside, true_and, forall_const, not_exists, not_and, not_not]
    constructor
    · intro same window found
      have stampedAfter := windowMut_window s p.windowId
        (fun window => (false, { window with stateId := p.stateId })) fun _ => rfl
      rw [same, found, Option.map_some, Option.some.injEq] at stampedAfter
      exact (congrArg stateId stampedAfter)
    · intro current
      refine windowMut_eq_self s p.windowId fun window found => ?_
      simp only [← current window found]
  · have applies : ∀ window : Window, ({ window with stateId := p.stateId }.setSlot p.slot p.item).1 = true := by
      intro window
      rw [← Bool.not_eq_false, setSlot_fst]
      exact outside
    simp only [applies, outside, false_and, not_false_eq_true, iff_true]
    cases found : s.window p.windowId with
    | some window => simp
    | none =>
      simp only [Option.map_none, reduceCtorEq, if_false, forall_const]
      exact windowMut_eq_self s p.windowId fun window other => by rw [found] at other; cases other

/-- A packet that is not reported changes nothing, unless it stamps a window for a slot that it does not have. -/
theorem unreported_packet_changes_nothing_iff (s : InventoryState) (packet : InventoryPacket) :
    ((s.onPacket packet).1 = [] → (s.onPacket packet).2 = s) ↔ ¬ Restamps s packet := by
  cases packet with
  | setSlot p => exact onSetSlot_silent_iff s p
  | openWindow p =>
    refine iff_of_true (fun silent => ?_) id
    simp [onPacket, onOpenWindow] at silent
  | closeWindow p =>
    refine iff_of_true ?_ id
    simp only [onPacket, onCloseWindow]
    split_ifs
    · simp
    · simp
  | windowItems p =>
    refine iff_of_true (fun silent => ?_) id
    simp only [onPacket, onWindowItems] at silent
    split at silent <;> cases silent
  | setCursorItem p | heldItemSlot p => exact iff_of_true (fun silent => by cases silent) id
  | setPlayerInventory p =>
    refine iff_of_true ?_ id
    simp only [onPacket, onSetPlayerInventory]
    split
    · simp
    · split_ifs
      · simp
      · simp
  | craftProgressBar p =>
    refine iff_of_true ?_ id
    simp only [onPacket, onCraftProgressBar, windowMut_fst]
    intro silent
    refine windowMut_eq_self s p.windowId fun window found => ?_
    rw [found, Option.map_some] at silent
    apply setProperty_of_false
    by_contra applied
    rw [Bool.not_eq_false] at applied
    rw [applied, if_pos rfl] at silent
    cases silent

/-- The player's inventory gets a new state id from a slot that is not there, and nobody is told. -/
theorem slot_out_of_range_restamps :
    (InventoryState.new.onPacket (.setSlot ⟨0, 7, -1, emptySlot⟩)).1 = [] ∧
      InventoryState.new.playerInventory.stateId = 0 ∧
      (InventoryState.new.onPacket (.setSlot ⟨0, 7, -1, emptySlot⟩)).2.playerInventory.stateId = 7 := by
  decide

end Packets

end MineRider.Soundness.InventoryFrames
