import Mathlib.Data.List.Induction
import MineRider.Soundness.InventoryMoves

/-! # The bounds of an inventory

Whatever the server sends and whatever is clicked, rejected, marked or expired, an inventory stays small: its
pending and completed transactions, the slots and properties of its windows, and the selected slot. No two
pending transactions share an id, and each belongs to the player's window or to the one that is open, because a
window that closes or is replaced takes its transactions with it.
-/

namespace MineRider.Soundness.InventoryBounds

open List Model.Minecraft InventoryState InventoryMoves

section Statement

def Fits (window : Window) : Prop :=
  window.slots.length ≤ maxWindowSlots ∧ window.properties.keys.length ≤ maxWindowProperties

/-- The request is for the player's window or for the open one. -/
def Belongs (opened : Option Window) (request : InventoryClickRequest) : Prop :=
  request.windowId = playerInventoryWindowId ∨ ∃ window, opened = some window ∧ window.id = request.windowId

/-- The bounds of the transactions. -/
structure Counted (s : InventoryState) : Prop where
  pending : s.pendingTransactions.length ≤ maxPendingTransactions
  completed : s.completedTransactions.keys.length ≤ maxCompletedTransactions
  distinct : (pendingIds s).Nodup

/-- The bounds of the windows. -/
structure Placed (s : InventoryState) : Prop where
  belongs : ∀ request ∈ requests s, Belongs s.openWindow request
  player : Fits s.playerInventory
  opened : ∀ window, s.openWindow = some window → Fits window
  hotbar : 0 ≤ s.selectedHotbarSlot ∧ s.selectedHotbarSlot ≤ 8

end Statement

section Transactions

variable {reach : Reach} {s next : InventoryState} {events : List InventoryEvent}

/-- There is room for the outcome of an id. -/
theorem length_makeRoom {completed : AList fun _ : UInt64 => InventoryOutcome}
    (bounded : completed.keys.length ≤ maxCompletedTransactions) (id : UInt64) (outcome : InventoryOutcome) :
    ((makeRoom completed id).insert id outcome).keys.length ≤ maxCompletedTransactions := by
  rw [AList.length_keys_insert, makeRoom]
  by_cases full : id ∉ completed ∧ completed.keys.length ≥ maxCompletedTransactions
  · rw [if_pos full]
    cases oldest : completed.keys.min? with
    | none =>
      have empty := min?_eq_none_iff.mp oldest
      rw [empty] at full
      exact absurd full.2 (by decide)
    | some first =>
      have member : first ∈ completed.keys := min?_mem oldest
      have positive : 0 < completed.keys.length := length_pos_of_mem member
      have shorter : (completed.erase first).keys.length = completed.keys.length - 1 := by
        rw [AList.keys_erase, length_erase_of_mem member]
      dsimp only
      split <;> omega
  · rw [if_neg full]
    rw [not_and_or, not_not] at full
    split
    · exact bounded
    · rename_i absent
      have room := full.resolve_left absent
      omega

theorem change_counted (counted : Counted s) (change : Change reach s events next) : Counted next := by
  cases change with
  | edit edit =>
    obtain ⟨-, pending, completed⟩ := edit.transactions
    refine ⟨pending ▸ counted.pending, completed ▸ counted.completed, ?_⟩
    rw [pendingIds, pending]
    exact counted.distinct
  | send id =>
    have same := requests_send s id
    refine ⟨?_, counted.completed, ?_⟩
    · have length := congrArg List.length same
      simp only [requests, length_map] at length
      exact length.le.trans counted.pending
    · rw [pendingIds_eq, same, ← pendingIds_eq]
      exact counted.distinct
  | finish outcome _ =>
    refine ⟨eraseP_sublist.length_le.trans counted.pending, length_makeRoom counted.completed _ _, ?_⟩
    exact counted.distinct.sublist (eraseP_sublist.map _)

private theorem changes_counted (counted : Counted s) (changes : Changes reach s events next) : Counted next :=
  changes.invariant (fun _ _ _ => change_counted) counted

theorem reject_counted (counted : Counted s) (id : UInt64) (outcome : InventoryOutcome) :
    Counted (s.complete id outcome) :=
  ⟨counted.pending, length_makeRoom counted.completed _ _, counted.distinct⟩

theorem queue_counted (counted : Counted s) {request : InventoryClickRequest} (tick : ℕ) (drag : Option DragState)
    (room : s.pendingTransactions.length < maxPendingTransactions) (fresh : request.transactionId ∉ pendingIds s) :
    Counted { s with drag, pendingTransactions := s.pendingTransactions ++ [⟨request, .queued, tick⟩] } where
  pending := by simpa using Nat.succ_le_of_lt room
  completed := counted.completed
  distinct := by
    rw [pendingIds, map_append, nodup_append]
    refine ⟨counted.distinct, nodup_singleton _, ?_⟩
    rintro old member new only rfl
    rw [mem_singleton.mp only] at member
    exact fresh member

theorem Counted.new : Counted .new := ⟨Nat.zero_le _, Nat.zero_le _, nodup_nil⟩

private theorem move_counted {call : InventoryStep} (counted : Counted s) (move : Move s call events next) :
    Counted next := by
  cases move with
  | changes changes => exact changes_counted counted changes
  | reject id error => exact reject_counted counted id _
  | queue tick creativeMode drag room fresh unknown known => exact queue_counted counted tick drag room fresh

end Transactions

section Steps

variable {s next : InventoryState}

theorem Updates.fits {refreshes : Bool} {window next : Window} (updates : Updates refreshes window next)
    (fits : Fits window) : Fits next := ⟨updates.slots fits.1, updates.properties fits.2⟩

theorem Placed.contents {refreshes : Bool} (placed : Placed s) (contents : Contents refreshes s next) :
    Placed next := by
  obtain ⟨pending, -, -, player, opened, selected⟩ := contents
  refine ⟨?_, Updates.fits player placed.player, ?_, selected placed.hotbar⟩
  · intro request member
    rw [requests, pending] at member
    rcases placed.belongs request member with own | ⟨window, found, same⟩
    · exact .inl own
    · rw [found] at opened
      cases isOpen : next.openWindow with
      | none =>
        rw [isOpen] at opened
        cases opened
      | some after =>
        rw [isOpen] at opened
        cases opened with
        | some updates => exact .inr ⟨after, rfl, updates.id.trans same⟩
  · intro after isOpen
    rw [isOpen] at opened
    cases found : s.openWindow with
    | none =>
      rw [found] at opened
      cases opened
    | some window =>
      rw [found] at opened
      cases opened with
      | some updates => exact Updates.fits updates (placed.opened window found)

/-- Requests may go, but not come. -/
theorem Placed.finishes (placed : Placed s) (player : next.playerInventory = s.playerInventory)
    (opened : next.openWindow = s.openWindow) (hotbar : next.selectedHotbarSlot = s.selectedHotbarSlot)
    (fewer : requests next ⊆ requests s) : Placed next where
  belongs request member := by
    rw [opened]
    exact placed.belongs request (fewer member)
  player := by rw [player]; exact placed.player
  opened window found := placed.opened window (opened ▸ found)
  hotbar := by rw [hotbar]; exact placed.hotbar

private theorem change_placed {reach : Reach} {events : List InventoryEvent} (placed : Placed s)
    (change : Change reach s events next) (stays : reach ≠ .windows) : Placed next := by
  cases change with
  | edit edit =>
    cases edit with
    | contents _ contents => exact placed.contents contents
    | opens | closes => exact absurd rfl stays
  | send id => exact placed.finishes rfl rfl rfl (by rw [requests_send]; exact List.Subset.refl _)
  | finish outcome _ => exact placed.finishes rfl rfl rfl (eraseP_sublist.map _).subset

variable {request : InventoryClickRequest}

/-- The window that closes or is replaced takes its transactions with it. -/
theorem finishWindow_requests (distinct : (pendingIds s).Nodup) {windowId : Int32} {outcome : InventoryOutcome}
    (member : request ∈ requests (s.finishWindowTransactions windowId outcome).2) :
    request ∈ requests s ∧ request.windowId ≠ windowId := by
  rw [requests, finishWindowTransactions, finishWhere_pending distinct] at member
  obtain ⟨transaction, kept, rfl⟩ := mem_map.mp member
  obtain ⟨pending, other⟩ := mem_filter.mp kept
  exact ⟨mem_map_of_mem pending, by simpa using other⟩

/-- Once the open window's transactions are finished, what is left is for the player's window. -/
theorem Placed.player_of_closed (placed : Placed s) {window : Window} (found : s.openWindow = some window)
    (member : request ∈ requests s) (other : request.windowId ≠ window.id) :
    request.windowId = playerInventoryWindowId := by
  rcases placed.belongs request member with player | ⟨opened, same, isOpen⟩
  · exact player
  · rw [found] at same
    cases same
    exact absurd isOpen.symm other

/-- The open window is replaced, and only transactions for the player's window are left. -/
theorem Placed.replace (placed : Placed s) (player : next.playerInventory = s.playerInventory)
    (hotbar : next.selectedHotbarSlot = s.selectedHotbarSlot)
    (left : ∀ request ∈ requests next, request.windowId = playerInventoryWindowId)
    (opened : ∀ window, next.openWindow = some window → Fits window) : Placed next where
  belongs request member := .inl (left request member)
  player := by rw [player]; exact placed.player
  opened := opened
  hotbar := by rw [hotbar]; exact placed.hotbar

private theorem onOpenWindow_placed (placed : Placed s) (distinct : (pendingIds s).Nodup) (p : PacketOpenWindow) :
    Placed (s.onOpenWindow p).2 := by
  have fresh : ∀ window, some (Window.fromOpen p) = some window → Fits window := by
    rintro _ ⟨⟩
    exact ⟨Nat.zero_le _, Nat.zero_le _⟩
  rw [onOpenWindow]
  cases opened : s.openWindow with
  | none =>
    refine placed.replace rfl rfl (fun request member => ?_) fresh
    rcases placed.belongs request member with player | ⟨window, found, _⟩
    · exact player
    · rw [opened] at found
      cases found
  | some previous =>
    have frame : Finishes { s with openWindow := none }
      ({ s with openWindow := none }.finishWindowTransactions previous.id .windowClosed).2 := finishAll_finishes ..
    refine placed.replace frame.player frame.hotbar (fun request member => ?_) fresh
    obtain ⟨pending, other⟩ := finishWindow_requests (s := { s with openWindow := none }) distinct member
    exact placed.player_of_closed opened pending other

private theorem onCloseWindow_placed (placed : Placed s) (distinct : (pendingIds s).Nodup) (p : PacketCloseWindow) :
    Placed (s.onCloseWindow p).2 := by
  rw [onCloseWindow]
  split
  · rename_i isOpen
    obtain ⟨window, found, same⟩ := (Option.any_eq_true _ _).mp isOpen
    have frame : Finishes { s with openWindow := none, drag := none }
      ({ s with openWindow := none, drag := none }.finishWindowTransactions p.windowId .windowClosed).2 :=
      finishAll_finishes ..
    refine placed.replace frame.player frame.hotbar (fun request member => ?_) fun other isOther => ?_
    · obtain ⟨pending, other⟩ :=
        finishWindow_requests (s := { s with openWindow := none, drag := none }) distinct member
      refine placed.player_of_closed found pending ?_
      rwa [of_decide_eq_true same]
    · rw [frame.opened] at isOther
      cases isOther
  · exact placed

/-- A click is only queued for a window that `window` finds. -/
theorem belongs_of_window (known : (s.window request.windowId).isSome = true) :
    Belongs s.openWindow request := by
  rw [InventoryState.window] at known
  split at known
  · rename_i player
    exact .inl player
  · obtain ⟨window, found⟩ := Option.isSome_iff_exists.mp known
    obtain ⟨isOpen, same⟩ := Option.filter_eq_some_iff.mp found
    exact .inr ⟨window, isOpen, of_decide_eq_true same⟩

private theorem move_placed {call : InventoryStep} {events : List InventoryEvent} (placed : Placed s)
    (move : Move s call events next) (stays : reach call ≠ .windows) : Placed next := by
  cases move with
  | changes changes => exact changes.invariant (fun _ _ _ before change => change_placed before change stays) placed
  | reject id error => exact ⟨placed.belongs, placed.player, placed.opened, placed.hotbar⟩
  | queue tick creativeMode drag room fresh unknown known =>
    refine ⟨?_, placed.player, placed.opened, placed.hotbar⟩
    rw [requests, map_append]
    exact forall_mem_concat.mpr ⟨placed.belongs, belongs_of_window known⟩

theorem step_placed (placed : Placed s) (distinct : (pendingIds s).Nodup) (call : InventoryStep) :
    Placed (s.step call).2 := by
  by_cases replaces : reach call = .windows
  · cases call with
    | packet packet =>
      cases packet with
      | openWindow p => exact onOpenWindow_placed placed distinct p
      | closeWindow p => exact onCloseWindow_placed placed distinct p
      | _ => cases replaces
    | _ => cases replaces
  · exact move_placed placed (step_moves s call) replaces

theorem Placed.new : Placed .new where
  belongs := nofun
  player := ⟨Nat.zero_le _, Nat.zero_le _⟩
  opened := nofun
  hotbar := by decide

end Steps

section Results

/-- Every inventory stays within its bounds. -/
theorem inventory_stays_bounded (calls : List InventoryStep) :
    Counted (InventoryState.run calls).2 ∧ Placed (InventoryState.run calls).2 := by
  induction calls using List.reverseRecOn with
  | nil => exact ⟨.new, .new⟩
  | append_singleton calls call ih =>
    rw [run_concat]
    exact ⟨move_counted ih.1 (step_moves _ call), step_placed ih.2 ih.1.distinct call⟩

end Results

end MineRider.Soundness.InventoryBounds
