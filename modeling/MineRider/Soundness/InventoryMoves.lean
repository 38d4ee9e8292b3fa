import MineRider.Soundness.InventoryFrames
import MineRider.ToMathlib.AListUpdate
import MineRider.ToMathlib.Concat

/-! # What an inventory does

A call of an inventory queues a transaction, keeps a rejection, or is a sequence of changes: the contents of a window
change, a window opens or closes, or a transaction is marked as sent or finished. `step_moves` says so once, with the
events that go with it, and what is true of all inventories follows change by change.

Finishing in bulk collects ids first and removes them one by one. As long as no two pending transactions share
an id, that removes exactly the transactions that were meant.
-/

namespace MineRider.Soundness.InventoryMoves

open List Model.Minecraft InventoryState

section Changes

/-- What a call can change besides transactions. -/
inductive Reach where
  | transactions
  /-- What windows hold, the cursor and the selection; a refresh synchronizes a window. -/
  | contents (refreshes : Bool)
  | windows

def reach : InventoryStep → Reach
  | .packet (.openWindow _) | .packet (.closeWindow _) => .windows
  | .packet (.windowItems _) => .contents true
  | .packet _ | .selectHotbarSlot _ => .contents false
  | .prepareClick .. | .rejectTransaction .. | .markSent _ | .expireTransactions _ => .transactions

/-- The event of a change to a transaction. -/
def ofTransaction : InventoryEvent → Bool
  | .transactionQueued _ | .transactionSent _ | .transactionFinished .. | .transactionRejected .. => true
  | .windowOpened _ | .windowClosed _ | .windowSynchronized .. | .slotUpdated .. | .cursorUpdated
  | .propertyUpdated .. | .selectedHotbarChanged .. => false

/-- The event of a change of contents. -/
def ofContents (refreshes : Bool) : InventoryEvent → Bool
  | .windowSynchronized .. => refreshes
  | .slotUpdated .. | .cursorUpdated | .propertyUpdated .. | .selectedHotbarChanged .. => true
  | _ => false

def requests (s : InventoryState) : List InventoryClickRequest := s.pendingTransactions.map (·.request)

/-- The ids of the pending transactions. -/
def pendingIds (s : InventoryState) : List UInt64 := s.pendingTransactions.map (·.id)

/-- What a change of its contents keeps of a window. -/
structure Updates (refreshes : Bool) (window next : Window) : Prop where
  id : next.id = window.id
  slots : window.slots.length ≤ maxWindowSlots → next.slots.length ≤ maxWindowSlots
  properties : window.properties.keys.length ≤ maxWindowProperties → next.properties.keys.length ≤ maxWindowProperties
  synchronized : refreshes = false → next.synchronizedOnce = window.synchronizedOnce

/-- A change of the contents of windows, the cursor or the selection. -/
structure Contents (refreshes : Bool) (s next : InventoryState) : Prop where
  pending : next.pendingTransactions = s.pendingTransactions
  completed : next.completedTransactions = s.completedTransactions
  drag : next.drag = s.drag
  player : Updates refreshes s.playerInventory next.playerInventory
  opened : Option.Rel (Updates refreshes) s.openWindow next.openWindow
  selected : 0 ≤ s.selectedHotbarSlot ∧ s.selectedHotbarSlot ≤ 8 →
    0 ≤ next.selectedHotbarSlot ∧ next.selectedHotbarSlot ≤ 8

/-- One change to something else than transactions, and its events. -/
inductive Edit (s : InventoryState) : Reach → List InventoryEvent → InventoryState → Prop
  | contents {refreshes : Bool} {events : List InventoryEvent} {next : InventoryState}
      (told : ∀ event ∈ events, ofContents refreshes event = true) (contents : Contents refreshes s next) :
      Edit s (.contents refreshes) events next
  | opens (p : PacketOpenWindow) (free : s.openWindow = none) :
      Edit s .windows [.windowOpened p.windowId] { s with openWindow := some (.fromOpen p), drag := none }
  | closes {window : Window} (found : s.openWindow = some window) (drag : Option DragState) :
      Edit s .windows [.windowClosed window.id] { s with openWindow := none, drag }

/-- One change, and its events; new transactions come only from clicks. -/
inductive Change (reach : Reach) (s : InventoryState) : List InventoryEvent → InventoryState → Prop
  | edit {events : List InventoryEvent} {next : InventoryState} (edit : Edit s reach events next) :
      Change reach s events next
  | send (id : UInt64) : Change reach s [.transactionSent id]
      { s with
        pendingTransactions := s.pendingTransactions.lookmap fun other =>
          if other.id == id then some { other with status := .sent } else none }
  | finish {id : UInt64} (outcome : InventoryOutcome) (pending : s.pendingTransactions.any (·.id == id) = true) :
      Change reach s [.transactionFinished id outcome]
        ({ s with pendingTransactions := s.pendingTransactions.eraseP (·.id == id) }.complete id outcome)

/-- Several changes one after the other. -/
inductive Changes (reach : Reach) : InventoryState → List InventoryEvent → InventoryState → Prop
  | none (s : InventoryState) : Changes reach s [] s
  | cons {s middle next : InventoryState} {events more : List InventoryEvent} (change : Change reach s events middle)
      (rest : Changes reach middle more next) : Changes reach s (events ++ more) next

variable {reach : Reach} {s middle next : InventoryState} {events more : List InventoryEvent}
  {inv : InventoryState → Prop}

/-- What one call does. -/
inductive Move (s : InventoryState) : InventoryStep → List InventoryEvent → InventoryState → Prop
  | changes {call : InventoryStep} {events : List InventoryEvent} {next : InventoryState}
      (changes : Changes (InventoryMoves.reach call) s events next) : Move s call events next
  | reject (id : UInt64) (error : InventoryError) :
      Move s (.rejectTransaction id error) [.transactionRejected id error] (s.complete id (.rejected error))
  | queue {request : InventoryClickRequest} (tick : ℕ) (creativeMode : Bool) (drag : Option DragState)
      (room : s.pendingTransactions.length < maxPendingTransactions)
      (fresh : request.transactionId ∉ pendingIds s) (unknown : request.transactionId ∉ s.completedTransactions)
      (known : (s.window request.windowId).isSome = true) :
      Move s (.prepareClick request tick creativeMode) [.transactionQueued request.transactionId]
        { s with drag, pendingTransactions := s.pendingTransactions ++ [⟨request, .queued, tick⟩] }

theorem Changes.one (change : Change reach s events next) : Changes reach s events next := by
  have changes := Changes.cons change (.none next)
  rwa [append_nil] at changes

theorem Changes.trans (first : Changes reach s events middle) (second : Changes reach middle more next) :
    Changes reach s (events ++ more) next := by
  induction first with
  | none s => exact second
  | cons change rest ih =>
    rw [append_assoc]
    exact .cons change (ih second)

/-- What every change keeps. -/
theorem Changes.invariant (kept : ∀ s events next, inv s → Change reach s events next → inv next)
    (changes : Changes reach s events next) (initially : inv s) : inv next := by
  induction changes with
  | none s => exact initially
  | cons change rest ih => exact ih (kept _ _ _ initially change)

/-- An edit leaves the transactions as they are, and says nothing about them. -/
theorem Edit.transactions (edit : Edit s reach events next) :
    (∀ event ∈ events, ofTransaction event = false) ∧ next.pendingTransactions = s.pendingTransactions ∧
      next.completedTransactions = s.completedTransactions := by
  cases edit with
  | contents told contents =>
    refine ⟨fun event member => ?_, contents.pending, contents.completed⟩
    have isContents := told event member
    cases event <;> first | rfl | cases isContents
  | opens p free | closes found drag => exact ⟨by simp [ofTransaction], rfl, rfl⟩

theorem pendingIds_eq (s : InventoryState) : pendingIds s = (requests s).map (·.transactionId) := by
  rw [pendingIds, requests, map_map]
  rfl

/-- Marking a transaction leaves its request as it is. -/
theorem requests_send (s : InventoryState) (id : UInt64) : requests
    { s with
      pendingTransactions := s.pendingTransactions.lookmap fun other =>
        if other.id == id then some { other with status := .sent } else none } = requests s := by
  refine lookmap_map_eq _ _ (fun transaction sent member => ?_) _
  split at member
  · cases member
    rfl
  · cases member

end Changes

section Windows

variable {refreshes : Bool} {s next : InventoryState}

theorem Updates.refl (window : Window) : Updates refreshes window window :=
  ⟨rfl, fun short => short, fun few => few, fun _ => rfl⟩

theorem updates_refl (opened : Option Window) : Option.Rel (Updates refreshes) opened opened := by
  cases opened with
  | none => exact .none
  | some window => exact .some (.refl window)

theorem Contents.refl (s : InventoryState) : Contents refreshes s s :=
  ⟨rfl, rfl, rfl, .refl _, updates_refl _, id⟩

theorem Contents.cursor (contents : Contents refreshes s next) (item : Slot) :
    Contents refreshes s { next with cursor := item } :=
  ⟨contents.pending, contents.completed, contents.drag, contents.player, contents.opened, contents.selected⟩

private theorem setSlot_updates (window : Window) (slot : Int16) (item : Slot) :
    Updates false window (window.setSlot slot item).2 := by
  unfold Window.setSlot
  split
  · exact .refl window
  · split
    · exact .refl window
    · refine ⟨rfl, fun short => ?_, id, fun _ => rfl⟩
      simp only [length_set, length_append, length_replicate]
      omega

private theorem setProperty_updates (window : Window) (property value : Int16) :
    Updates false window (window.setProperty property value).2 := by
  unfold Window.setProperty
  split
  · rename_i room
    exact ⟨rfl, id, fun short => AList.length_keys_insert_le value short room, fun _ => rfl⟩
  · exact .refl window

private theorem refresh_updates (window : Window) (p : PacketWindowItems) : Updates true window (window.refresh p).2 :=
  ⟨rfl, fun _ => length_take_le _ _, id, fun quiet => by cases quiet⟩

theorem windowMut_contents {α : Type} (s : InventoryState) (windowId : Int32) {change : Window → α × Window}
    (updates : ∀ window, Updates refreshes window (change window).2) :
    Contents refreshes s (s.windowMut windowId change).2 := by
  unfold windowMut
  split
  · exact ⟨rfl, rfl, rfl, updates _, updates_refl _, id⟩
  · cases opened : s.openWindow with
    | none => exact .refl s
    | some window =>
      dsimp only
      split
      · exact ⟨rfl, rfl, rfl, .refl _, opened ▸ .some (updates window), id⟩
      · exact .refl s

end Windows

section Finishing

variable {s next : InventoryState}

/-- Transactions may have been finished, and nothing else has changed. -/
structure Finishes (s next : InventoryState) : Prop where
  player : next.playerInventory = s.playerInventory
  opened : next.openWindow = s.openWindow
  hotbar : next.selectedHotbarSlot = s.selectedHotbarSlot
  requests : requests next ⊆ requests s

theorem Finishes.refl (s : InventoryState) : Finishes s s := ⟨rfl, rfl, rfl, List.Subset.refl _⟩

theorem Finishes.trans {middle : InventoryState} (first : Finishes s middle) (second : Finishes middle next) :
    Finishes s next where
  player := second.player.trans first.player
  opened := second.opened.trans first.opened
  hotbar := second.hotbar.trans first.hotbar
  requests := List.Subset.trans second.requests first.requests

private theorem finishTransaction_finishes (s : InventoryState) (id : UInt64) (outcome : InventoryOutcome) :
    Finishes s (s.finishTransaction id outcome).2 := by
  rw [finishTransaction]
  split
  · exact ⟨rfl, rfl, rfl, (eraseP_sublist.map _).subset⟩
  · exact .refl s

theorem finishAll_finishes (outcome : InventoryOutcome) (ids : List UInt64) (s : InventoryState) :
    Finishes s (finishAll outcome ids s).2 := by
  induction ids generalizing s with
  | nil => exact .refl s
  | cons id rest ih => exact (finishTransaction_finishes s id outcome).trans (ih _)

private theorem finishTransaction_changes (reach : Reach) (s : InventoryState) (id : UInt64)
    (outcome : InventoryOutcome) :
    Changes reach s (s.finishTransaction id outcome).1.toList (s.finishTransaction id outcome).2 := by
  rw [finishTransaction]
  split
  · rename_i pending
    exact .one (.finish outcome pending)
  · exact .none s

theorem finishAll_changes (reach : Reach) (outcome : InventoryOutcome) (ids : List UInt64) (s : InventoryState) :
    Changes reach s (finishAll outcome ids s).1 (finishAll outcome ids s).2 := by
  induction ids generalizing s with
  | nil => exact .none s
  | cons id rest ih => exact (finishTransaction_changes reach s id outcome).trans (ih _)

theorem markSent_changes (s : InventoryState) (id : UInt64) :
    Changes .transactions s (s.markSent id).1 (s.markSent id).2 := by
  rw [markSent]
  split
  · exact .none s
  · split
    · exact .cons (.send id) (finishTransaction_changes _ _ id .sent)
    · exact .one (.send id)

end Finishing

section Operations

variable {refreshes : Bool} {s next : InventoryState} {events : List InventoryEvent}

theorem contents_changes (told : events.all (ofContents refreshes) = true)
    (contents : Contents refreshes s next) : Changes (.contents refreshes) s events next :=
  .one (.edit (.contents (all_eq_true.mp told) contents))

section

variable (s)

theorem onOpenWindow_changes (p : PacketOpenWindow) :
    Changes .windows s (s.onOpenWindow p).1 (s.onOpenWindow p).2 := by
  rw [onOpenWindow]
  cases opened : s.openWindow with
  | none => exact .one (.edit (.opens p opened))
  | some previous =>
    have finished := finishAll_changes .windows .windowClosed
      ((s.pendingTransactions.filter (·.request.windowId == previous.id)).map (·.id)) { s with openWindow := none }
    have closed : (finishAll .windowClosed
      ((s.pendingTransactions.filter (·.request.windowId == previous.id)).map (·.id))
      { s with openWindow := none }).2.openWindow = none := (finishAll_finishes ..).opened
    exact (Changes.cons (.edit (.closes opened s.drag)) finished).trans (.one (.edit (.opens p closed)))

theorem onCloseWindow_changes (p : PacketCloseWindow) :
    Changes .windows s (s.onCloseWindow p).1 (s.onCloseWindow p).2 := by
  rw [onCloseWindow]
  split
  · rename_i isOpen
    obtain ⟨window, found, same⟩ := (Option.any_eq_true _ _).mp isOpen
    rw [← of_decide_eq_true same]
    exact .cons (.edit (.closes found none)) (finishAll_changes ..)
  · exact .none s

private theorem onWindowItems_changes (p : PacketWindowItems) :
    Changes (.contents true) s (s.onWindowItems p).1 (s.onWindowItems p).2 := by
  have carried := (windowMut_contents s p.windowId fun window => refresh_updates window p).cursor p.carriedItem
  rw [onWindowItems]
  cases applied : (s.windowMut p.windowId fun window => window.refresh p).1 with
  | none =>
    simp only [applied]
    exact contents_changes rfl carried
  | some firstSync =>
    simp only [applied]
    have refreshed : Changes (.contents true) s
        [.cursorUpdated, .windowSynchronized p.windowId p.stateId firstSync] _ :=
      contents_changes rfl carried
    exact refreshed.trans (finishAll_changes ..)

private theorem onSetSlot_changes (p : PacketSetSlot) :
    Changes (.contents false) s (s.onSetSlot p).1 (s.onSetSlot p).2 := by
  have stamped (window : Window) :
      Updates false window ({ window with stateId := p.stateId }.setSlot p.slot p.item).2 := by
    obtain ⟨id, slots, properties, synchronized⟩ :=
      setSlot_updates { window with stateId := p.stateId } p.slot p.item
    exact ⟨id, slots, properties, synchronized⟩
  rw [onSetSlot]
  split
  · exact contents_changes rfl ((Contents.refl s).cursor p.item)
  · have updated := windowMut_contents s p.windowId stamped
    dsimp only
    split
    · have told : Changes (.contents false) s [.slotUpdated p.windowId p.stateId p.slot] _ :=
        contents_changes rfl updated
      exact told.trans (finishAll_changes ..)
    · exact contents_changes (by simp) updated

private theorem onSetPlayerInventory_changes (p : PacketSetPlayerInventory) :
    Changes (.contents false) s (s.onSetPlayerInventory p).1 (s.onSetPlayerInventory p).2 := by
  rw [onSetPlayerInventory]
  split
  · exact .none s
  · dsimp only
    split
    · exact contents_changes rfl ⟨rfl, rfl, rfl, setSlot_updates .., updates_refl _, id⟩
    · exact .none s

private theorem onCraftProgressBar_changes (p : PacketCraftProgressBar) :
    Changes (.contents false) s (s.onCraftProgressBar p).1.toList (s.onCraftProgressBar p).2 := by
  refine contents_changes ?_ (windowMut_contents s p.windowId fun window => setProperty_updates window _ _)
  rw [onCraftProgressBar]
  dsimp only
  split
  · rfl
  · rfl

theorem select_changes (slot : Int32) :
    Changes (.contents false) s [(s.select slot).1] (s.select slot).2 := by
  rw [select]
  split
  · rename_i inHotbar
    exact contents_changes rfl ⟨rfl, rfl, rfl, .refl _, updates_refl _, fun _ => inHotbar⟩
  · exact contents_changes rfl (.refl s)

theorem onPacket_changes (packet : InventoryPacket) :
    Changes (reach (.packet packet)) s (s.onPacket packet).1 (s.onPacket packet).2 := by
  cases packet with
  | openWindow p => exact onOpenWindow_changes s p
  | closeWindow p => exact onCloseWindow_changes s p
  | windowItems p => exact onWindowItems_changes s p
  | setSlot p => exact onSetSlot_changes s p
  | setCursorItem p => exact contents_changes rfl ((Contents.refl s).cursor _)
  | setPlayerInventory p => exact onSetPlayerInventory_changes s p
  | craftProgressBar p => exact onCraftProgressBar_changes s p
  | heldItemSlot p => exact select_changes s p.slot

/-- What every call does. -/
theorem step_moves (call : InventoryStep) : Move s call (s.step call).1 (s.step call).2 := by
  cases call with
  | packet packet => exact .changes (onPacket_changes s packet)
  | selectHotbarSlot slot => exact .changes (select_changes s _)
  | prepareClick request tick creativeMode =>
    rw [step]
    obtain ⟨error, refused⟩ | ⟨window, slot, button, mode, drag, found, -, -, queued, room, fresh, unknown⟩ :=
      InventoryFrames.prepareClick_refused_or_queued s request tick creativeMode
    · rw [refused]
      exact .changes (.none s)
    · rw [queued]
      exact .queue tick creativeMode drag room fresh unknown (by rw [found]; rfl)
  | rejectTransaction id error => exact .reject id error
  | markSent id => exact .changes (markSent_changes s id)
  | expireTransactions tick => exact .changes (finishAll_changes ..)

end

/-- The last call of a run adds its events and makes its move. -/
theorem run_concat (calls : List InventoryStep) (call : InventoryStep) :
    run (calls ++ [call]) =
      ((run calls).1 ++ ((run calls).2.step call).1,
        ((run calls).2.step call).2) := by
  rw [run, foldl_concat]
  rfl

end Operations

section Bulk

variable {s : InventoryState} {pending : List InventoryTransaction}

theorem eraseP_eq_filter (distinct : (pending.map (·.id)).Nodup) (id : UInt64) :
    pending.eraseP (·.id == id) = pending.filter (·.id != id) := by
  induction pending with
  | nil => rfl
  | cons transaction rest ih =>
    rw [map_cons, nodup_cons] at distinct
    by_cases same : transaction.id = id
    · have others : rest.filter (·.id != id) = rest := by
        refine filter_eq_self.mpr fun other member => bne_iff_ne.mpr ?_
        rintro rfl
        exact distinct.1 (same ▸ mem_map_of_mem member)
      rw [eraseP_cons_of_pos (by simpa using same), filter_cons_of_neg (by simpa using same), others]
    · rw [eraseP_cons_of_neg (by simpa using same), filter_cons_of_pos (by simpa using same), ih distinct.2]

private theorem finishTransaction_pending (distinct : (pendingIds s).Nodup) (id : UInt64) (outcome : InventoryOutcome) :
    (s.finishTransaction id outcome).2.pendingTransactions = s.pendingTransactions.filter (·.id != id) := by
  rw [finishTransaction]
  split
  · exact eraseP_eq_filter distinct id
  · rename_i absent
    refine (filter_eq_self.mpr fun transaction member => ?_).symm
    by_contra same
    exact absent (any_eq_true.mpr ⟨transaction, member, by simpa using same⟩)

private theorem finishAll_pending (outcome : InventoryOutcome) (ids : List UInt64) (distinct : (pendingIds s).Nodup) :
    (finishAll outcome ids s).2.pendingTransactions = s.pendingTransactions.filter (·.id ∉ ids) := by
  induction ids generalizing s with
  | nil => simp [finishAll]
  | cons id rest ih =>
    have first := finishTransaction_pending distinct id outcome
    have stillDistinct : (pendingIds (s.finishTransaction id outcome).2).Nodup := by
      rw [pendingIds, first]
      exact distinct.sublist (filter_sublist.map _)
    refine (ih stillDistinct).trans ?_
    rw [first, filter_filter]
    refine filter_congr fun transaction _ => ?_
    by_cases same : transaction.id = id <;> simp [same]

/-- Bulk finishing removes exactly the transactions it was meant for. -/
theorem finishWhere_pending (distinct : (pendingIds s).Nodup) (p : InventoryTransaction → Bool)
    (outcome : InventoryOutcome) : (s.finishWhere p outcome).2.pendingTransactions =
      s.pendingTransactions.filter fun transaction => !p transaction := by
  rw [finishWhere, finishAll_pending outcome _ distinct]
  refine filter_congr fun transaction member => ?_
  have collected : transaction.id ∈ (s.pendingTransactions.filter p).map (·.id) ↔ p transaction = true := by
    constructor
    · intro found
      obtain ⟨other, chosen, same⟩ := mem_map.mp found
      obtain ⟨pending, holds⟩ := mem_filter.mp chosen
      rwa [← inj_on_of_nodup_map distinct pending member same]
    · intro holds
      exact mem_map_of_mem (mem_filter.mpr ⟨member, holds⟩)
  cases holds : p transaction <;> simp [collected, holds]

end Bulk

end MineRider.Soundness.InventoryMoves
