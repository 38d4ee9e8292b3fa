import Mathlib.Data.List.AList
import Mathlib.Data.List.Lookmap
import MineRider.Model.Protocol.Nbt

/-! # Windows and click transactions

The player's own inventory, at most one open container and the item on the cursor. The server's packets
are authoritative: a click only records a transaction, and a later packet confirms or corrects it.
Transactions that are under way and outcomes that are kept are both bounded.

Functions that change a part of the state return it beside their result, also when they fail. Ticks
are natural numbers, whose subtraction saturates like the source's. The components of an item are kept
as they are on the wire, since nothing here looks into them.
-/

namespace MineRider.Model.Minecraft

open Protocol

section Items

inductive SlotValue where
  | v0
  | default (itemId : Int32) (components : Bytes)
deriving DecidableEq, Repr

structure Slot where
  itemCount : Int32
  value : SlotValue
deriving DecidableEq, Repr

def emptySlot : Slot := ⟨0, .v0⟩

end Items

section Clicks

def playerInventoryWindowId : Int32 := 0
def maxWindowSlots : ℕ := 1024
def maxWindowProperties : ℕ := 1024
def maxPendingTransactions : ℕ := 64
def maxCompletedTransactions : ℕ := 128
def transactionTimeoutTicks : ℕ := 100

def outsideSlot : Int16 := -999

inductive MouseButton where
  | left
  | right
deriving DecidableEq, Repr

inductive HotbarDestination where
  | slot (slot : UInt8)
  | offhand
deriving DecidableEq, Repr

inductive DragButton where
  | left
  | right
  | middle
deriving DecidableEq, Repr

inductive DragPhase where
  | start
  | addSlot
  /-- `End` -/
  | finish
deriving DecidableEq, Repr

inductive InventoryClick where
  | pickup (slot : Option Int16) (button : MouseButton)
  | quickMove (slot : Int16) (button : MouseButton)
  | hotbarSwap (slot : Int16) (destination : HotbarDestination)
  | clone (slot : Int16)
  | throw (slot : Int16) (wholeStack : Bool)
  | quickCraft (phase : DragPhase) (button : DragButton) (slot : Option Int16)
  | pickupAll (slot : Int16)
deriving DecidableEq, Repr

structure InventoryClickRequest where
  transactionId : UInt64
  generation : UInt64
  windowId : Int32
  stateId : Int32
  click : InventoryClick
deriving DecidableEq, Repr

inductive InventoryError where
  | unknownWindow (windowId : Int32)
  | staleState (requested current : Int32)
  | invalidSlot (slot : Int16) (slotCount : ℕ)
  | invalidHotbarSlot (slot : UInt8)
  | creativeOnly
  | invalidDragPhase
  | dragInProgress
  | duplicateTransaction (transactionId : UInt64)
  | queueFull
deriving DecidableEq, Repr

inductive InventoryTransactionStatus where
  | queued
  | sent
deriving DecidableEq, Repr

structure InventoryTransaction where
  request : InventoryClickRequest
  status : InventoryTransactionStatus
  queuedTick : ℕ
deriving DecidableEq, Repr

inductive InventoryOutcome where
  | sent
  | confirmed (stateId : Int32)
  | corrected (stateId : Int32)
  | timedOut
  | windowClosed
  | rejected (error : InventoryError)
deriving DecidableEq, Repr

inductive InventoryEvent where
  | windowOpened (windowId : Int32)
  | windowClosed (windowId : Int32)
  | windowSynchronized (windowId stateId : Int32) (firstSync : Bool)
  | slotUpdated (windowId stateId : Int32) (slot : Int16)
  | cursorUpdated
  | propertyUpdated (windowId : Int32) (property : Int16)
  | selectedHotbarChanged (slot : Int32) (applied : Bool)
  | transactionQueued (transactionId : UInt64)
  | transactionSent (transactionId : UInt64)
  | transactionFinished (transactionId : UInt64) (outcome : InventoryOutcome)
  | transactionRejected (transactionId : UInt64) (error : InventoryError)
deriving DecidableEq, Repr

structure DragState where
  button : DragButton
deriving DecidableEq, Repr

structure PacketWindowClick where
  windowId : Int32
  stateId : Int32
  slot : Int16
  mouseButton : Int8
  mode : Int32
  changedSlots : List (Int16 × Slot)
  cursorItem : Slot
deriving DecidableEq, Repr

structure PreparedClick where
  packet : PacketWindowClick
  event : InventoryEvent
deriving DecidableEq, Repr

end Clicks

section Packets

structure PacketOpenWindow where
  windowId : Int32
  inventoryType : Int32
  windowTitle : Nbt

structure PacketCloseWindow where
  windowId : Int32

structure PacketWindowItems where
  windowId : Int32
  stateId : Int32
  items : List Slot
  carriedItem : Slot

structure PacketSetSlot where
  windowId : Int32
  stateId : Int32
  slot : Int16
  item : Slot

structure PacketSetCursorItem where
  contents : Slot

structure PacketSetPlayerInventory where
  slotId : Int32
  contents : Slot

structure PacketCraftProgressBar where
  windowId : Int32
  property : Int16
  value : Int16

structure PacketHeldItemSlot where
  slot : Int32

/-- The packets that `apply_state_packet` hands to the inventory. -/
inductive InventoryPacket where
  | openWindow (p : PacketOpenWindow)
  | closeWindow (p : PacketCloseWindow)
  | windowItems (p : PacketWindowItems)
  | setSlot (p : PacketSetSlot)
  | setCursorItem (p : PacketSetCursorItem)
  | setPlayerInventory (p : PacketSetPlayerInventory)
  | craftProgressBar (p : PacketCraftProgressBar)
  | heldItemSlot (p : PacketHeldItemSlot)

end Packets

/-- One call of a method that changes the state. -/
inductive InventoryStep where
  | packet (packet : InventoryPacket)
  | selectHotbarSlot (slot : Int16)
  | prepareClick (request : InventoryClickRequest) (tick : ℕ) (creativeMode : Bool)
  | rejectTransaction (id : UInt64) (error : InventoryError)
  | markSent (id : UInt64)
  | expireTransactions (tick : ℕ)

section Windows

structure Window where
  id : Int32
  kind : Int32
  title : Nbt
  stateId : Int32
  slots : List Slot
  slotsTruncated : Bool
  properties : AList fun _ : Int16 => Int16
  synchronizedOnce : Bool

namespace Window

/-- `Window::player_inventory` -/
def ofPlayer : Window where
  id := playerInventoryWindowId
  kind := 0
  title := .compound []
  stateId := 0
  slots := []
  slotsTruncated := false
  properties := ∅
  synchronizedOnce := true

def fromOpen (p : PacketOpenWindow) : Window where
  id := p.windowId
  kind := p.inventoryType
  title := p.windowTitle
  stateId := 0
  slots := []
  slotsTruncated := false
  properties := ∅
  synchronizedOnce := false

/-- `usize::try_from` on a slot index. -/
def slotIndex (slot : Int16) : Option ℕ := if slot < 0 then none else some slot.toNatClampNeg

/-- Writes one slot, after as many empty ones as it takes to reach it. -/
def setSlot (window : Window) (slot : Int16) (item : Slot) : Bool × Window :=
  match slotIndex slot with
  | none => (false, window)
  | some index =>
    if index ≥ maxWindowSlots then (false, window)
    else
      let grown := window.slots ++ List.replicate (index + 1 - window.slots.length) emptySlot
      (true, { window with slots := grown.set index item })

/-- The refresh that `window_items` makes; whether it was the first. -/
def refresh (window : Window) (p : PacketWindowItems) : Bool × Window :=
  (!window.synchronizedOnce,
    { window with
      slotsTruncated := p.items.length > maxWindowSlots,
      slots := p.items.take maxWindowSlots,
      stateId := p.stateId,
      synchronizedOnce := true })

def setProperty (window : Window) (property value : Int16) : Bool × Window :=
  if property ∈ window.properties ∨ window.properties.keys.length < maxWindowProperties then
    (true, { window with properties := window.properties.insert property value })
  else (false, window)

end Window

end Windows

structure InventoryState where
  playerInventory : Window
  openWindow : Option Window
  cursor : Slot
  selectedHotbarSlot : Int32
  pendingTransactions : List InventoryTransaction
  completedTransactions : AList fun _ : UInt64 => InventoryOutcome
  drag : Option DragState

/-- The id a transaction was submitted with. -/
def InventoryTransaction.id (transaction : InventoryTransaction) : UInt64 := transaction.request.transactionId

namespace InventoryState

def new : InventoryState where
  playerInventory := .ofPlayer
  openWindow := none
  cursor := emptySlot
  selectedHotbarSlot := 0
  pendingTransactions := []
  completedTransactions := ∅
  drag := none

def window (s : InventoryState) (windowId : Int32) : Option Window :=
  if windowId = playerInventoryWindowId then some s.playerInventory
  else s.openWindow.filter fun window => window.id = windowId

/-- Runs a change on the window that `window_mut` finds. -/
def windowMut {α : Type} (s : InventoryState) (windowId : Int32) (change : Window → α × Window) :
    Option α × InventoryState :=
  if windowId = playerInventoryWindowId then
    (some (change s.playerInventory).1, { s with playerInventory := (change s.playerInventory).2 })
  else
    match s.openWindow with
    | none => (none, s)
    | some window =>
      if window.id = windowId then (some (change window).1, { s with openWindow := some (change window).2 })
      else (none, s)

section Transactions

/-- Makes room for the outcome of an id, which drops the smallest id. -/
def makeRoom (completed : AList fun _ : UInt64 => InventoryOutcome) (id : UInt64) :
    AList fun _ : UInt64 => InventoryOutcome :=
  if id ∉ completed ∧ completed.keys.length ≥ maxCompletedTransactions then
    match completed.keys.min? with
    | some oldest => completed.erase oldest
    | none => completed
  else completed

/-- Keeps the outcome of an id. -/
def complete (s : InventoryState) (id : UInt64) (outcome : InventoryOutcome) : InventoryState :=
  { s with completedTransactions := (makeRoom s.completedTransactions id).insert id outcome }

def finishTransaction (s : InventoryState) (id : UInt64) (outcome : InventoryOutcome) :
    Option InventoryEvent × InventoryState :=
  if s.pendingTransactions.any (·.id == id) then
    (some (.transactionFinished id outcome),
      { s with pendingTransactions := s.pendingTransactions.eraseP (·.id == id) }.complete id outcome)
  else (none, s)

def rejectTransaction (s : InventoryState) (id : UInt64) (error : InventoryError) :
    InventoryEvent × InventoryState :=
  (.transactionRejected id error, s.complete id (.rejected error))

/-- Finishes one transaction after the other. -/
def finishAll (outcome : InventoryOutcome) : List UInt64 → InventoryState → List InventoryEvent × InventoryState
  | [], s => ([], s)
  | id :: rest, s =>
    let (event, s) := s.finishTransaction id outcome
    let (events, s) := finishAll outcome rest s
    (event.toList ++ events, s)

/-- Collects the ids of the transactions that satisfy `p`, and then finishes them. -/
def finishWhere (s : InventoryState) (p : InventoryTransaction → Bool) (outcome : InventoryOutcome) :
    List InventoryEvent × InventoryState :=
  finishAll outcome ((s.pendingTransactions.filter p).map (·.id)) s

def finishWindowTransactions (s : InventoryState) (windowId : Int32) (outcome : InventoryOutcome) :
    List InventoryEvent × InventoryState :=
  s.finishWhere (·.request.windowId == windowId) outcome

def finishConfirmedTransactions (s : InventoryState) (windowId stateId : Int32) :
    List InventoryEvent × InventoryState :=
  s.finishWhere
    (fun transaction => transaction.status == .sent && transaction.request.windowId == windowId &&
      stateId > transaction.request.stateId)
    (.confirmed stateId)

def expireTransactions (s : InventoryState) (tick : ℕ) : List InventoryEvent × InventoryState :=
  s.finishWhere (fun transaction => tick - transaction.queuedTick ≥ transactionTimeoutTicks) .timedOut

/-- The phases of a drag that the server does not answer. -/
def finishesWithoutConfirmation : InventoryClick → Bool
  | .quickCraft .start .. | .quickCraft .addSlot .. => true
  | _ => false

def markSent (s : InventoryState) (id : UInt64) : List InventoryEvent × InventoryState :=
  match s.pendingTransactions.find? (·.id == id) with
  | none => ([], s)
  | some transaction =>
    let s := { s with
      pendingTransactions := s.pendingTransactions.lookmap fun other =>
        if other.id == id then some { other with status := .sent } else none }
    if finishesWithoutConfirmation transaction.request.click then
      let (event, s) := s.finishTransaction id .sent
      (.transactionSent id :: event.toList, s)
    else ([.transactionSent id], s)

end Transactions

section Clientbound

def onOpenWindow (s : InventoryState) (p : PacketOpenWindow) : List InventoryEvent × InventoryState :=
  let (closed, s) : List InventoryEvent × InventoryState :=
    match s.openWindow with
    | none => ([], s)
    | some previous =>
      let (events, s) := { s with openWindow := none }.finishWindowTransactions previous.id .windowClosed
      (.windowClosed previous.id :: events, s)
  (closed ++ [.windowOpened p.windowId], { s with openWindow := some (.fromOpen p), drag := none })

def onCloseWindow (s : InventoryState) (p : PacketCloseWindow) : List InventoryEvent × InventoryState :=
  if s.openWindow.any fun window => window.id = p.windowId then
    let (events, s) :=
      { s with openWindow := none, drag := none }.finishWindowTransactions p.windowId .windowClosed
    (.windowClosed p.windowId :: events, s)
  else ([], s)

def onWindowItems (s : InventoryState) (p : PacketWindowItems) : List InventoryEvent × InventoryState :=
  let (applied, s) := s.windowMut p.windowId fun window => window.refresh p
  let s := { s with cursor := p.carriedItem }
  match applied with
  | none => ([.cursorUpdated], s)
  | some firstSync =>
    let (events, s) := s.finishWindowTransactions p.windowId (.corrected p.stateId)
    (.cursorUpdated :: .windowSynchronized p.windowId p.stateId firstSync :: events, s)

/-- Window `-1` stands for the cursor. -/
def onSetSlot (s : InventoryState) (p : PacketSetSlot) : List InventoryEvent × InventoryState :=
  if p.windowId = -1 then ([.cursorUpdated], { s with cursor := p.item })
  else
    let (applied, s) := s.windowMut p.windowId fun window => { window with stateId := p.stateId }.setSlot p.slot p.item
    if applied = some true then
      let (events, s) := s.finishConfirmedTransactions p.windowId p.stateId
      (.slotUpdated p.windowId p.stateId p.slot :: events, s)
    else ([], s)

def onSetCursorItem (s : InventoryState) (p : PacketSetCursorItem) : InventoryEvent × InventoryState :=
  (.cursorUpdated, { s with cursor := p.contents })

/-- `i16::try_from` -/
def tryInt16 (value : Int32) : Option Int16 :=
  if -32768 ≤ value ∧ value ≤ 32767 then some value.toInt16 else none

def onSetPlayerInventory (s : InventoryState) (p : PacketSetPlayerInventory) :
    List InventoryEvent × InventoryState :=
  match tryInt16 p.slotId with
  | none => ([], s)
  | some slot =>
    let (applied, playerInventory) := s.playerInventory.setSlot slot p.contents
    if applied then
      ([.slotUpdated playerInventoryWindowId playerInventory.stateId slot], { s with playerInventory })
    else ([], s)

def onCraftProgressBar (s : InventoryState) (p : PacketCraftProgressBar) : Option InventoryEvent × InventoryState :=
  let (applied, s) := s.windowMut p.windowId fun window => window.setProperty p.property p.value
  (if applied = some true then some (.propertyUpdated p.windowId p.property) else none, s)

/-- Selects a slot of the hotbar if there is such a slot. -/
def select (s : InventoryState) (slot : Int32) : InventoryEvent × InventoryState :=
  if 0 ≤ slot ∧ slot ≤ 8 then (.selectedHotbarChanged slot true, { s with selectedHotbarSlot := slot })
  else (.selectedHotbarChanged s.selectedHotbarSlot false, s)

/-- The client's own selection. -/
def selectHotbarSlot (s : InventoryState) (slot : Int16) : InventoryEvent × InventoryState := s.select slot.toInt32

def onHeldItemSlot (s : InventoryState) (p : PacketHeldItemSlot) : InventoryEvent × InventoryState := s.select p.slot

end Clientbound

section Click

def validateSlot (slot : Int16) (slotCount : ℕ) : Except InventoryError Unit :=
  match Window.slotIndex slot with
  | none => throw (.invalidSlot slot slotCount)
  | some index => if index ≥ slotCount then throw (.invalidSlot slot slotCount) else pure ()

def validateOptionalSlot (slot : Option Int16) (slotCount : ℕ) : Except InventoryError Int16 :=
  match slot with
  | some slot => do
    validateSlot slot slotCount
    pure slot
  | none => pure outsideSlot

def mouseButton : MouseButton → Int8
  | .left => 0
  | .right => 1

def dragButton (button : DragButton) (phase : DragPhase) : Int8 :=
  (match button with
  | .left => 0
  | .right => 4
  | .middle => 8) +
  match phase with
  | .start => 0
  | .addSlot => 1
  | .finish => 2

/-- The slot that a phase of a drag has on the wire. -/
def dragWireSlot (phase : DragPhase) (slot : Option Int16) (slotCount : ℕ) : Except InventoryError Int16 :=
  match phase, slot with
  | .start, none | .finish, none => pure outsideSlot
  | .addSlot, some slot => do
    validateSlot slot slotCount
    pure slot
  | _, _ => throw .invalidDragPhase

/-- The drag after a phase, if the phase fits the drag so far. -/
def nextDrag (drag : Option DragState) (phase : DragPhase) (button : DragButton) :
    Except InventoryError (Option DragState) :=
  match phase with
  | .start => if drag.isNone then pure (some ⟨button⟩) else throw .invalidDragPhase
  | .addSlot => if drag.any (·.button = button) then pure drag else throw .invalidDragPhase
  | .finish => if drag.any (·.button = button) then pure none else throw .invalidDragPhase

def validateDrag (drag : Option DragState) (phase : DragPhase) (button : DragButton) (slot : Option Int16)
    (slotCount : ℕ) (creativeMode : Bool) : Except InventoryError (Int16 × Int8 × Int32) × Option DragState :=
  if button = .middle ∧ !creativeMode then (throw .creativeOnly, drag)
  else
    match dragWireSlot phase slot slotCount with
    | .error error => (throw error, drag)
    | .ok wireSlot =>
      match nextDrag drag phase button with
      | .error error => (throw error, drag)
      | .ok next => (pure (wireSlot, dragButton button phase, 5), next)

/-- A click that is not a drag, and is refused during one. -/
def plainClick (drag : Option DragState) (fields : Except InventoryError (Int16 × Int8 × Int32)) :
    Except InventoryError (Int16 × Int8 × Int32) × Option DragState :=
  if drag.isSome then (throw .dragInProgress, drag) else (fields, drag)

/-- `validate_click`: the slot, the button and the mode on the wire, and the drag it leaves behind. -/
def validateClick (drag : Option DragState) (click : InventoryClick) (slotCount : ℕ) (creativeMode : Bool) :
    Except InventoryError (Int16 × Int8 × Int32) × Option DragState :=
  match click with
  | .pickup slot button => plainClick drag do
    pure (← validateOptionalSlot slot slotCount, mouseButton button, 0)
  | .quickMove slot button => plainClick drag do
    validateSlot slot slotCount
    pure (slot, mouseButton button, 1)
  | .hotbarSwap slot destination => plainClick drag do
    validateSlot slot slotCount
    match destination with
    | .slot hotbar => if hotbar ≤ 8 then pure (slot, hotbar.toInt8, 2) else throw (.invalidHotbarSlot hotbar)
    | .offhand => pure (slot, 40, 2)
  | .clone slot => plainClick drag do
    validateSlot slot slotCount
    if creativeMode then pure (slot, 2, 3) else throw .creativeOnly
  | .throw slot wholeStack => plainClick drag do
    validateSlot slot slotCount
    pure (slot, if wholeStack then 1 else 0, 4)
  | .quickCraft phase button slot => validateDrag drag phase button slot slotCount creativeMode
  | .pickupAll slot => plainClick drag do
    validateSlot slot slotCount
    pure (slot, 0, 6)

def prepareClick (s : InventoryState) (request : InventoryClickRequest) (tick : ℕ) (creativeMode : Bool) :
    Except InventoryError PreparedClick × InventoryState :=
  if s.pendingTransactions.length ≥ maxPendingTransactions then (throw .queueFull, s)
  else if s.pendingTransactions.any (·.id == request.transactionId) ∨
      request.transactionId ∈ s.completedTransactions then
    (throw (.duplicateTransaction request.transactionId), s)
  else
    match s.window request.windowId with
    | none => (throw (.unknownWindow request.windowId), s)
    | some window =>
      if request.stateId ≠ window.stateId then (throw (.staleState request.stateId window.stateId), s)
      else
        let (validated, drag) := validateClick s.drag request.click window.slots.length creativeMode
        match validated with
        | .error error => (throw error, { s with drag })
        | .ok (slot, mouseButton, mode) =>
          let packet := {
            windowId := request.windowId, stateId := request.stateId, slot, mouseButton, mode,
            changedSlots := [], cursorItem := s.cursor }
          (pure ⟨packet, .transactionQueued request.transactionId⟩,
            { s with drag, pendingTransactions := s.pendingTransactions ++ [⟨request, .queued, tick⟩] })

end Click

section Run

def onPacket (s : InventoryState) : InventoryPacket → List InventoryEvent × InventoryState
  | .openWindow p => s.onOpenWindow p
  | .closeWindow p => s.onCloseWindow p
  | .windowItems p => s.onWindowItems p
  | .setSlot p => s.onSetSlot p
  | .setCursorItem p => ([(s.onSetCursorItem p).1], (s.onSetCursorItem p).2)
  | .setPlayerInventory p => s.onSetPlayerInventory p
  | .craftProgressBar p => ((s.onCraftProgressBar p).1.toList, (s.onCraftProgressBar p).2)
  | .heldItemSlot p => ([(s.onHeldItemSlot p).1], (s.onHeldItemSlot p).2)

/-- The state after a call, and the events it returns. -/
def step (s : InventoryState) : InventoryStep → List InventoryEvent × InventoryState
  | .packet packet => s.onPacket packet
  | .selectHotbarSlot slot => ([(s.selectHotbarSlot slot).1], (s.selectHotbarSlot slot).2)
  | .prepareClick request tick creativeMode =>
    match s.prepareClick request tick creativeMode with
    | (.ok prepared, s) => ([prepared.event], s)
    | (.error _, s) => ([], s)
  | .rejectTransaction id error => ([(s.rejectTransaction id error).1], (s.rejectTransaction id error).2)
  | .markSent id => s.markSent id
  | .expireTransactions tick => s.expireTransactions tick

/-- A run of calls from the start: all events, and the state in the end. -/
def run (steps : List InventoryStep) : List InventoryEvent × InventoryState :=
  steps.foldl (fun (events, s) call => (events ++ (s.step call).1, (s.step call).2)) ([], new)

end Run

end InventoryState

end MineRider.Model.Minecraft
