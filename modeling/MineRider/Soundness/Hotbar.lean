import MineRider.Machine.Run
import MineRider.Soundness.InventoryMoves
import MineRider.Soundness.PlayFrames

/-! # The hotbar on display

The selected slot and the held item are stored twice, in the inventory and in the HUD. The packets `held_item_slot`
and `set_player_inventory` change both; a selection by command, `window_items` and `set_slot` change only the
inventory. As long as these leave the selection and the nine items of the hotbar as they are, the display is right.
-/

namespace MineRider.Soundness.Hotbar

open Int32 List Model.Minecraft PlayLoop Machine PlayFrames InventoryMoves InventoryState Window

variable {K W G : Type}

section Statement

/-- Where the hotbar starts in the player's inventory. -/
def hotbarStart : ℕ := 36

/-- An item of the player's inventory, or the empty one if the slot is not known. -/
def itemAt (inventory : InventoryState) (index : ℕ) : Slot := inventory.playerInventory.slots.getD index emptySlot

def selectedItem (inventory : InventoryState) : Slot :=
  itemAt inventory (hotbarStart + inventory.selectedHotbarSlot.toNatClampNeg)

/-- The HUD shows the inventory's selection and the item in it. -/
structure Shown (state : PlayState K W G) : Prop where
  selected : state.hud.selectedHotbarSlot = state.inventory.selectedHotbarSlot
  held : state.hud.heldItem = selectedItem state.inventory

/-- What reaches only the inventory changes neither the selection nor an item of the hotbar. -/
def Mirrored (s : PlayLoop K W G) : LoopInput K G → Prop
  | .command (.selectHotbarSlot slot) _ =>
    0 ≤ slot ∧ slot ≤ 8 → slot.toInt32 = s.state.inventory.selectedHotbarSlot
  | .packet (.inventory (.windowItems p)) => p.windowId = playerInventoryWindowId →
    ∀ k : Fin 9, p.items.getD (hotbarStart + k) emptySlot = itemAt s.state.inventory (hotbarStart + k)
  | .packet (.inventory (.setSlot p)) => p.windowId = playerInventoryWindowId →
    ∀ k : Fin 9, p.slot = .ofNat (hotbarStart + k) → p.item = itemAt s.state.inventory (hotbarStart + k)
  | _ => True

end Statement

section Numbers

variable {slot : Int32}

/-- Nine numbers in a row. -/
theorem slot_of_nine (start : ℕ) (small : start + 9 < 2 ^ 31) (low : (start : ℤ) ≤ slot.toInt)
    (high : slot.toInt ≤ start + 8) : ∃ k : Fin 9, slot = .ofNat (start + k) := by
  refine ⟨⟨slot.toInt.toNat - start, by omega⟩, toInt_inj.mp ?_⟩
  rw [toInt_ofNat_of_lt (by dsimp only; omega)]
  dsimp only
  omega

private theorem hotbar_slot (low : 0 ≤ slot) (high : slot ≤ 8) : ∃ k : Fin 9, slot = .ofNat k := by
  obtain ⟨k, same⟩ := slot_of_nine 0 (by decide) (le_iff_toInt_le.mp low)
    (le_iff_toInt_le.mp high)
  exact ⟨k, by rwa [Nat.zero_add] at same⟩

private theorem inventory_slot (low : HudState.playerInventoryHotbarStart ≤ slot)
    (high : slot ≤ HudState.playerInventoryHotbarEnd) : ∃ k : Fin 9, slot = .ofNat (hotbarStart + k) :=
  slot_of_nine hotbarStart (by decide) (le_iff_toInt_le.mp low) (le_iff_toInt_le.mp high)

private theorem toNatClampNeg_hotbar (k : Fin 9) : (Int32.ofNat k).toNatClampNeg = k := by decide +revert

private theorem ofNat_hotbar_injective : ∀ j k : Fin 9, Int32.ofNat j = Int32.ofNat k → j = k := by decide

/-- A slot of the inventory that is on the hotbar, in the three forms that the code gives it. -/
theorem inventory_slot_forms (k : Fin 9) :
    Int32.ofNat (hotbarStart + k) - HudState.playerInventoryHotbarStart = .ofNat k ∧
    tryInt16 (.ofNat (hotbarStart + k)) = some (.ofNat (hotbarStart + k)) ∧
    slotIndex (.ofNat (hotbarStart + k)) = some (hotbarStart + k) := by decide +revert

theorem hotbar_inside (k : Fin 9) : hotbarStart + (k : ℕ) < maxWindowSlots := by
  rw [hotbarStart, maxWindowSlots]
  omega

private theorem tryInt16_toInt {value : Int32} {slot : Int16} (fits : tryInt16 value = some slot) :
    slot.toInt = value.toInt := by
  unfold tryInt16 at fits
  split at fits
  · rename_i range
    cases fits
    have low : -32768 ≤ value.toInt := le_iff_toInt_le.mp range.1
    have high : value.toInt ≤ 32767 := le_iff_toInt_le.mp range.2
    rw [toInt_toInt16]
    exact Int.bmod_eq_of_le (by omega) (by omega)
  · cases fits

private theorem slotIndex_ofNat {slot : Int16} {place : ℕ} (found : slotIndex slot = some place) :
    slot = .ofNat place := by
  unfold slotIndex at found
  split at found
  · cases found
  · rename_i nonneg
    cases found
    have low : 0 ≤ slot.toInt := by
      rw [Int16.lt_iff_toInt_lt] at nonneg
      exact Int.not_lt.mp nonneg
    have high : slot.toInt < 2 ^ 15 := Int16.toInt_lt slot
    have clamped : (slot.toNatClampNeg : ℤ) = slot.toInt := Int.toNat_of_nonneg low
    refine Int16.toInt_inj.mp ?_
    rw [Int16.toInt_ofNat_of_lt (by omega), clamped]

end Numbers

section Inventory

/-- The selection and the nine items of the hotbar. -/
def hotbar (inventory : InventoryState) : Int32 × (Fin 9 → Slot) :=
  (inventory.selectedHotbarSlot, fun k => itemAt inventory (hotbarStart + k))

variable {s next : InventoryState}

private theorem hotbar_congr (player : next.playerInventory.slots = s.playerInventory.slots)
    (selected : next.selectedHotbarSlot = s.selectedHotbarSlot) : hotbar next = hotbar s := by
  simp only [hotbar, itemAt, player, selected]

private theorem hotbar_finishes (finishes : Finishes s next) : hotbar next = hotbar s :=
  hotbar_congr (congrArg slots finishes.player) finishes.hotbar

/-- Writing beyond the end: what is added in between is the default. -/
theorem getD_grown_set (slots : List Slot) (index place : ℕ) (item : Slot) :
    ((slots ++ List.replicate (index + 1 - slots.length) emptySlot).set index item).getD place emptySlot =
      if index = place then item else slots.getD place emptySlot := by
  rw [getD_eq_getElem?_getD, getD_eq_getElem?_getD, getElem?_set]
  by_cases same : index = place
  · have inside : index < (slots ++ List.replicate (index + 1 - slots.length) emptySlot).length := by
      rw [length_append, length_replicate]
      omega
    rw [if_pos same, if_pos same, if_pos inside]
    rfl
  · rw [if_neg same, if_neg same, getElem?_append, getElem?_replicate]
    by_cases known : place < slots.length
    · rw [if_pos known]
    · rw [if_neg known, getElem?_eq_none (Nat.le_of_not_lt known)]
      split <;> rfl

private theorem setSlot_at (window : Window) {slot : Int16} {place : ℕ} (item : Slot)
    (found : slotIndex slot = some place) (small : place < maxWindowSlots) :
    (window.setSlot slot item).1 = true ∧ (window.setSlot slot item).2.slots.getD place emptySlot = item := by
  unfold setSlot
  rw [found]
  dsimp only
  rw [if_neg (Nat.not_le.mpr small)]
  exact ⟨rfl, (getD_grown_set _ _ _ _).trans (if_pos rfl)⟩

theorem setSlot_elsewhere (window : Window) {slot : Int16} {place : ℕ} (item : Slot)
    (other : slotIndex slot ≠ some place) :
    (window.setSlot slot item).2.slots.getD place emptySlot = window.slots.getD place emptySlot := by
  unfold setSlot
  split
  · rfl
  · rename_i index found
    split
    · rfl
    · refine (getD_grown_set _ _ _ _).trans (if_neg ?_)
      rintro rfl
      exact other found

/-- A change of a window that is not the player's, or that keeps the player's hotbar. -/
theorem hotbar_windowMut {α : Type} (s : InventoryState) (windowId : Int32) (change : Window → α × Window)
    (kept : windowId = playerInventoryWindowId → ∀ k : Fin 9,
      (change s.playerInventory).2.slots.getD (hotbarStart + k) emptySlot = itemAt s (hotbarStart + k)) :
    hotbar (s.windowMut windowId change).2 = hotbar s := by
  unfold windowMut
  split
  · rename_i own
    exact Prod.ext rfl (funext (kept own))
  · cases s.openWindow with
    | none => rfl
    | some window =>
      dsimp only
      split <;> rfl

private theorem hotbar_onWindowItems (s : InventoryState) (p : PacketWindowItems)
    (kept : p.windowId = playerInventoryWindowId → ∀ k : Fin 9,
      p.items.getD (hotbarStart + k) emptySlot = itemAt s (hotbarStart + k)) :
    hotbar (s.onWindowItems p).2 = hotbar s := by
  have refreshed : hotbar (s.windowMut p.windowId fun window => window.refresh p).2 = hotbar s := by
    refine hotbar_windowMut s p.windowId _ fun own k => ?_
    rw [← kept own k, refresh, getD_eq_getElem?_getD, getD_eq_getElem?_getD, getElem?_take, if_pos (hotbar_inside k)]
  unfold onWindowItems
  dsimp only
  split
  · exact refreshed
  · exact (hotbar_finishes (finishAll_finishes _ _ _)).trans refreshed

private theorem hotbar_onSetSlot (s : InventoryState) (p : PacketSetSlot)
    (kept : p.windowId = playerInventoryWindowId → ∀ k : Fin 9, p.slot = .ofNat (hotbarStart + k) →
      p.item = itemAt s (hotbarStart + k)) :
    hotbar (s.onSetSlot p).2 = hotbar s := by
  have written : hotbar (s.windowMut p.windowId fun window =>
      { window with stateId := p.stateId }.setSlot p.slot p.item).2 = hotbar s := by
    refine hotbar_windowMut s p.windowId _ fun own k => ?_
    by_cases here : slotIndex p.slot = some (hotbarStart + k)
    · rw [(setSlot_at _ _ here (hotbar_inside k)).2]
      exact kept own k (slotIndex_ofNat here)
    · exact setSlot_elsewhere _ _ here
  unfold onSetSlot
  split
  · rfl
  · dsimp only
    split
    · exact (hotbar_finishes (finishAll_finishes _ _ _)).trans written
    · exact written

/-- Changes of transactions, and opening and closing windows, keep the hotbar. -/
theorem hotbar_changes {reach : Reach} {events : List InventoryEvent} (changes : Changes reach s events next)
    (stays : ∀ refreshes, reach ≠ .contents refreshes) : hotbar next = hotbar s := by
  induction changes with
  | none s => rfl
  | cons change rest ih =>
    refine ih.trans ?_
    cases change with
    | edit edit =>
      cases edit with
      | contents => exact absurd rfl (stays _)
      | opens p free | closes found drag => rfl
    | send id | finish outcome pending => rfl

/-- The calls that clicking, closing and the passing of time make keep the hotbar. -/
theorem hotbar_ownCall (s : InventoryState) (call : InventoryStep) (own : ownCall call = true) :
    hotbar (s.step call).2 = hotbar s := by
  have move := step_moves s call
  generalize (s.step call).1 = events, (s.step call).2 = next at move
  cases move with
  | changes changes =>
    refine hotbar_changes changes fun refreshes => ?_
    cases call with
    | packet packet =>
      cases packet with
      | closeWindow p => simp [reach]
      | _ => cases own
    | selectHotbarSlot => cases own
    | _ => simp [reach]
  | reject id error | queue => rfl

private theorem hotbar_onCraftProgressBar (s : InventoryState) (p : PacketCraftProgressBar) :
    hotbar (s.onCraftProgressBar p).2 = hotbar s := by
  refine hotbar_windowMut s p.windowId _ fun _ k => ?_
  unfold setProperty
  split <;> rfl

end Inventory

section Display

/-- The HUD knows the hotbar of the inventory. -/
structure Mirrors (hud : HudState) (inventory : InventoryState) : Prop where
  selected : ∃ k : Fin 9, hud.selectedHotbarSlot = .ofNat k ∧ inventory.selectedHotbarSlot = .ofNat k
  held : hud.heldItem = (hud.hotbar.lookup hud.selectedHotbarSlot).getD emptySlot
  items : ∀ k : Fin 9, (hud.hotbar.lookup (.ofNat k)).getD emptySlot = itemAt inventory (hotbarStart + k)

variable {hud : HudState} {inventory next : InventoryState}

theorem Mirrors.shown {state : PlayState K W G} (mirrors : Mirrors state.hud state.inventory) : Shown state := by
  obtain ⟨k, shown, selected⟩ := mirrors.selected
  refine ⟨shown.trans selected.symm, ?_⟩
  rw [mirrors.held, shown, mirrors.items k, selectedItem, selected, toNatClampNeg_hotbar]

/-- Nothing is known yet. -/
theorem mirrors_new : Mirrors .new .new where
  selected := ⟨0, rfl, rfl⟩
  held := rfl
  items _ := rfl

theorem Mirrors.congr (mirrors : Mirrors hud inventory) (same : hotbar next = hotbar inventory) : Mirrors hud next where
  selected := by
    obtain ⟨k, shown, selected⟩ := mirrors.selected
    exact ⟨k, shown, (congrArg Prod.fst same).trans selected⟩
  held := mirrors.held
  items k := (mirrors.items k).trans (congrFun (congrArg Prod.snd same) k).symm

theorem Mirrors.heldItemSlot (mirrors : Mirrors hud inventory) (p : PacketHeldItemSlot) :
    Mirrors (hud.onSelectedHotbar p).2 (inventory.onHeldItemSlot p).2 := by
  unfold HudState.onSelectedHotbar onHeldItemSlot select
  by_cases inHotbar : 0 ≤ p.slot ∧ p.slot ≤ 8
  · rw [if_pos inHotbar, if_pos inHotbar]
    obtain ⟨k, same⟩ := hotbar_slot inHotbar.1 inHotbar.2
    exact ⟨⟨k, same, same⟩, rfl, mirrors.items⟩
  · rw [if_neg inHotbar, if_neg inHotbar]
    exact mirrors

/-- A slot that is not on the hotbar. -/
theorem hotbar_onSetPlayerInventory (s : InventoryState) {p : PacketSetPlayerInventory}
    (outside : ¬(HudState.playerInventoryHotbarStart ≤ p.slotId ∧ p.slotId ≤ HudState.playerInventoryHotbarEnd)) :
    hotbar (s.onSetPlayerInventory p).2 = hotbar s := by
  unfold onSetPlayerInventory
  split
  · rfl
  · rename_i slot fits
    dsimp only
    split
    · refine Prod.ext rfl (funext fun k => setSlot_elsewhere _ _ fun found => outside ?_)
      have same : p.slotId.toInt = hotbarStart + k := by
        rw [← tryInt16_toInt fits, slotIndex_ofNat found, Int16.toInt_ofNat_of_lt (by rw [hotbarStart]; omega)]
        rfl
      rw [hotbarStart] at same
      exact ⟨le_iff_toInt_le.mpr (by rw [same]; exact Int.le_add_of_nonneg_right (Int.natCast_nonneg _)),
        le_iff_toInt_le.mpr (by rw [same]; change _ ≤ (44 : ℤ); omega)⟩
    · rfl

theorem Mirrors.setPlayerInventory (mirrors : Mirrors hud inventory) (p : PacketSetPlayerInventory) :
    Mirrors (hud.onPlayerInventory p).2 (inventory.onSetPlayerInventory p).2 := by
  by_cases inHotbar : HudState.playerInventoryHotbarStart ≤ p.slotId ∧ p.slotId ≤ HudState.playerInventoryHotbarEnd
  · obtain ⟨k, same⟩ := inventory_slot inHotbar.1 inHotbar.2
    obtain ⟨minus, fits, found⟩ := inventory_slot_forms k
    rw [← same] at minus fits
    have applied := setSlot_at inventory.playerInventory p.contents found (hotbar_inside k)
    unfold HudState.onPlayerInventory onSetPlayerInventory
    rw [if_pos inHotbar, fits]
    dsimp only
    rw [if_pos applied.1, minus]
    refine ⟨mirrors.selected, ?_, fun j => ?_⟩
    · rw [AList.lookup_insert_eq_ite, mirrors.held]
      by_cases held : hud.selectedHotbarSlot = .ofNat k
      · rw [if_pos held.symm, if_pos held]
        rfl
      · rw [if_neg (Ne.symm held), if_neg held]
    · rw [AList.lookup_insert_eq_ite]
      by_cases here : j = k
      · subst here
        rw [if_pos rfl]
        exact applied.2.symm
      · rw [if_neg (mt (ofNat_hotbar_injective j k) here), mirrors.items j]
        refine (setSlot_elsewhere _ _ ?_).symm
        rw [found]
        simpa [Fin.ext_iff] using Ne.symm here
  · have outside := mirrors.congr (hotbar_onSetPlayerInventory inventory inHotbar)
    unfold HudState.onPlayerInventory
    rwa [if_neg inHotbar]

end Display

section Steps

/-- The display and the hotbar it stands for. -/
def displayed (s : PlayLoop K W G) : (Int32 × Slot × AList fun _ : Int32 => Slot) × Int32 × (Fin 9 → Slot) :=
  ((s.state.hud.selectedHotbarSlot, s.state.hud.heldItem, s.state.hud.hotbar), hotbar s.state.inventory)

private theorem stored_displayed : Stored (Handler.Agree (displayed : PlayLoop K W G → _)) where
  sends _ _ _ := rfl
  emits _ _ _ := rfl
  aside _ _ _ _ _ _ := rfl
  wire _ _ := rfl
  body _ _ _ _ _ := rfl
  modes _ _ _ := rfl

def Right (s : PlayLoop K W G) : Prop := Mirrors s.state.hud s.state.inventory

theorem Right.congr {s next : PlayLoop K W G} (right : Right s) (same : displayed next = displayed s) : Right next := by
  obtain ⟨selected, held, items⟩ := right
  have display := congrArg Prod.fst same
  have shown : next.state.hud.selectedHotbarSlot = s.state.hud.selectedHotbarSlot := congrArg Prod.fst display
  have item : next.state.hud.heldItem = s.state.hud.heldItem := congrArg (·.2.1) display
  have known : next.state.hud.hotbar = s.state.hud.hotbar := congrArg (·.2.2) display
  refine Mirrors.congr ⟨?_, ?_, ?_⟩ (congrArg Prod.snd same)
  · rwa [shown]
  · rwa [item, known, shown]
  · rwa [known]

theorem callInventory_displayed {call : InventoryStep} (s : PlayLoop K W G)
    (kept : hotbar (s.state.inventory.step call).2 = hotbar s.state.inventory) :
    displayed (callInventory call s).2 = displayed s :=
  Prod.ext rfl kept

private theorem ownCall_displayed (call : InventoryStep) (own : ownCall call = true) :
    Handler.Leaves displayed (callInventory call : PlayM K W G Unit) :=
  fun s => callInventory_displayed s (hotbar_ownCall _ call own)

private theorem onInventory_right {s : PlayLoop K W G} {p : InventoryPacket} (right : Right s)
    (mirrored : Mirrored s (.packet (.inventory p) : LoopInput K G)) : Right (handle (onInventory p) s) := by
  have kept (same : hotbar (s.state.inventory.onPacket p).2 = hotbar s.state.inventory) :
      Right (callInventory (.packet p) s).2 :=
    right.congr (callInventory_displayed s same)
  cases p with
  | heldItemSlot p => exact Mirrors.heldItemSlot right p
  | setPlayerInventory p => exact Mirrors.setPlayerInventory right p
  | openWindow p => exact kept (hotbar_changes (onOpenWindow_changes _ p) (by simp))
  | closeWindow p => exact kept (hotbar_ownCall s.state.inventory (.packet (.closeWindow p)) rfl)
  | windowItems p => exact kept (hotbar_onWindowItems _ p mirrored)
  | setSlot p => exact kept (hotbar_onSetSlot _ p mirrored)
  | setCursorItem p => exact kept rfl
  | craftProgressBar p => exact kept (hotbar_onCraftProgressBar _ p)

variable {around : Surroundings K W G}

private theorem select_right {s : PlayLoop K W G} {slot : Int16} (right : Right s)
    (mirrored : 0 ≤ slot ∧ slot ≤ 8 → slot.toInt32 = s.state.inventory.selectedHotbarSlot) :
    Right (handle (sendSelectHotbarSlot around slot) s) := by
  have kept : hotbar (s.state.inventory.step (.selectHotbarSlot slot)).2 = hotbar s.state.inventory := by
    change hotbar (s.state.inventory.select slot.toInt32).2 = _
    unfold select
    split
    · rename_i inHotbar
      have low : 0 ≤ slot.toInt := Int16.toInt_toInt32 slot ▸ le_iff_toInt_le.mp inHotbar.1
      have high : slot.toInt ≤ 8 := Int16.toInt_toInt32 slot ▸ le_iff_toInt_le.mp inHotbar.2
      have same := mirrored ⟨Int16.le_iff_toInt_le.mpr low, Int16.le_iff_toInt_le.mpr high⟩
      exact hotbar_congr rfl same
    · rfl
  rcases send_cases around (.heldItemSlot slot) s with refused | sent
  · rw [handle, sendSelectHotbarSlot, Handler.bind_error refused]
    exact right
  · rw [handle, sendSelectHotbarSlot, Handler.bind_ok sent]
    exact right.congr (callInventory_displayed (taken s (.heldItemSlot slot)) kept)

variable [Field K] [LinearOrder K] [FloorRing K]

private theorem steps_right {s next : PlayLoop K W G} {input : LoopInput K G} (steps : Steps around s input next)
    (right : Right s) (mirrored : Mirrored s input) : Right next := by
  have left {m : PlayM K W G Unit} (leaves : Handler.Leaves displayed m) : Right (handle m s) :=
    right.congr (handle_within (fun _ _ => rfl) leaves s)
  cases steps with
  | packet p =>
    by_cases carries : ∃ packet, p = .inventory packet
    · obtain ⟨packet, rfl⟩ := carries
      exact onInventory_right right mirrored
    · exact left (stored_displayed.handleClientbound fun packet same => carries ⟨packet, same⟩)
  | startConfiguration => exact left (stored_displayed.acknowledgeConfiguration fun _ _ => rfl)
  | command command entropy =>
    by_cases selects : ∃ slot, command = .selectHotbarSlot slot
    · obtain ⟨slot, rfl⟩ := selects
      exact select_right right mirrored
    · exact left (stored_displayed.handleCommand ownCall_displayed (fun slot same => selects ⟨slot, same⟩) entropy)
  | tick => exact left (stored_displayed.tick fun clock => ownCall_displayed _ rfl)
  | configured => exact mirrors_new
  | ends | ignores => exact right

end Steps

section Results

variable [Field K] [LinearOrder K] [FloorRing K]

theorem hotbar_is_shown (around : Surroundings K W G) (dimensionTypes : List DimensionType) (room : ℕ)
    (inputs : List (LoopInput K G)) (mirrored : Along (step around) Mirrored (.new dimensionTypes room) inputs) :
    Shown (run around dimensionTypes room inputs).state := by
  have kept (s : PlayLoop K W G) (input : LoopInput K G) (right : Right s) (mirrored : Mirrored s input) :
      Right (s.step around input) :=
    steps_right (step_steps around s input) right mirrored
  exact Mirrors.shown (mirrored.invariant kept mirrors_new)

def sword : Slot := ⟨1, .v0⟩

/-- The server fills a slot and selects it; selecting it again by command changes nothing. -/
theorem server_selection_is_shown :
    Shown (run openPlain overworld 1 [.packet (.inventory (.setPlayerInventory ⟨39, sword⟩)),
      .packet (.inventory (.heldItemSlot ⟨3⟩)), .command (.selectHotbarSlot 3) ()]).state := by
  refine hotbar_is_shown openPlain overworld 1 _ ⟨trivial, trivial, fun _ => ?_, trivial⟩
  decide +kernel

/-- A selection by command is not shown, and neither is an item that comes with the whole window. -/
theorem own_selection_and_refresh_are_not_shown :
    ¬Shown (run openPlain overworld 1 [.command (.selectHotbarSlot 1) ()]).state ∧
    ¬Shown (run openPlain overworld 1 [.packet (.inventory (.windowItems
      ⟨playerInventoryWindowId, 1, List.replicate 36 emptySlot ++ [sword], emptySlot⟩))]).state := by
  refine ⟨fun shown => absurd shown.selected ?_, fun shown => absurd shown.held ?_⟩
  · decide +kernel
  · decide +kernel

end Results

end MineRider.Soundness.Hotbar
