import Mathlib.Data.List.Induction
import MineRider.Machine.Run
import MineRider.Soundness.InventoryMoves

/-! # Drags

A drag is a start click, clicks that add slots, and an end click. The inventory remembers the button of the drag
in progress and refuses other clicks, and it gives a drag up when a window opens or closes. It does not remember
the window, so a drag that was started in the player's inventory can be continued in the open container.

The open container cannot change during a drag. As long as drag clicks are for the container that is open, or
for the player's inventory while none is, accepted drag clicks form complete drags.
-/

namespace MineRider.Soundness.Drags

open List Model.Minecraft InventoryState InventoryMoves Machine

section Statement

/-- What is to be seen of a drag: the clicks that were accepted, and where a drag is given up. -/
inductive Observed where
  | accepted (windowId : Int32) (click : InventoryClick)
  | windowChanged
deriving DecidableEq

def reportsWindow : InventoryEvent → Bool
  | .windowOpened _ | .windowClosed _ => true
  | _ => false

def observe (s : InventoryState) (call : InventoryStep) : List Observed :=
  match call with
  | .prepareClick request tick creativeMode =>
    if (s.prepareClick request tick creativeMode).1.isOk then [.accepted request.windowId request.click] else []
  | _ => if (s.step call).1.any reportsWindow then [.windowChanged] else []

/-- The observations of the calls of a run. -/
def trace (calls : List InventoryStep) : List Observed :=
  (calls.foldl (fun (seen, s) call => (seen ++ observe s call, (s.step call).2)) ([], InventoryState.new)).1

def isDrag : InventoryClick → Bool
  | .quickCraft .. => true
  | _ => false

/-- A drag is in progress: since its start, slots have been added and nothing else has happened. -/
def Open (button : DragButton) (windowId : Int32) (seen : List Observed) : Prop :=
  ∃ before slot between, seen = before ++ .accepted windowId (.quickCraft .start button slot) :: between ∧
    ∀ observed ∈ between, ∃ otherId other slot, observed = .accepted otherId (.quickCraft .addSlot other slot)

/-- The accepted drag clicks form complete drags. -/
structure Complete (seen : List Observed) : Prop where
  /-- An added slot or an end has the button and the window of the start. -/
  continued : ∀ {before after windowId phase button slot}, phase ≠ .start →
    seen = before ++ .accepted windowId (.quickCraft phase button slot) :: after → Open button windowId before
  /-- During a drag no other drag starts and no other click is accepted. -/
  undisturbed : ∀ {before after windowId click},
    (∀ phase button slot, click = .quickCraft phase button slot → phase = .start) →
    seen = before ++ .accepted windowId click :: after → ∀ button otherId, ¬ Open button otherId before

/-- The id of the window that is in front: the container, or the player's inventory while none is open. -/
def front (s : InventoryState) : Int32 :=
  match s.openWindow with
  | some window => window.id
  | none => playerInventoryWindowId

/-- Drag clicks are for the window in front. -/
def InFront (s : InventoryState) : InventoryStep → Prop
  | .prepareClick request _ _ => isDrag request.click = true → request.windowId = front s
  | _ => True

end Statement

section Observations

variable {seen : List Observed} {button : DragButton} {windowId : Int32}

private theorem snoc_eq_split {observed x : Observed} {before after : List Observed}
    (split : seen ++ [observed] = before ++ x :: after) :
    (before = seen ∧ x = observed) ∨ ∃ rest, seen = before ++ x :: rest := by
  rcases eq_nil_or_concat after with rfl | ⟨rest, last, rfl⟩
  · obtain ⟨rfl, same⟩ := append_inj' split rfl
    cases same
    exact .inl ⟨rfl, rfl⟩
  · rw [concat_eq_append, ← cons_append, ← append_assoc] at split
    exact .inr ⟨rest, (append_inj' split rfl).1⟩

theorem Complete.snoc (complete : Complete seen) {observed : Observed}
    (continued : ∀ windowId phase button slot, phase ≠ .start →
      observed = .accepted windowId (.quickCraft phase button slot) → Open button windowId seen)
    (undisturbed : ∀ windowId click, (∀ phase button slot, click = .quickCraft phase button slot → phase = .start) →
      observed = .accepted windowId click → ∀ button otherId, ¬ Open button otherId seen) :
    Complete (seen ++ [observed]) where
  continued later split := by
    rcases snoc_eq_split split with ⟨rfl, rfl⟩ | ⟨rest, earlier⟩
    · exact continued _ _ _ _ later rfl
    · exact complete.continued later earlier
  undisturbed other split := by
    rcases snoc_eq_split split with ⟨rfl, rfl⟩ | ⟨rest, earlier⟩
    · exact undisturbed _ _ other rfl
    · exact complete.undisturbed other earlier

theorem not_open_nil : ¬ Open button windowId [] := by
  rintro ⟨before, slot, between, split, _⟩
  cases before <;> cases split

/-- What the last observation says about the drag in progress. -/
theorem open_snoc {observed : Observed} : Open button windowId (seen ++ [observed]) ↔
    (∃ slot, observed = .accepted windowId (.quickCraft .start button slot)) ∨
      (∃ otherId other slot, observed = .accepted otherId (.quickCraft .addSlot other slot)) ∧
        Open button windowId seen := by
  constructor
  · rintro ⟨before, slot, between, split, added⟩
    rcases eq_nil_or_concat between with rfl | ⟨rest, last, rfl⟩
    · obtain ⟨_, same⟩ := append_inj' split rfl
      cases same
      exact .inl ⟨slot, rfl⟩
    · rw [concat_eq_append] at split added
      rw [← cons_append, ← append_assoc] at split
      obtain ⟨same, lastSame⟩ := append_inj' split rfl
      cases lastSame
      refine .inr ⟨added _ (by simp), before, slot, rest, same, fun other member => added other ?_⟩
      exact mem_append_left _ member
  · rintro (⟨slot, rfl⟩ | ⟨addition, before, slot, between, rfl, added⟩)
    · exact ⟨seen, slot, [], rfl, fun _ member => absurd member not_mem_nil⟩
    · refine ⟨before, slot, between ++ [observed], by simp, ?_⟩
      exact forall_mem_concat.mpr ⟨added, addition⟩

end Observations

section Steps

variable {s next : InventoryState}

/-- Neither the drag nor the window in front changes. -/
structure Steady (s next : InventoryState) : Prop where
  drag : next.drag = s.drag
  front : front next = front s

theorem Steady.refl (s : InventoryState) : Steady s s := ⟨rfl, rfl⟩

theorem Steady.trans {middle : InventoryState} (first : Steady s middle) (second : Steady middle next) :
    Steady s next := ⟨second.drag.trans first.drag, second.front.trans first.front⟩

private theorem contents_steady {refreshes : Bool} (contents : Contents refreshes s next) : Steady s next := by
  refine ⟨contents.drag, ?_⟩
  have opened := contents.opened
  unfold Drags.front
  generalize s.openWindow = before, next.openWindow = now at opened
  cases opened with
  | none => rfl
  | some updates => exact updates.id

/-- What a call does to a drag, clicks apart: nothing, or it reports a window and gives the drag up. -/
inductive Carries (s : InventoryState) : List InventoryEvent → InventoryState → Prop where
  | keeps {events : List InventoryEvent} {next : InventoryState} (silent : events.any reportsWindow = false)
      (steady : Steady s next) : Carries s events next
  | gives {events : List InventoryEvent} {next : InventoryState} (reported : events.any reportsWindow = true)
      (none : next.drag = none) : Carries s events next

private theorem silent_of_contents {refreshes : Bool} {event : InventoryEvent}
    (isContents : ofContents refreshes event = true) :
    ¬ reportsWindow event = true := by
  cases event <;> first | exact Bool.false_ne_true | cases isContents

private theorem changes_carry {reach : Reach} {events : List InventoryEvent} (changes : Changes reach s events next)
    (stays : reach ≠ .windows) : events.any reportsWindow = false ∧ Steady s next := by
  induction changes with
  | none s => exact ⟨rfl, .refl s⟩
  | @cons s middle next events more change rest ih =>
    have first : events.any reportsWindow = false ∧ Steady s middle := by
      cases change with
      | edit edit =>
        cases edit with
        | contents told contents =>
          exact ⟨any_eq_false.mpr fun event member => silent_of_contents (told event member),
            contents_steady contents⟩
        | opens | closes => exact absurd rfl stays
      | send id | finish outcome pending => exact ⟨rfl, rfl, rfl⟩
    exact ⟨by rw [any_append, first.1, ih.1]; rfl, first.2.trans ih.2⟩

theorem step_carries (s : InventoryState) (call : InventoryStep)
    (other : ∀ request tick creativeMode, call ≠ .prepareClick request tick creativeMode) :
    Carries s (s.step call).1 (s.step call).2 := by
  have carried {events : List InventoryEvent} {next : InventoryState} (changes : Changes (reach call) s events next)
      (stays : reach call ≠ .windows) : Carries s events next :=
    .keeps (changes_carry changes stays).1 (changes_carry changes stays).2
  cases call with
  | packet packet =>
    cases packet with
    | openWindow p => exact .gives (by simp [step, onPacket, onOpenWindow, reportsWindow]) rfl
    | closeWindow p =>
      simp only [step, onPacket, onCloseWindow]
      split_ifs
      · exact .gives (by simp [reportsWindow]) (changes_carry (finishAll_changes .transactions ..) (by simp)).2.drag
      · exact .keeps rfl (.refl s)
    | _ => exact carried (onPacket_changes s _) (by simp [reach])
  | selectHotbarSlot slot => exact carried (select_changes s _) (by simp [reach])
  | prepareClick request tick creativeMode => exact absurd rfl (other request tick creativeMode)
  | rejectTransaction id error => exact .keeps rfl ⟨rfl, rfl⟩
  | markSent id => exact carried (markSent_changes s id) (by simp [reach])
  | expireTransactions tick => exact carried (finishAll_changes ..) (by simp [reach])

/-- What an accepted click does to the drag. -/
theorem validateClick_drag {drag next : Option DragState} {click : InventoryClick} {slotCount : ℕ}
    {creativeMode : Bool} {fields : Int16 × Int8 × Int32}
    (accepted : validateClick drag click slotCount creativeMode = (.ok fields, next)) :
    (isDrag click = false ∧ drag = none ∧ next = none) ∨
      ∃ phase button slot, click = .quickCraft phase button slot ∧ nextDrag drag phase button = .ok next := by
  have plain : ∀ {fields'}, plainClick drag fields' = (.ok fields, next) → drag = none ∧ next = none := by
    intro fields' accepted
    cases drag with
    | some drag => cases accepted
    | none =>
      cases accepted
      exact ⟨rfl, rfl⟩
  cases click with
  | quickCraft phase button slot =>
    refine .inr ⟨phase, button, slot, rfl, ?_⟩
    simp only [validateClick, validateDrag] at accepted
    split_ifs at accepted
    · cases accepted
    cases wired : dragWireSlot phase slot slotCount with
    | error error =>
      rw [wired] at accepted
      cases accepted
    | ok wireSlot =>
      cases moved : nextDrag drag phase button with
      | error error =>
        rw [wired, moved] at accepted
        cases accepted
      | ok after =>
        rw [wired, moved] at accepted
        cases accepted
        rfl
  | _ => exact .inl ⟨rfl, plain accepted⟩

end Steps

section Runs

/-- The state agrees with what has been seen. -/
structure Follows (seen : List Observed) (s : InventoryState) : Prop where
  complete : Complete seen
  progress : ∃ drag : Option (DragButton × Int32), s.drag = drag.map (fun drag => ⟨drag.1⟩) ∧
    (∀ button windowId, Open button windowId seen ↔ drag = some (button, windowId)) ∧
    ∀ button windowId, drag = some (button, windowId) → windowId = front s

variable {seen : List Observed} {s next : InventoryState}

theorem Complete.nil : Complete [] where
  continued _ split := by simp at split
  undisturbed _ split := by simp at split

theorem Follows.new : Follows [] .new where
  complete := .nil
  progress := ⟨none, rfl, fun _ _ => ⟨fun opened => absurd opened not_open_nil, fun none => by cases none⟩,
    fun _ _ none => by cases none⟩

section

variable (follows : Follows seen s)

include follows

theorem Follows.steady (steady : Steady s next) : Follows seen next := by
  obtain ⟨drag, same, opened, inFront⟩ := follows.progress
  exact ⟨follows.complete, drag, steady.drag.trans same, opened, fun button windowId some =>
    (inFront button windowId some).trans steady.front.symm⟩

theorem Follows.given_up (none : next.drag = none) :
    Follows (seen ++ [.windowChanged]) next where
  complete := follows.complete.snoc (fun _ _ _ _ _ other => by cases other) fun _ _ _ other => by cases other
  progress := by
    refine ⟨Option.none, none, fun button windowId => ?_, fun _ _ none => by cases none⟩
    simp [open_snoc]

/-- A click that is not part of a drag is accepted only while there is none. -/
theorem Follows.plain {windowId : Int32} {click : InventoryClick}
    (notDrag : isDrag click = false) (before : s.drag = none) (after : next.drag = none) :
    Follows (seen ++ [.accepted windowId click]) next := by
  obtain ⟨drag, same, opened, _⟩ := follows.progress
  have none : drag = none := by
    cases drag with
    | none => rfl
    | some drag =>
      rw [before] at same
      cases same
  have different : ∀ phase button slot, click ≠ .quickCraft phase button slot := by
    rintro phase button slot rfl
    cases notDrag
  refine ⟨follows.complete.snoc ?_ ?_, Option.none, after, ?_, fun _ _ none => by cases none⟩
  · intro _ phase button slot _ same
    cases same
    exact absurd rfl (different phase button slot)
  · intro _ _ _ _ button otherId inProgress
    rw [opened, none] at inProgress
    cases inProgress
  · simp [open_snoc, different]

/-- A drag click that is accepted fits the drag in progress. -/
theorem Follows.drag {phase : DragPhase} {button : DragButton} {slot : Option Int16}
    {after : Option DragState} (moved : nextDrag s.drag phase button = .ok after) (drag : next.drag = after)
    (sameFront : front next = front s) :
    Follows (seen ++ [.accepted (front s) (.quickCraft phase button slot)]) next := by
  obtain ⟨progress, same, opened, inFront⟩ := follows.progress
  rw [same] at moved
  cases phase with
  | start =>
    have idle : progress = none := by
      cases progress with
      | none => rfl
      | some progress => cases moved
    subst idle
    cases moved
    refine ⟨follows.complete.snoc ?_ ?_, some (button, front s), drag, ?_, ?_⟩
    · intro _ _ _ _ later same
      cases same
      exact absurd rfl later
    · intro _ _ _ _ other otherId inProgress
      rw [opened] at inProgress
      cases inProgress
    · simp [open_snoc, eq_comm, and_comm]
    · intro _ _ started
      cases started
      exact sameFront.symm
  | addSlot =>
    obtain ⟨held, rfl, rfl⟩ : ∃ windowId, progress = some (button, windowId) ∧ after = some ⟨button⟩ := by
      cases progress with
      | none => cases moved
      | some progress =>
        obtain ⟨other, windowId⟩ := progress
        simp only [nextDrag, Option.map_some, Option.any_some, decide_eq_true_eq] at moved
        split_ifs at moved with fits
        cases moved
        exact ⟨windowId, by rw [fits], by rw [fits]⟩
    obtain rfl := inFront button held rfl
    refine ⟨follows.complete.snoc ?_ ?_, some (button, front s), drag, ?_, ?_⟩
    · intro _ _ _ _ _ same
      cases same
      exact (opened button (front s)).mpr rfl
    · intro _ _ starts same
      cases same
      exact absurd (starts .addSlot button slot rfl) (by simp)
    · intro other otherId
      rw [open_snoc, opened]
      simp
    · intro _ _ started
      cases started
      exact sameFront.symm
  | finish =>
    obtain ⟨held, rfl, rfl⟩ : ∃ windowId, progress = some (button, windowId) ∧ after = none := by
      cases progress with
      | none => cases moved
      | some progress =>
        obtain ⟨other, windowId⟩ := progress
        simp only [nextDrag, Option.map_some, Option.any_some, decide_eq_true_eq] at moved
        split_ifs at moved with fits
        cases moved
        exact ⟨windowId, by rw [fits], rfl⟩
    obtain rfl := inFront button held rfl
    refine ⟨follows.complete.snoc ?_ ?_, none, drag, ?_, fun _ _ none => by cases none⟩
    · intro _ _ _ _ _ same
      cases same
      exact (opened button (front s)).mpr rfl
    · intro _ _ starts same
      cases same
      exact absurd (starts .finish button slot rfl) (by simp)
    · simp [open_snoc]

/-- One call. -/
theorem Follows.step {call : InventoryStep} (inFront : InFront s call) :
    Follows (seen ++ observe s call) (s.step call).2 := by
  by_cases click : ∃ request tick creativeMode, call = .prepareClick request tick creativeMode
  · obtain ⟨request, tick, creativeMode, rfl⟩ := click
    obtain ⟨error, refused⟩ | ⟨window, slot, button, mode, drag, -, -, checked, queued, -⟩ :=
      InventoryFrames.prepareClick_refused_or_queued s request tick creativeMode
    · simp only [observe, InventoryState.step, refused, Except.isOk, Except.toBool, Bool.false_eq_true, if_false,
        append_nil]
      exact follows
    · simp only [observe, InventoryState.step, queued, Except.isOk, Except.toBool, if_true]
      obtain ⟨notDrag, before, after⟩ | ⟨phase, button, slot, isQuickCraft, moved⟩ := validateClick_drag checked
      · exact follows.plain notDrag before after
      · have windowId : request.windowId = front s := inFront (by rw [isQuickCraft]; rfl)
        rw [windowId, isQuickCraft]
        exact follows.drag moved rfl rfl
  · have other : ∀ request tick creativeMode, call ≠ .prepareClick request tick creativeMode :=
      fun request tick creativeMode same => click ⟨request, tick, creativeMode, same⟩
    have observed : observe s call = if (s.step call).1.any reportsWindow then [.windowChanged] else [] := by
      cases call with
      | prepareClick request tick creativeMode => exact absurd rfl (other request tick creativeMode)
      | _ => rfl
    rw [observed]
    cases step_carries s call other with
    | keeps silent steady =>
      rw [silent, if_neg Bool.false_ne_true, append_nil]
      exact follows.steady steady
    | gives reported none =>
      rw [reported, if_pos rfl]
      exact follows.given_up none

end

/-- The states of a run. -/
def states (s : InventoryState) (call : InventoryStep) : InventoryState := (s.step call).2

theorem trace_concat (calls : List InventoryStep) (call : InventoryStep) :
    trace (calls ++ [call]) = trace calls ++ observe (calls.foldl states .new) call := by
  have follow : ∀ (seen : List Observed) (s : InventoryState),
      (calls.foldl (fun (seen, s) call => (seen ++ observe s call, (s.step call).2)) (seen, s)).2 =
        calls.foldl states s := by
    induction calls with
    | nil => exact fun _ _ => rfl
    | cons first rest ih => exact fun seen s => ih (seen ++ observe s first) (s.step first).2
  rw [trace, foldl_concat, ← follow [] .new]
  rfl

theorem run_follows (calls : List InventoryStep) (inFront : Along states InFront .new calls) :
    Follows (trace calls) (calls.foldl states .new) := by
  induction calls using List.reverseRecOn with
  | nil => exact .new
  | append_singleton calls call ih =>
    obtain ⟨before, last⟩ := along_concat.mp inFront
    rw [trace_concat, foldl_concat]
    exact (ih before).step last

/-- In every run whose drag clicks are for the window in front, the accepted drag clicks form complete drags. -/
theorem drags_are_complete (calls : List InventoryStep) (inFront : Along states InFront .new calls) :
    Complete (trace calls) := (run_follows calls inFront).complete

/-- A drag over the one slot of a container. -/
def containerDrag : List InventoryStep :=
  [.packet (.openWindow ⟨5, 2, .compound []⟩), .packet (.windowItems ⟨5, 1, [emptySlot], emptySlot⟩),
    .prepareClick ⟨1, 1, 5, 1, .quickCraft .start .left none⟩ 0 false,
    .prepareClick ⟨2, 1, 5, 1, .quickCraft .addSlot .left (some 0)⟩ 0 false,
    .prepareClick ⟨3, 1, 5, 1, .quickCraft .finish .left none⟩ 0 false]

theorem drags_are_complete_demo :
    trace containerDrag = [.windowChanged, .accepted 5 (.quickCraft .start .left none),
        .accepted 5 (.quickCraft .addSlot .left (some 0)), .accepted 5 (.quickCraft .finish .left none)] ∧
      Complete (trace containerDrag) := by
  refine ⟨by decide, drags_are_complete containerDrag ?_⟩
  refine ⟨trivial, trivial, ?_, ?_, ?_, trivial⟩ <;> exact fun _ => rfl

/-- The drag starts in the player's inventory and goes on in the container. -/
def straddlingDrag : List InventoryStep :=
  [.packet (.openWindow ⟨5, 2, .compound []⟩), .packet (.windowItems ⟨5, 1, [emptySlot], emptySlot⟩),
    .prepareClick ⟨1, 1, 0, 0, .quickCraft .start .left none⟩ 0 false,
    .prepareClick ⟨2, 1, 5, 1, .quickCraft .addSlot .left (some 0)⟩ 0 false]

theorem drag_straddles_windows :
    trace straddlingDrag = [.windowChanged, .accepted 0 (.quickCraft .start .left none),
        .accepted 5 (.quickCraft .addSlot .left (some 0))] ∧ ¬ Complete (trace straddlingDrag) := by
  have seen : trace straddlingDrag = [.windowChanged, .accepted 0 (.quickCraft .start .left none)] ++
      .accepted 5 (.quickCraft .addSlot .left (some 0)) :: [] := by decide
  refine ⟨seen, fun complete => ?_⟩
  obtain ⟨before, slot, between, split, _⟩ := complete.continued (by decide) seen
  have started : Observed.accepted 5 (.quickCraft .start .left slot) ∈
      [.windowChanged, .accepted 0 (.quickCraft .start .left none)] := by
    rw [split]
    simp
  simp at started

end Runs

end MineRider.Soundness.Drags
