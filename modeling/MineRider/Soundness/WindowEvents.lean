import Mathlib.Data.List.Induction
import MineRider.Machine.Monitor
import MineRider.Soundness.InventoryMoves

/-! # The events of a window

A container is announced, becomes ready once and goes away. A monitor follows the window that is open through
the calls and the events they return: no window is announced over another, and the one that is announced waits
for the first refresh that addresses it. The inventory is in step with the monitor after every call, so what
the monitor refuses never happens, and what it waits for has happened before the next call.
-/

namespace MineRider.Soundness.WindowEvents

open Option List Model.Minecraft InventoryState InventoryMoves Machine Monitor

section Statement

/-- What a reader of a session sees, in order. -/
inductive Entry where
  | call (call : InventoryStep)
  | event (event : InventoryEvent)

/-- The calls, each before the events it returns. -/
def logFrom (s : InventoryState) : List InventoryStep → List Entry
  | [] => []
  | call :: rest => .call call :: (s.step call).1.map .event ++ logFrom (s.step call).2 rest

def log (calls : List InventoryStep) : List Entry := logFrom .new calls

namespace Entry

def opened (windowId : Int32) : Entry := .event (.windowOpened windowId)
def closed (windowId : Int32) : Entry := .event (.windowClosed windowId)

/-- The synchronization with `first_sync` set. -/
def ready (windowId stateId : Int32) : Entry := .event (.windowSynchronized windowId stateId true)

def refresh (p : PacketWindowItems) : Entry := .call (.packet (.windowItems p))

end Entry

/-- No window opens or closes. -/
def Settled (entries : List Entry) : Prop :=
  ∀ windowId, .opened windowId ∉ entries ∧ .closed windowId ∉ entries

/-- No `window_items` addresses the window. -/
def Unaddressed (windowId : Int32) (entries : List Entry) : Prop :=
  ∀ p : PacketWindowItems, p.windowId = windowId → .refresh p ∉ entries

/-- All of it belongs to the same call. -/
def SameCall (entries : List Entry) : Prop := ∀ call, .call call ∉ entries

/-- The windows of a log are well bracketed. -/
structure Bracketed (log : List Entry) : Prop where
  /-- A window is closed before another one is opened. -/
  replaced : ∀ {before between rest first second},
    log = before ++ .opened first :: (between ++ .opened second :: rest) → .closed first ∈ between
  /-- A window becomes ready at most once. -/
  once : ∀ {before between rest first second firstState secondState},
    log = before ++ .ready first firstState :: (between ++ .ready second secondState :: rest) →
    ∃ windowId, .opened windowId ∈ between
  /-- The window that becomes ready is the one that was opened last, which has not been closed, and the first
  refresh that addresses it has made it ready. It is not the player's. -/
  placed : ∀ {before rest windowId stateId}, log = before ++ .ready windowId stateId :: rest →
    windowId ≠ playerInventoryWindowId ∧
    ∃ start between p prompt,
      before = start ++ .opened windowId :: (between ++ .refresh p :: prompt) ∧
      p.windowId = windowId ∧ p.stateId = stateId ∧
      Settled between ∧ Unaddressed windowId between ∧ Settled prompt ∧ SameCall prompt
  /-- The first refresh that addresses the open window makes it ready. -/
  prompt : ∀ {before between rest windowId} {p : PacketWindowItems},
    log = before ++ .opened windowId :: (between ++ .refresh p :: rest) →
    windowId ≠ playerInventoryWindowId → p.windowId = windowId →
    Settled between → Unaddressed windowId between →
    ∃ answer later, rest = answer ++ .ready windowId p.stateId :: later ∧ SameCall answer

end Statement

section Watching

/-- The window that is open, as its events tell. -/
inductive Watch where
  | shut
  | unready (windowId : Int32)
  /-- The refresh is being applied. -/
  | due (windowId stateId : Int32)
  | ready (windowId : Int32)
deriving DecidableEq

def onCall (watch : Watch) (call : InventoryStep) : Option Watch :=
  match watch, call with
  | .due .., _ => none
  | .unready windowId, .packet (.windowItems p) =>
    if p.windowId = windowId ∧ windowId ≠ playerInventoryWindowId then some (.due windowId p.stateId)
    else some (.unready windowId)
  | watch, _ => some watch

def onEvent (watch : Watch) : InventoryEvent → Option Watch
  | .windowOpened windowId => if watch = .shut then some (.unready windowId) else none
  | .windowClosed windowId => if watch = .unready windowId ∨ watch = .ready windowId then some .shut else none
  | .windowSynchronized windowId stateId true =>
    if watch = .due windowId stateId then some (.ready windowId) else none
  | _ => some watch

def next (watch : Watch) : Entry → Option Watch
  | .call call => onCall watch call
  | .event event => onEvent watch event

/-- The event does not concern the monitor. -/
def quiet : InventoryEvent → Bool
  | .windowOpened _ | .windowClosed _ | .windowSynchronized _ _ true => false
  | _ => true

def Quiet (events : List InventoryEvent) : Prop := ∀ event ∈ events, quiet event = true

/-- Everything an entry can do to the monitor. -/
inductive Moves : Watch → Entry → Watch → Prop
  | opens (windowId) : Moves .shut (.opened windowId) (.unready windowId)
  | closesUnready (windowId) : Moves (.unready windowId) (.closed windowId) .shut
  | closesReady (windowId) : Moves (.ready windowId) (.closed windowId) .shut
  | refreshes (p : PacketWindowItems) (container : p.windowId ≠ playerInventoryWindowId) :
    Moves (.unready p.windowId) (.refresh p) (.due p.windowId p.stateId)
  | answers (windowId stateId) : Moves (.due windowId stateId) (.ready windowId stateId) (.ready windowId)
  | calls (watch call) (settled : ∀ windowId stateId, watch ≠ .due windowId stateId)
    (other : ∀ p windowId, call = .packet (.windowItems p) → watch = .unready windowId →
      windowId ≠ playerInventoryWindowId → p.windowId ≠ windowId) : Moves watch (.call call) watch
  | ignores (watch event) (isQuiet : quiet event = true) : Moves watch (.event event) watch

variable {watch final : Watch}

private theorem onCall_moves {call : InventoryStep} (moves : onCall watch call = some final) :
    Moves watch (.call call) final := by
  unfold onCall at moves
  split at moves
  · cases moves
  · rename_i windowId p
    split at moves
    · rename_i addressed
      obtain ⟨rfl, container⟩ := addressed
      cases moves
      exact .refreshes p container
    · rename_i unaddressed
      cases moves
      refine .calls _ _ (by simp) ?_
      rintro _ _ ⟨⟩ ⟨⟩ container addressed
      exact unaddressed ⟨addressed, container⟩
  · rename_i notDue notRefresh
    cases moves
    refine .calls _ _ (fun windowId stateId isDue => notDue windowId stateId isDue) ?_
    rintro p windowId rfl isUnready
    exact absurd rfl (notRefresh windowId p isUnready)

private theorem onEvent_moves {event : InventoryEvent} (moves : onEvent watch event = some final) :
    Moves watch (.event event) final := by
  unfold onEvent at moves
  split at moves
  · split at moves
    · rename_i isShut
      cases moves
      exact isShut ▸ .opens _
    · cases moves
  · split at moves
    · rename_i isOpen
      cases moves
      rcases isOpen with rfl | rfl
      · exact .closesUnready _
      · exact .closesReady _
    · cases moves
  · split at moves
    · rename_i isDue
      cases moves
      exact isDue ▸ .answers _ _
    · cases moves
  · cases moves
    refine .ignores _ _ ?_
    unfold quiet
    split <;> simp_all

theorem moves_of_next {entry : Entry} (moves : next watch entry = some final) : Moves watch entry final := by
  cases entry with
  | call call => exact onCall_moves moves
  | event event => exact onEvent_moves moves

end Watching

section InStep

/-- Where the monitor stands between two calls. -/
def watchOf (s : InventoryState) : Watch :=
  match s.openWindow with
  | none => .shut
  | some window => if window.synchronizedOnce then .ready window.id else .unready window.id

variable {s after : InventoryState} {watch : Watch} {events : List InventoryEvent} {call : InventoryStep}

private theorem watchOf_none (isShut : s.openWindow = none) : watchOf s = .shut := by rw [watchOf, isShut]

private theorem watchOf_some {window : Window} (isOpen : s.openWindow = some window) :
    watchOf s = if window.synchronizedOnce then .ready window.id else .unready window.id := by rw [watchOf, isOpen]

theorem watchOf_not_due (s : InventoryState) (windowId stateId : Int32) : watchOf s ≠ .due windowId stateId := by
  unfold watchOf
  split
  · simp
  · split <;> simp

private theorem watchOf_congr (same : after.openWindow = s.openWindow) : watchOf after = watchOf s := by
  rw [watchOf, watchOf, same]

/-- The monitor reads the events in order. -/
def reads (watch : Watch) (events : List InventoryEvent) : Option Watch := run next watch (events.map .event)

theorem reads_cons (watch : Watch) (event : InventoryEvent) (rest : List InventoryEvent) :
    reads watch (event :: rest) = (onEvent watch event).bind (reads · rest) := rfl

theorem reads_append (watch : Watch) (first second : List InventoryEvent) :
    reads watch (first ++ second) = (reads watch first).bind (reads · second) := by
  simp only [reads, Monitor.run, map_append, foldlM_append]
  rfl

theorem onEvent_quiet {event : InventoryEvent} (isQuiet : quiet event = true) : onEvent watch event = some watch := by
  unfold onEvent
  split <;> simp_all [quiet]

theorem reads_quiet (isQuiet : Quiet events) : reads watch events = some watch := by
  induction events with
  | nil => rfl
  | cons event rest ih =>
    rw [reads_cons, onEvent_quiet (isQuiet event mem_cons_self), bind_some]
    exact ih fun other member => isQuiet other (mem_cons_of_mem _ member)

/-- The monitor follows changes that do not synchronize a window. -/
structure Follows (s : InventoryState) (events : List InventoryEvent) (after : InventoryState) : Prop where
  reads : reads (watchOf s) events = some (watchOf after)
  player : after.playerInventory.synchronizedOnce = s.playerInventory.synchronizedOnce

private theorem watchOf_contents (contents : Contents false s after) : watchOf after = watchOf s := by
  have opened := contents.opened
  unfold watchOf
  generalize s.openWindow = before, after.openWindow = now at opened
  cases opened with
  | none => rfl
  | some updates => simp only [updates.id, updates.synchronized rfl]

private theorem quiet_contents {event : InventoryEvent} (isContents : ofContents false event = true) :
    quiet event = true := by
  cases event <;> first | rfl | cases isContents

private theorem edit_follows {reach : Reach} (edit : Edit s reach events after) (quietly : reach ≠ .contents true) :
    Follows s events after := by
  cases edit with
  | @contents refreshes _ _ told contents =>
    cases refreshes with
    | true => exact absurd rfl quietly
    | false =>
      refine ⟨?_, contents.player.synchronized rfl⟩
      rw [reads_quiet fun event member => quiet_contents (told event member), watchOf_contents contents]
  | opens p free =>
    refine ⟨?_, rfl⟩
    rw [watchOf_none free]
    rfl
  | @closes window found drag =>
    refine ⟨?_, rfl⟩
    rw [watchOf_some found]
    cases window.synchronizedOnce <;> simp [reads_cons, onEvent] <;> rfl

private theorem changes_follow {reach : Reach} (changes : Changes reach s events after)
    (quietly : reach ≠ .contents true) :
    Follows s events after := by
  induction changes with
  | none s => exact ⟨rfl, rfl⟩
  | @cons s middle after events more change rest ih =>
    have first : Follows s events middle := by
      cases change with
      | edit edit => exact edit_follows edit quietly
      | send id | finish outcome pending => exact ⟨rfl, rfl⟩
    refine ⟨?_, ih.player.trans first.player⟩
    rw [reads_append, first.reads, bind_some, ih.reads]

/-- The inventory and the monitor agree after a call. The player's own inventory counts as synchronized. -/
structure InStep (s : InventoryState) (call : InventoryStep) (events : List InventoryEvent)
    (after : InventoryState) : Prop where
  reads : ∃ watch, onCall (watchOf s) call = some watch ∧ reads watch events = some (watchOf after)
  player : after.playerInventory.synchronizedOnce = true

private theorem onCall_other (other : ∀ p, call ≠ .packet (.windowItems p)) :
    onCall (watchOf s) call = some (watchOf s) := by
  unfold onCall
  split
  · rename_i isDue
    exact absurd isDue (watchOf_not_due s _ _)
  · exact absurd rfl (other _)
  · rfl

/-- A call that is not a refresh and leaves the open window as it is. -/
theorem InStep.quiet (other : ∀ p, call ≠ .packet (.windowItems p)) (same : watchOf after = watchOf s)
    (isQuiet : Quiet events) (player : after.playerInventory.synchronizedOnce = true) :
    InStep s call events after :=
  ⟨⟨_, onCall_other other, same.symm ▸ reads_quiet isQuiet⟩, player⟩

/-- A refresh that does not address the open window. -/
theorem onCall_unaddressed {p : PacketWindowItems} (unaddressed : ∀ windowId, watchOf s = .unready windowId →
    windowId ≠ playerInventoryWindowId → p.windowId ≠ windowId) :
    onCall (watchOf s) (.packet (.windowItems p)) = some (watchOf s) := by
  unfold onCall
  split
  · rename_i isDue
    exact absurd isDue (watchOf_not_due s _ _)
  · rename_i windowId p isUnready same
    cases same
    rw [if_neg fun both : _ ∧ _ => unaddressed windowId isUnready both.2 both.1, isUnready]
  · rfl

/-- What `window_items` does once it has refreshed a window: it corrects the window's transactions. -/
theorem InStep.refreshed {refreshed : InventoryState} {p : PacketWindowItems} {firstSync : Bool}
    (called : onCall (watchOf s) call = some watch)
    (answers : onEvent watch (.windowSynchronized p.windowId p.stateId firstSync) = some (watchOf refreshed))
    (player : refreshed.playerInventory.synchronizedOnce = true) :
    InStep s call
      (.cursorUpdated :: .windowSynchronized p.windowId p.stateId firstSync ::
        (refreshed.finishWindowTransactions p.windowId (.corrected p.stateId)).1)
      (refreshed.finishWindowTransactions p.windowId (.corrected p.stateId)).2 := by
  have finished : Follows refreshed _ (refreshed.finishWindowTransactions p.windowId (.corrected p.stateId)).2 :=
    changes_follow (finishAll_changes .transactions ..) (by simp)
  refine ⟨⟨watch, called, ?_⟩, finished.player.trans player⟩
  rw [reads_cons, onEvent_quiet rfl, bind_some, reads_cons, answers, bind_some]
  exact finished.reads

variable (player : s.playerInventory.synchronizedOnce = true)
include player

private theorem onWindowItems_inStep (p : PacketWindowItems) :
    InStep s (.packet (.windowItems p)) (s.onWindowItems p).1 (s.onWindowItems p).2 := by
  unfold onWindowItems windowMut
  by_cases own : p.windowId = playerInventoryWindowId
  · rw [if_pos own]
    dsimp only [Window.refresh]
    rw [player]
    refine .refreshed (onCall_unaddressed fun windowId _ container addressed => container (addressed ▸ own)) ?_ rfl
    exact onEvent_quiet rfl
  · rw [if_neg own]
    cases isOpen : s.openWindow with
    | none =>
      refine ⟨⟨_, onCall_unaddressed fun windowId isUnready => ?_, ?_⟩, player⟩
      · rw [watchOf_none isOpen] at isUnready
        cases isUnready
      · rfl
    | some window =>
      dsimp only
      by_cases addressed : window.id = p.windowId
      · rw [if_pos addressed]
        dsimp only [Window.refresh]
        cases once : window.synchronizedOnce with
        | false =>
          have called : onCall (watchOf s) (.packet (.windowItems p)) = some (.due p.windowId p.stateId) := by
            simp [watchOf_some isOpen, once, onCall, addressed, own]
          refine .refreshed called ?_ player
          simp [onEvent, watchOf, addressed]
        | true =>
          refine .refreshed (onCall_unaddressed ?_) ?_ player
          · simp [watchOf_some isOpen, once]
          · simp [onEvent, watchOf, isOpen, once]
      · rw [if_neg addressed]
        refine ⟨⟨_, onCall_unaddressed fun windowId isUnready _ same => ?_, ?_⟩, player⟩
        · rw [watchOf_some isOpen] at isUnready
          cases once : window.synchronizedOnce <;> simp_all
        · exact (reads_quiet (by simp [Quiet, quiet])).trans (congrArg some (watchOf_congr rfl))

omit player in
private theorem reach_eq_refresh (refreshes : reach call = .contents true) : ∃ p, call = .packet (.windowItems p) := by
  cases call with
  | packet packet =>
    cases packet with
    | windowItems p => exact ⟨p, rfl⟩
    | _ => cases refreshes
  | _ => cases refreshes

private theorem move_inStep (move : Move s call events after) (other : ∀ p, call ≠ .packet (.windowItems p)) :
    InStep s call events after := by
  cases move with
  | changes changes =>
    have follows := changes_follow changes fun refreshes => by
      obtain ⟨p, same⟩ := reach_eq_refresh refreshes
      exact other p same
    exact ⟨⟨_, onCall_other other, follows.reads⟩, follows.player.trans player⟩
  | reject id error | queue => exact .quiet other rfl (by simp [Quiet, quiet]) player

theorem step_inStep (call : InventoryStep) : InStep s call (s.step call).1 (s.step call).2 := by
  by_cases refreshes : ∃ p, call = .packet (.windowItems p)
  · obtain ⟨p, rfl⟩ := refreshes
    exact onWindowItems_inStep player p
  · exact move_inStep player (step_moves s call) fun p same => refreshes ⟨p, same⟩

/-- The monitor accepts every log, and is not waiting at its end. -/
theorem logFrom_accepted (calls : List InventoryStep) :
    ∃ final, run next (watchOf s) (logFrom s calls) = some final ∧
      ∀ windowId stateId, final ≠ .due windowId stateId := by
  induction calls generalizing s with
  | nil => exact ⟨watchOf s, rfl, watchOf_not_due s⟩
  | cons call rest ih =>
    obtain ⟨⟨watch, called, told⟩, player⟩ := step_inStep player call
    obtain ⟨final, accepted, settled⟩ := ih player
    refine ⟨final, ?_, settled⟩
    rw [reads, Monitor.run] at told
    rw [Monitor.run] at accepted
    rw [logFrom, Monitor.run, cons_append, foldlM_cons]
    simp only [next, called, bind_eq_bind, bind_some, foldlM_append, told, accepted]

end InStep

section Traces

variable {watch final : Watch} {trace : List Entry} {windowId stateId : Int32}

/-- The window that the monitor has seen opened. -/
def Watch.openId : Watch → Option Int32
  | .shut => none
  | .unready windowId | .due windowId _ | .ready windowId => some windowId

theorem Settled.snoc {entry : Entry} (settled : Settled trace) (opens : ∀ windowId, entry ≠ .opened windowId)
    (closes : ∀ windowId, entry ≠ .closed windowId) : Settled (trace ++ [entry]) := by
  intro windowId
  have earlier := settled windowId
  simp only [mem_append, mem_singleton, not_or]
  exact ⟨⟨earlier.1, (opens windowId).symm⟩, earlier.2, (closes windowId).symm⟩

theorem Settled.quiet (settled : Settled trace) {event : InventoryEvent} (isQuiet : quiet event = true) :
    Settled (trace ++ [.event event]) := by
  refine settled.snoc ?_ ?_
  all_goals
    rintro windowId ⟨⟩
    cases isQuiet

theorem Unaddressed.snoc {entry : Entry} (unaddressed : Unaddressed windowId trace)
    (other : ∀ p : PacketWindowItems, p.windowId = windowId → entry ≠ .refresh p) :
    Unaddressed windowId (trace ++ [entry]) := by
  intro p addressed
  simp only [mem_append, mem_singleton, not_or]
  exact ⟨unaddressed p addressed, (other p addressed).symm⟩

/-- A window that is open and no longer open in the end has been closed. -/
theorem closed_of_shut (accepted : run next watch trace = some .shut) (isOpen : watch.openId = some windowId) :
    .closed windowId ∈ trace := by
  induction trace generalizing watch with
  | nil =>
    cases accepted
    cases isOpen
  | cons entry rest ih =>
    obtain ⟨middle, moves, accepted⟩ := run_cons accepted
    cases moves_of_next moves with
    | opens => cases isOpen
    | closesUnready | closesReady =>
      cases isOpen
      exact mem_cons_self
    | refreshes | answers | calls | ignores => exact mem_cons_of_mem _ (ih accepted isOpen)

/-- Before a window is opened, nothing is due. -/
theorem opened_of_due (accepted : run next watch trace = some (.due windowId stateId))
    (start : watch = .shut ∨ ∃ readyId, watch = .ready readyId) : ∃ openedId, .opened openedId ∈ trace := by
  induction trace generalizing watch with
  | nil =>
    cases accepted
    simp at start
  | cons entry rest ih =>
    obtain ⟨middle, moves, accepted⟩ := run_cons accepted
    cases moves_of_next moves with
    | opens openedId => exact ⟨openedId, mem_cons_self⟩
    | closesUnready | refreshes | answers => simp at start
    | closesReady =>
      obtain ⟨openedId, member⟩ := ih accepted (.inl rfl)
      exact ⟨openedId, mem_cons_of_mem _ member⟩
    | calls | ignores =>
      obtain ⟨openedId, member⟩ := ih accepted start
      exact ⟨openedId, mem_cons_of_mem _ member⟩

/-- A window waits for the first refresh that addresses it. -/
theorem unready_settled (accepted : run next (.unready windowId) trace = some final)
    (container : windowId ≠ playerInventoryWindowId) (settled : Settled trace)
    (unaddressed : Unaddressed windowId trace) : final = .unready windowId := by
  induction trace with
  | nil =>
    cases accepted
    rfl
  | cons entry rest ih =>
    obtain ⟨middle, moves, accepted⟩ := run_cons accepted
    cases moves_of_next moves with
    | closesUnready => exact absurd mem_cons_self (settled windowId).2
    | refreshes p => exact absurd mem_cons_self (unaddressed p rfl)
    | calls | ignores =>
      refine ih accepted (fun other => ?_) fun p addressed member => ?_
      · exact ⟨fun member => (settled other).1 (mem_cons_of_mem _ member),
          fun member => (settled other).2 (mem_cons_of_mem _ member)⟩
      · exact unaddressed p addressed (mem_cons_of_mem _ member)

/-- What is due comes before the next call. -/
theorem answered_of_due (accepted : run next (.due windowId stateId) trace = some final)
    (settled : final ≠ .due windowId stateId) :
    ∃ answer later, trace = answer ++ .ready windowId stateId :: later ∧ SameCall answer := by
  induction trace with
  | nil =>
    cases accepted
    exact absurd rfl settled
  | cons entry rest ih =>
    obtain ⟨middle, moves, accepted⟩ := run_cons accepted
    cases moves_of_next moves with
    | answers => exact ⟨[], rest, rfl, by simp [SameCall]⟩
    | calls _ _ notDue => exact absurd rfl (notDue windowId stateId)
    | ignores _ event =>
      obtain ⟨answer, later, rfl, sameCall⟩ := ih accepted
      refine ⟨.event event :: answer, later, rfl, fun call member => ?_⟩
      rcases mem_cons.mp member with same | member
      · cases same
      · exact sameCall call member

/-- An unready window has been opened, and nothing has addressed it since. -/
theorem opened_of_unready (accepted : run next .shut trace = some (.unready windowId)) :
    ∃ start between, trace = start ++ .opened windowId :: between ∧ Settled between ∧
      (windowId ≠ playerInventoryWindowId → Unaddressed windowId between) := by
  induction trace using List.reverseRecOn with
  | nil => cases accepted
  | append_singleton trace entry ih =>
    obtain ⟨middle, before, last⟩ := run_split accepted
    obtain ⟨_, moves, ended⟩ := run_cons last
    cases ended
    cases moves_of_next moves with
    | opens => exact ⟨trace, [], rfl, by simp [Settled], by simp [Unaddressed]⟩
    | calls _ call _ other =>
      obtain ⟨start, between, rfl, settled, unaddressed⟩ := ih before
      refine ⟨start, between ++ [.call call], by simp, ?_, fun container => ?_⟩
      · exact settled.snoc (by simp [Entry.opened]) (by simp [Entry.closed])
      · refine (unaddressed container).snoc fun p addressed same => ?_
        cases same
        exact other p windowId rfl rfl container addressed
    | ignores _ event isQuiet =>
      obtain ⟨start, between, rfl, settled, unaddressed⟩ := ih before
      refine ⟨start, between ++ [.event event], by simp, settled.quiet isQuiet, fun container => ?_⟩
      exact (unaddressed container).snoc (by simp [Entry.refresh])

/-- What is due was asked for by the first refresh that addressed the window. -/
theorem refreshed_of_due (accepted : run next .shut trace = some (.due windowId stateId)) :
    windowId ≠ playerInventoryWindowId ∧
    ∃ start between p prompt,
      trace = start ++ .opened windowId :: (between ++ .refresh p :: prompt) ∧
      p.windowId = windowId ∧ p.stateId = stateId ∧
      Settled between ∧ Unaddressed windowId between ∧ Settled prompt ∧ SameCall prompt := by
  induction trace using List.reverseRecOn with
  | nil => cases accepted
  | append_singleton trace entry ih =>
    obtain ⟨middle, before, last⟩ := run_split accepted
    obtain ⟨_, moves, ended⟩ := run_cons last
    cases ended
    cases moves_of_next moves with
    | refreshes p container =>
      obtain ⟨start, between, rfl, settled, unaddressed⟩ := opened_of_unready before
      refine ⟨container, start, between, p, [], by simp, rfl, rfl, settled, unaddressed container, ?_, ?_⟩
      · simp [Settled]
      · simp [SameCall]
    | calls _ _ notDue => exact absurd rfl (notDue windowId stateId)
    | ignores _ event isQuiet =>
      obtain ⟨container, start, between, p, prompt, rfl, addressed, carried, settled, first, promptly, sameCall⟩ :=
        ih before
      refine ⟨container, start, between, p, prompt ++ [.event event], by simp, addressed, carried, settled, first,
        promptly.quiet isQuiet, fun call member => ?_⟩
      rcases mem_concat_iff.mp member with member | same
      · exact sameCall call member
      · cases same

end Traces

section Results

variable {watch final : Watch} {rest : List Entry} {windowId stateId : Int32}

theorem run_opened (accepted : run next watch (.opened windowId :: rest) = some final) :
    watch = .shut ∧ run next (.unready windowId) rest = some final := by
  obtain ⟨_, moves, accepted⟩ := run_cons accepted
  cases moves_of_next moves with
  | opens => exact ⟨rfl, accepted⟩
  | ignores _ _ isQuiet => cases isQuiet

theorem run_ready (accepted : run next watch (.ready windowId stateId :: rest) = some final) :
    watch = .due windowId stateId ∧ run next (.ready windowId) rest = some final := by
  obtain ⟨_, moves, accepted⟩ := run_cons accepted
  cases moves_of_next moves with
  | answers => exact ⟨rfl, accepted⟩
  | ignores _ _ isQuiet => cases isQuiet

/-- What the monitor accepts is well bracketed. -/
theorem bracketed_of_accepted {log : List Entry} (accepted : run next .shut log = some final)
    (settled : ∀ windowId stateId, final ≠ .due windowId stateId) : Bracketed log where
  replaced := by
    rintro before between rest first second rfl
    obtain ⟨_, -, accepted⟩ := run_split accepted
    obtain ⟨middle, reached, accepted⟩ := run_split (run_opened accepted).2
    rw [(run_opened accepted).1] at reached
    exact closed_of_shut reached rfl
  once := by
    rintro before between rest first second firstState secondState rfl
    obtain ⟨_, -, accepted⟩ := run_split accepted
    obtain ⟨middle, reached, accepted⟩ := run_split (run_ready accepted).2
    rw [(run_ready accepted).1] at reached
    exact opened_of_due reached (.inr ⟨first, rfl⟩)
  placed := by
    rintro before rest windowId stateId rfl
    obtain ⟨_, reached, accepted⟩ := run_split accepted
    rw [(run_ready accepted).1] at reached
    exact refreshed_of_due reached
  prompt := by
    rintro before between rest windowId p rfl container addressed untouched unaddressed
    obtain ⟨_, -, accepted⟩ := run_split accepted
    obtain ⟨middle, reached, accepted⟩ := run_split (run_opened accepted).2
    cases unready_settled reached container untouched unaddressed
    obtain ⟨_, moves, accepted⟩ := run_cons accepted
    cases moves_of_next moves with
    | refreshes => exact answered_of_due accepted (settled _ _)
    | calls _ _ _ other => exact absurd addressed (other p windowId rfl rfl container)

/-- Whatever the server sends and the client does, the windows of an inventory are well bracketed. -/
theorem windows_are_bracketed (calls : List InventoryStep) : Bracketed (log calls) := by
  obtain ⟨final, accepted, settled⟩ := logFrom_accepted (s := .new) rfl calls
  exact bracketed_of_accepted accepted settled

end Results

end MineRider.Soundness.WindowEvents
