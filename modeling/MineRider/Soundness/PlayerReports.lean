import Mathlib.Data.List.Induction
import MineRider.Machine.Run
import MineRider.Model.Minecraft.Players
import MineRider.ToMathlib.AListUpdate

/-! # Who has joined

A script learns who is online from the joins and departures that the play session announces. Over any packets that
never name an entry that was made without a name, never take a name away and never remove an unnamed entry, a player
is announced once for as long as it is named, and a departure is announced only of one that was. Without the
condition it fails: the list announces a join when it makes an entry, so a player whose entry was made by a latency
update has never joined, whatever the server says of it later.
-/

namespace MineRider.Soundness.PlayerReports

open AList List Model.Minecraft PlayerList Machine

section Statement

/-- The count of announced joins, once the event is out. -/
def countJoin (uuid : BitVec 128) (joins : ℕ) : BotEvent → ℕ
  | .playerJoined joined _ => if joined = uuid then joins + 1 else joins
  | .playerLeft left => if left = uuid then 0 else joins
  | _ => joins

/-- How often the uuid was announced as joined since it was last announced as gone. -/
def joinsSinceLeft (uuid : BitVec 128) (events : List BotEvent) : ℕ := events.foldl (countJoin uuid) 0

def Named (list : PlayerList) (uuid : BitVec 128) : Prop :=
  ∃ entry, list.players.lookup uuid = some entry ∧ entry.name ≠ ""

/-- The announcements agree with the list. -/
structure Reported (events : List BotEvent) (list : PlayerList) : Prop where
  joinedOnce : ∀ uuid, Named list uuid → joinsSinceLeft uuid events = 1
  notJoined : ∀ uuid, ¬ Named list uuid → joinsSinceLeft uuid events = 0
  leftAfterJoin : ∀ before uuid after, events = before ++ .playerLeft uuid :: after → 0 < joinsSinceLeft uuid before

/-- A name that the item gives to a known entry is empty just if the entry's own is. -/
def KeepsNaming (action : PlayerInfoAction) (state : PlayerInfoChanges × PlayerList) (item : PlayerInfoDataItem) :
    Prop :=
  ∀ entry name, state.2.players.lookup item.uuid = some entry → action.contains PlayerInfoAction.addPlayer = true →
    item.player = some name → (name = "" ↔ entry.name = "")

/-- The entry of the uuid has a name, if there is one. -/
def RemovesNamed (state : List (BitVec 128) × PlayerList) (uuid : BitVec 128) : Prop :=
  ∀ entry, state.2.players.lookup uuid = some entry → entry.name ≠ ""

/-- Every item of the packet meets the list as it should. -/
def Steady (list : PlayerList) : Packet → Prop
  | .playerInfo packet =>
    Along (applyInfoItem packet.action) (KeepsNaming packet.action) (⟨[], [], 0⟩, list) packet.data
  | .playerRemove packet => Along applyRemoveUuid RemovesNamed ([], list) packet.players

end Statement

section Announcements

variable {events : List BotEvent} {list : PlayerList} {uuid : BitVec 128} {entry : PlayerEntry}

theorem joinsSinceLeft_concat (uuid : BitVec 128) (events : List BotEvent) (event : BotEvent) :
    joinsSinceLeft uuid (events ++ [event]) = countJoin uuid (joinsSinceLeft uuid events) event := by
  rw [joinsSinceLeft, foldl_append]
  rfl

/-- Only a departure has to be checked when it is announced. -/
theorem leftAfterJoin_concat {event : BotEvent}
    (earlier : ∀ before uuid after, events = before ++ .playerLeft uuid :: after → 0 < joinsSinceLeft uuid before)
    (last : ∀ uuid, event = .playerLeft uuid → 0 < joinsSinceLeft uuid events) :
    ∀ before uuid after, events ++ [event] = before ++ .playerLeft uuid :: after → 0 < joinsSinceLeft uuid before := by
  intro before uuid after split
  obtain rfl | ⟨rest, final, rfl⟩ := eq_nil_or_concat after
  · obtain ⟨rfl, same⟩ := append_inj' split rfl
    exact last uuid (head_eq_of_cons_eq same)
  · rw [concat_eq_append, ← cons_append, ← append_assoc] at split
    exact earlier before uuid rest (append_inj' split rfl).1

private theorem named_insert {other : BitVec 128} : Named ⟨list.players.insert uuid entry⟩ other ↔
    if other = uuid then entry.name ≠ "" else Named list other := by
  simp only [Named, lookup_insert_eq_ite]
  split_ifs <;> simp

private theorem named_erase {other : BitVec 128} :
    Named ⟨list.players.erase uuid⟩ other ↔ other ≠ uuid ∧ Named list other := by
  simp only [Named, lookup_erase_eq_ite]
  split_ifs with same <;> simp [same]

private theorem not_named_of_absent (absent : uuid ∉ list.players) : ¬ Named list uuid := by
  rintro ⟨entry, found, _⟩
  exact absent (lookup_isSome.mp (found ▸ rfl))

section

variable (reported : Reported events list)

include reported

theorem Reported.hud (event : HudEvent) : Reported (events ++ [.hud event]) list where
  joinedOnce uuid named := (joinsSinceLeft_concat ..).trans (reported.joinedOnce uuid named)
  notJoined uuid unnamed := (joinsSinceLeft_concat ..).trans (reported.notJoined uuid unnamed)
  leftAfterJoin := leftAfterJoin_concat reported.leftAfterJoin fun _ same => absurd same (by simp)

/-- An entry may change as long as it is named or not as before. -/
theorem Reported.update (same : entry.name ≠ "" ↔ Named list uuid) :
    Reported events ⟨list.players.insert uuid entry⟩ := by
  have named : ∀ other, Named ⟨list.players.insert uuid entry⟩ other ↔ Named list other := by
    intro other
    rw [named_insert]
    split_ifs with chosen
    · rw [chosen, same]
    · rfl
  exact ⟨fun other is => reported.joinedOnce other ((named other).mp is),
    fun other isNot => reported.notJoined other (mt (named other).mpr isNot), reported.leftAfterJoin⟩

theorem Reported.join (absent : uuid ∉ list.players) (named : entry.name ≠ "")
    (name : String) : Reported (events ++ [.playerJoined uuid name]) ⟨list.players.insert uuid entry⟩ := by
  refine ⟨fun other is => ?_, fun other isNot => ?_, ?_⟩
  · rw [named_insert] at is
    rw [joinsSinceLeft_concat, countJoin]
    by_cases chosen : other = uuid
    · subst chosen
      rw [if_pos rfl, reported.notJoined other (not_named_of_absent absent)]
    · rw [if_neg chosen] at is
      rw [if_neg (Ne.symm chosen), reported.joinedOnce other is]
  · rw [named_insert] at isNot
    rw [joinsSinceLeft_concat, countJoin]
    by_cases chosen : other = uuid
    · rw [if_pos chosen] at isNot
      exact absurd named isNot
    · rw [if_neg chosen] at isNot
      rw [if_neg (Ne.symm chosen), reported.notJoined other isNot]
  · exact leftAfterJoin_concat reported.leftAfterJoin fun _ same => absurd same (by simp)

theorem Reported.leave (named : Named list uuid) :
    Reported (events ++ [.playerLeft uuid]) ⟨list.players.erase uuid⟩ := by
  refine ⟨fun other is => ?_, fun other isNot => ?_, ?_⟩
  · rw [named_erase] at is
    rw [joinsSinceLeft_concat, countJoin, if_neg is.1.symm]
    exact reported.joinedOnce other is.2
  · rw [named_erase, not_and] at isNot
    rw [joinsSinceLeft_concat, countJoin]
    split_ifs with chosen
    · rfl
    · exact reported.notJoined other (isNot (Ne.symm chosen))
  · refine leftAfterJoin_concat reported.leftAfterJoin fun other same => ?_
    cases same
    rw [reported.joinedOnce uuid named]
    exact Nat.one_pos

end

/-- The events with the joins of a packet after them. -/
def announceJoins (events : List BotEvent) (joined : List (BitVec 128 × String)) : List BotEvent :=
  events ++ joined.map fun player => .playerJoined player.1 player.2

end Announcements

section Packets

variable {events : List BotEvent} {list : PlayerList}

@[simp] theorem applyItem_fresh_uuid (uuid : BitVec 128) (action : PlayerInfoAction) (item : PlayerInfoDataItem) :
    ((PlayerEntry.fresh uuid).applyItem action item).uuid = uuid := rfl

theorem announceJoins_append (events : List BotEvent) (first second : List (BitVec 128 × String)) :
    announceJoins events (first ++ second) = announceJoins (announceJoins events first) second := by
  simp [announceJoins]

variable {action : PlayerInfoAction} {item : PlayerInfoDataItem}

/-- An item for a known uuid announces nothing. -/
theorem applyInfoItem_known {changes : PlayerInfoChanges}
    {old : PlayerEntry} (found : list.players.lookup item.uuid = some old) :
    applyInfoItem action (changes, list) item =
      ({ changes with updated := changes.updated ++ [item.uuid] },
        ⟨list.players.insert item.uuid (old.applyItem action item)⟩) := by
  have known : item.uuid ∈ list.players := lookup_isSome.mp (found ▸ rfl)
  simp [applyInfoItem, found, known]

/-- An item for a new uuid announces it if the entry has a name, and is dropped if the list is full. -/
theorem applyInfoItem_new {changes : PlayerInfoChanges} (missing : list.players.lookup item.uuid = none) :
    let entry := (PlayerEntry.fresh item.uuid).applyItem action item
    applyInfoItem action (changes, list) item =
      if list.players.keys.length ≥ maxPlayers then ({ changes with rejected := changes.rejected + 1 }, list)
      else ({ changes with
          joined := changes.joined ++ if entry.name = "" then [] else [(item.uuid, entry.name)]
          updated := changes.updated ++ [item.uuid] }, ⟨list.players.insert item.uuid entry⟩) := by
  have absent : item.uuid ∉ list.players := lookup_eq_none.mp missing
  by_cases unnamed : ((PlayerEntry.fresh item.uuid).applyItem action item).name = ""
  · simp [applyInfoItem, missing, absent, unnamed]
  · have nonempty : ((PlayerEntry.fresh item.uuid).applyItem action item).name.isEmpty = false := by
      simpa [String.isEmpty_iff] using unnamed
    simp [applyInfoItem, missing, absent, unnamed, nonempty]

/-- Under the condition an item names an entry if and only if it was named. -/
theorem applyItem_name_eq_empty {state : PlayerInfoChanges × PlayerList} {old : PlayerEntry}
    (keeps : KeepsNaming action state item)
    (found : state.2.players.lookup item.uuid = some old) :
    (old.applyItem action item).name = "" ↔ old.name = "" := by
  simp only [PlayerEntry.applyItem, PlayerEntry.field]
  split_ifs with adds
  · cases sent : item.player with
    | none => rfl
    | some name => exact keeps old name found adds sent
  · rfl

/-- One item, with the joins of the packet announced up to it. -/
theorem reported_item (action : PlayerInfoAction) (state : PlayerInfoChanges × PlayerList) (item : PlayerInfoDataItem)
    (reported : Reported (announceJoins events state.1.joined) state.2) (keeps : KeepsNaming action state item) :
    Reported (announceJoins events (applyInfoItem action state item).1.joined) (applyInfoItem action state item).2 := by
  obtain ⟨changes, list⟩ := state
  cases found : list.players.lookup item.uuid with
  | none =>
    rw [applyInfoItem_new found]
    have absent : item.uuid ∉ list.players := lookup_eq_none.mp found
    split_ifs with full unnamed
    · exact reported
    · rw [append_nil]
      refine reported.update (iff_of_false (not_not.mpr unnamed) (not_named_of_absent absent))
    · rw [announceJoins_append]
      exact reported.join absent unnamed _
  | some old =>
    rw [applyInfoItem_known found]
    refine reported.update ?_
    rw [Ne, applyItem_name_eq_empty keeps found]
    simp [Named, found]

/-- One uuid, with the departures of the packet announced up to it. -/
theorem reported_uuid (state : List (BitVec 128) × PlayerList) (uuid : BitVec 128)
    (reported : Reported (events ++ state.1.map .playerLeft) state.2) (named : RemovesNamed state uuid) :
    Reported (events ++ (applyRemoveUuid state uuid).1.map .playerLeft) (applyRemoveUuid state uuid).2 := by
  simp only [applyRemoveUuid]
  split_ifs with known
  · obtain ⟨entry, found⟩ := Option.isSome_iff_exists.mp (lookup_isSome.mpr known)
    rw [map_append, ← append_assoc]
    exact reported.leave ⟨entry, found, named entry found⟩
  · exact reported

private theorem reported_packet (reported : Reported events list) {packet : Packet} (steady : Steady list packet) :
    Reported (events ++ (list.onPacket packet).1) (list.onPacket packet).2 := by
  cases packet with
  | playerInfo packet =>
    have items := steady.invariant (reported_item packet.action) (by simpa [announceJoins] using reported)
    simp only [onPacket, ← append_assoc]
    exact items.hud _
  | playerRemove packet =>
    have uuids := steady.invariant reported_uuid (by simpa using reported)
    simp only [onPacket, ← append_assoc]
    exact uuids.hud _

end Packets

section Runs

theorem run_concat (packets : List Packet) (packet : Packet) :
    run (packets ++ [packet]) =
      ((run packets).1 ++ ((run packets).2.onPacket packet).1, ((run packets).2.onPacket packet).2) := by
  rw [run, foldl_append]
  rfl

private theorem foldl_onPacket (packets : List Packet) :
    packets.foldl (fun list packet => (list.onPacket packet).2) empty = (run packets).2 := by
  induction packets using List.reverseRecOn with
  | nil => rfl
  | append_singleton packets packet ih => rw [foldl_append, ih, run_concat, foldl_cons, foldl_nil]

private theorem reported_empty : Reported [] empty where
  joinedOnce uuid named := by
    obtain ⟨entry, found, _⟩ := named
    exact absurd found (by simp [empty])
  notJoined _ _ := rfl
  leftAfterJoin before uuid after split := absurd split (by simp)

/-- Along packets that never name an entry late, take its name or remove it unnamed, a player is announced once
while it is named and not otherwise, and every departure is that of an announced player. -/
theorem players_are_reported (packets : List Packet)
    (steady : Along (fun list packet => (list.onPacket packet).2) Steady empty packets) :
    Reported (run packets).1 (run packets).2 := by
  induction packets using List.reverseRecOn with
  | nil => exact reported_empty
  | append_singleton packets packet ih =>
    obtain ⟨before, last⟩ := along_concat.mp steady
    rw [foldl_onPacket] at last
    rw [run_concat]
    exact reported_packet (ih before) last

def latencyOf (uuid : BitVec 128) (latency : Int32) : Packet :=
  .playerInfo ⟨⟨PlayerInfoAction.updateLatency⟩,
    [⟨uuid, none, none, none, none, some latency, none, none, none⟩]⟩

def nameOf (uuid : BitVec 128) (name : String) : Packet :=
  .playerInfo ⟨⟨PlayerInfoAction.addPlayer⟩, [⟨uuid, some name, none, none, none, none, none, none, none⟩]⟩

def removalOf (uuid : BitVec 128) : Packet := .playerRemove ⟨[uuid]⟩

/-- A player that is named, pinged and removed. -/
theorem one_visit_is_reported :
    Reported (run [nameOf 7 "Notch", latencyOf 7 10, removalOf 7]).1
      (run [nameOf 7 "Notch", latencyOf 7 10, removalOf 7]).2 := by
  refine players_are_reported _ ⟨⟨?_, trivial⟩, ⟨?_, trivial⟩, ⟨?_, trivial⟩, trivial⟩
  · intro entry name found
    exact absurd found (by simp [empty])
  · intro entry name found adds
    exact absurd adds (by decide)
  · intro entry found
    injection found with same
    subst same
    decide

/-- A player whose latency comes first is named without being announced, and one that is never named leaves without
having joined. -/
theorem late_name_is_not_reported :
    ¬ Reported (run [latencyOf 7 10, nameOf 7 "Notch"]).1 (run [latencyOf 7 10, nameOf 7 "Notch"]).2 ∧
      ¬ Reported (run [latencyOf 7 10, removalOf 7]).1 (run [latencyOf 7 10, removalOf 7]).2 := by
  constructor
  · intro reported
    exact absurd (reported.joinedOnce 7 ⟨_, rfl, by decide⟩) (by decide)
  · intro reported
    exact absurd (reported.leftAfterJoin [.hud .playerListChanged] 7 [.hud .playerListChanged] rfl) (by decide)

end Runs

end MineRider.Soundness.PlayerReports
