import Mathlib.Data.List.Nodup
import MineRider.Machine.Index
import MineRider.Model.Minecraft.Scoreboard

/-! # The scoreboard is consistent

Whatever the server sends, the cross-references of the scoreboard hold: the team of each member is the one whose
member set has it, a score or a display slot never outlives its objective, every entry is under its own name, and no
collection passes its bound. Only the updates of objectives and scores touch the first half of the state, and only
those of teams the second, so the two halves are kept apart.
-/

namespace MineRider.Soundness.Scoreboard

open Option AList List Model.Minecraft ScoreboardState Machine.Index

section Statement

def MemberOf (s : ScoreboardState) (name member : String) : Prop :=
  ∃ team, s.teams.lookup name = some team ∧ member ∈ team.members

/-- The objectives, and what refers to them. -/
structure Grounded (s : ScoreboardState) : Prop where
  slots : ∀ slot name, s.displaySlots.lookup slot = some name → name ∈ s.objectives
  scores : ∀ key score, s.scores.lookup key = some score → key.objective ∈ s.objectives
  objectiveNames : ∀ name objective, s.objectives.lookup name = some objective → objective.name = name
  scoreNames : ∀ key score, s.scores.lookup key = some score → key = ⟨score.objective, score.owner⟩
  objectiveBound : s.objectives.keys.length ≤ maxObjectives
  slotBound : s.displaySlots.keys.length ≤ maxDisplaySlots
  scoreBound : s.scores.keys.length ≤ maxScores

/-- The teams, each on its own. -/
structure Listed (s : ScoreboardState) : Prop where
  names : ∀ name team, s.teams.lookup name = some team → team.name = name
  distinct : ∀ name team, s.teams.lookup name = some team → team.members.Nodup
  bound : s.teams.keys.length ≤ maxTeams

/-- The teams and their members. -/
structure Rostered (s : ScoreboardState) : Prop extends Listed s where
  members : Indexes s.memberTeams (MemberOf s)
  memberBound : s.memberTeams.keys.length ≤ maxTeamMembers

/-- The half of the state that the updates of objectives and scores change. -/
def board (s : ScoreboardState) := (s.objectives, s.displaySlots, s.scores)

/-- The half that the updates of teams change. -/
def roster (s : ScoreboardState) := (s.teams, s.memberTeams)

end Statement

section Objectives

variable {s : ScoreboardState}

theorem Grounded.setObjective (grounded : Grounded s) {name : String} {objective : Objective}
    (named : objective.name = name) (room : name ∈ s.objectives ∨ s.objectives.keys.length < maxObjectives) :
    Grounded { s with objectives := s.objectives.insert name objective } where
  slots slot other found := (mem_insert _).mpr (.inr (grounded.slots slot other found))
  scores key score found := (mem_insert _).mpr (.inr (grounded.scores key score found))
  objectiveNames := forall_lookup_insert named grounded.objectiveNames
  scoreNames := grounded.scoreNames
  objectiveBound := length_keys_insert_le objective grounded.objectiveBound room
  slotBound := grounded.slotBound
  scoreBound := grounded.scoreBound

/-- Erasing an objective takes nothing that another slot or score refers to. -/
theorem Grounded.removeObjective (grounded : Grounded s) (name : String) : Grounded (s.removeObjective name) where
  slots slot other found := by
    simp only [ScoreboardState.removeObjective, lookup_retainValues, bind_eq_some_iff] at found
    obtain ⟨stored, before, kept⟩ := found
    split_ifs at kept with different
    cases kept
    exact mem_erase.mpr ⟨different, grounded.slots slot _ before⟩
  scores key score found := by
    simp only [ScoreboardState.removeObjective, lookup_retainValues, bind_eq_some_iff] at found
    obtain ⟨stored, before, kept⟩ := found
    split_ifs at kept with different
    exact mem_erase.mpr ⟨different, grounded.scores key stored before⟩
  objectiveNames := forall_lookup_erase grounded.objectiveNames
  scoreNames key score found := by
    simp only [ScoreboardState.removeObjective, lookup_retainValues, bind_eq_some_iff] at found
    obtain ⟨stored, before, kept⟩ := found
    split_ifs at kept
    cases kept
    exact grounded.scoreNames key score before
  objectiveBound := (length_keys_erase_le _ _).trans grounded.objectiveBound
  slotBound := (keys_retainValues_sublist _ _).length_le.trans grounded.slotBound
  scoreBound := (keys_retainValues_sublist _ _).length_le.trans grounded.scoreBound

theorem Grounded.applyObjective (grounded : Grounded s) (name : String) (action : ObjectiveAction)
    (definition : Option ObjectiveDefinition) :
    Grounded (s.applyObjective name action definition).2 ∧
      roster (s.applyObjective name action definition).2 = roster s := by
  cases action with
  | create =>
    cases definition with
    | none => exact ⟨grounded, rfl⟩
    | some definition =>
      simp only [ScoreboardState.applyObjective, Option.elim, createObjective]
      split_ifs with full
      · exact ⟨grounded, rfl⟩
      · refine ⟨grounded.setObjective rfl ?_, rfl⟩
        rw [not_and_or, not_not, not_le] at full
        exact full
  | update =>
    cases definition with
    | none => exact ⟨grounded, rfl⟩
    | some definition =>
      simp only [ScoreboardState.applyObjective, Option.elim, updateObjective]
      split_ifs with known
      · exact ⟨grounded.setObjective rfl (.inl known), rfl⟩
      · exact ⟨grounded, rfl⟩
  | remove => exact ⟨grounded.removeObjective name, rfl⟩
  | unknown _ => exact ⟨grounded, rfl⟩

end Objectives

section Slots

variable {s : ScoreboardState}

section

variable (grounded : Grounded s)

include grounded

/-- Display slots may change as long as each new one refers to an objective. -/
theorem Grounded.setSlots {slots : AList fun _ : DisplaySlot => String}
    (known : ∀ slot name, slots.lookup slot = some name → name ∈ s.objectives)
    (bounded : slots.keys.length ≤ maxDisplaySlots) : Grounded { s with displaySlots := slots } :=
  { grounded with slots := known, slotBound := bounded }

theorem Grounded.applyDisplaySlot (slot : DisplaySlot) (objective : Option String) :
    Grounded (s.applyDisplaySlot slot objective).2 ∧ roster (s.applyDisplaySlot slot objective).2 = roster s := by
  cases objective with
  | none =>
    exact ⟨grounded.setSlots (forall_lookup_erase grounded.slots)
      ((length_keys_erase_le _ _).trans grounded.slotBound), rfl⟩
  | some name =>
    simp only [ScoreboardState.applyDisplaySlot]
    split_ifs with known full
    · exact ⟨grounded, rfl⟩
    · rw [not_and_or, not_not, not_le] at full
      exact ⟨grounded.setSlots (forall_lookup_insert known grounded.slots)
        (length_keys_insert_le name grounded.slotBound full), rfl⟩
    · exact ⟨grounded, rfl⟩

/-- Scores may change as long as each new one has an objective and its own key. -/
theorem Grounded.setScores {scores : AList fun _ : ScoreKey => Score}
    (known : ∀ key score, scores.lookup key = some score →
      key.objective ∈ s.objectives ∧ key = ⟨score.objective, score.owner⟩)
    (bounded : scores.keys.length ≤ maxScores) : Grounded { s with scores } :=
  { grounded with
    scores := fun key score found => (known key score found).1
    scoreNames := fun key score found => (known key score found).2
    scoreBound := bounded }

theorem Grounded.score (key : ScoreKey) (score : Score) (found : s.scores.lookup key = some score) :
    key.objective ∈ s.objectives ∧ key = ⟨score.objective, score.owner⟩ :=
  ⟨grounded.scores key score found, grounded.scoreNames key score found⟩

theorem Grounded.applyScore (score : Score) :
    Grounded (s.applyScore score).2 ∧ roster (s.applyScore score).2 = roster s := by
  simp only [ScoreboardState.applyScore]
  split_ifs with applied
  · simp only [Bool.and_eq_true, Bool.or_eq_true, decide_eq_true_eq] at applied
    exact ⟨grounded.setScores (forall_lookup_insert ⟨applied.1, rfl⟩ grounded.score)
      (length_keys_insert_le score grounded.scoreBound applied.2), rfl⟩
  · exact ⟨grounded, rfl⟩

theorem Grounded.applyScoreReset (owner : String) (objective : Option String) :
    Grounded (s.applyScoreReset owner objective).2 ∧ roster (s.applyScoreReset owner objective).2 = roster s := by
  cases objective with
  | none =>
    refine ⟨grounded.setScores (fun key score found => ?_) ?_, rfl⟩
    · rw [lookup_retainValues, bind_eq_some_iff] at found
      obtain ⟨stored, before, kept⟩ := found
      split_ifs at kept
      cases kept
      exact grounded.score key _ before
    · exact (keys_retainValues_sublist _ _).length_le.trans grounded.scoreBound
  | some objective =>
    exact ⟨grounded.setScores (forall_lookup_erase grounded.score)
      ((length_keys_erase_le _ _).trans grounded.scoreBound), rfl⟩

end

end Slots

section Teams

variable {s : ScoreboardState} {name member : String} {edit : Team → Team}

theorem lookup_editTeam (s : ScoreboardState) (name other : String) (edit : Team → Team) :
    (s.editTeam name edit).teams.lookup other =
      if other = name then (s.teams.lookup name).map edit else s.teams.lookup other := by
  cases found : s.teams.lookup name with
  | none =>
    simp only [editTeam, found]
    split_ifs with same
    · rw [same, found, map_none]
    · rfl
  | some team =>
    simp only [editTeam, found]
    rw [lookup_insert_eq_ite, map_some]

@[simp] theorem board_editTeam (s : ScoreboardState) (name : String) (edit : Team → Team) :
    board (s.editTeam name edit) = board s := by
  unfold editTeam
  split <;> rfl

@[simp] theorem memberTeams_editTeam : (s.editTeam name edit).memberTeams = s.memberTeams := by
  unfold editTeam
  split <;> rfl

@[simp] theorem mem_teams_editTeam {other : String} : other ∈ (s.editTeam name edit).teams ↔ other ∈ s.teams := by
  rw [← lookup_isSome, ← lookup_isSome, lookup_editTeam]
  split_ifs with same
  · rw [same, isSome_map]
  · rfl

private theorem length_teams_editTeam : (s.editTeam name edit).teams.keys.length = s.teams.keys.length := by
  unfold editTeam
  split
  · rename_i team found
    have known : name ∈ s.teams := lookup_isSome.mp (found ▸ rfl)
    simp only [length_keys_insert, known, if_true]
  · rfl

theorem Listed.setTeam (listed : Listed s) {team : Team} (named : team.name = name) (distinct : team.members.Nodup)
    (room : name ∈ s.teams ∨ s.teams.keys.length < maxTeams) :
    Listed { s with teams := s.teams.insert name team } where
  names := forall_lookup_insert named listed.names
  distinct := forall_lookup_insert distinct listed.distinct
  bound := length_keys_insert_le team listed.bound room

/-- An edit that keeps the name and a set of members keeps the teams in order. -/
theorem Listed.editTeam (listed : Listed s) (named : ∀ team, team.name = name → (edit team).name = name)
    (distinct : ∀ team : Team, team.members.Nodup → (edit team).members.Nodup) : Listed (s.editTeam name edit) := by
  unfold ScoreboardState.editTeam
  split
  · rename_i team found
    refine listed.setTeam (named team (listed.names name team found))
      (distinct team (listed.distinct name team found)) ?_
    exact .inl (lookup_isSome.mp (found ▸ rfl))
  · exact listed

theorem memberOf_editTeam {other : String} : MemberOf (s.editTeam name edit) other member ↔
    if other = name then ∃ team, s.teams.lookup name = some team ∧ member ∈ (edit team).members
    else MemberOf s other member := by
  unfold MemberOf
  rw [lookup_editTeam]
  split_ifs with same
  · simp
  · rfl

private theorem memberOf_insertMember {other entry : String} (known : name ∈ s.teams) :
    MemberOf (s.editTeam name (Team.insertMember member)) other entry ↔
      MemberOf s other entry ∨ (other = name ∧ entry = member) := by
  obtain ⟨team, found⟩ := isSome_iff_exists.mp (lookup_isSome.mpr known)
  rw [memberOf_editTeam]
  split_ifs with same
  · subst same
    simp only [MemberOf, found, Option.some.injEq, exists_eq_left', Team.insertMember, mem_insert_iff, true_and]
    exact or_comm
  · simp only [same, false_and, or_false]

theorem Listed.memberOf_removeMember (listed : Listed s) {other entry : String} :
    MemberOf (s.editTeam name (Team.removeMember member)) other entry ↔
      MemberOf s other entry ∧ ¬ (other = name ∧ entry = member) := by
  rw [memberOf_editTeam]
  split_ifs with same
  · subst same
    simp only [MemberOf, Team.removeMember, true_and]
    constructor
    · rintro ⟨team, found, held⟩
      rw [(listed.distinct other team found).mem_erase_iff] at held
      exact ⟨⟨team, found, held.2⟩, held.1⟩
    · rintro ⟨⟨team, found, held⟩, different⟩
      exact ⟨team, found, (listed.distinct other team found).mem_erase_iff.mpr ⟨different, held⟩⟩
  · simp only [same, false_and, not_false_eq_true, and_true]

end Teams

section Members

variable {s : ScoreboardState} {name member : String}

@[simp] theorem memberTeams_releaseMember {previous : Option String} :
    (s.releaseMember previous member).memberTeams = s.memberTeams := by
  cases previous with
  | none => rfl
  | some previous => exact memberTeams_editTeam

@[simp] theorem mem_teams_releaseMember {previous : Option String} :
    name ∈ (s.releaseMember previous member).teams ↔ name ∈ s.teams := by
  cases previous with
  | none => rfl
  | some previous => exact mem_teams_editTeam

theorem Listed.releaseMember (listed : Listed s) (previous : Option String) (member : String) :
    Listed (s.releaseMember previous member) := by
  cases previous with
  | none => exact listed
  | some previous => exact listed.editTeam (fun _ named => named) (fun _ distinct => distinct.erase member)

/-- The teams do not depend on the index beside them. -/
theorem Listed.reindex (listed : Listed s) (index : AList fun _ : String => String) :
    Listed { s with memberTeams := index } :=
  ⟨listed.names, listed.distinct, listed.bound⟩

/-- A member that is released from the team it was in is in none. -/
theorem Rostered.memberOf_releaseMember (rostered : Rostered s) (index : AList fun _ : String => String)
    (member other entry : String) :
    MemberOf ({ s with memberTeams := index }.releaseMember (s.memberTeams.lookup member) member) other entry ↔
      entry ≠ member ∧ MemberOf s other entry := by
  have owner (held : MemberOf s other member) : s.memberTeams.lookup member = some other :=
    (rostered.members member other).mpr held
  cases found : s.memberTeams.lookup member with
  | none =>
    refine ⟨fun held => ⟨?_, held⟩, And.right⟩
    rintro rfl
    exact absurd (found.symm.trans (owner held)) (by simp)
  | some previous =>
    refine (rostered.reindex index).memberOf_removeMember.trans ⟨?_, ?_⟩
    · rintro ⟨held, away⟩
      refine ⟨?_, held⟩
      rintro rfl
      exact away ⟨Option.some.inj ((owner held).symm.trans found), rfl⟩
    · rintro ⟨different, held⟩
      exact ⟨held, fun same => different same.2⟩

/-- Putting a member in a team takes it from the one that had it. -/
theorem Rostered.moveMember (rostered : Rostered s) (known : name ∈ s.teams)
    (room : member ∈ s.memberTeams ∨ s.memberTeams.keys.length < maxTeamMembers) :
    Rostered (s.moveMember name member) := by
  have released := (rostered.reindex (s.memberTeams.insert member name)).releaseMember
    (s.memberTeams.lookup member) member
  have listed : Listed (s.moveMember name member) :=
    released.editTeam (fun _ named => named) fun _ distinct => distinct.insert
  refine { listed with members := ?_, memberBound := ?_ }
  · simp only [ScoreboardState.moveMember, memberTeams_editTeam, memberTeams_releaseMember]
    refine rostered.members.insert member name fun other entry => ?_
    refine (memberOf_insertMember ?_).trans ?_
    · exact mem_teams_releaseMember.mpr known
    · rw [rostered.memberOf_releaseMember]
      by_cases same : entry = member <;> simp [same]
  · simp only [ScoreboardState.moveMember, memberTeams_editTeam, memberTeams_releaseMember]
    exact length_keys_insert_le name rostered.memberBound room

private theorem board_moveMember (s : ScoreboardState) (name member : String) :
    board (s.moveMember name member) = board s := by
  rw [ScoreboardState.moveMember, board_editTeam]
  cases s.memberTeams.lookup member with
  | none => rfl
  | some previous => exact board_editTeam _ _ _

theorem mem_teams_moveMember {other : String} : other ∈ (s.moveMember name member).teams ↔ other ∈ s.teams := by
  rw [ScoreboardState.moveMember, mem_teams_editTeam, mem_teams_releaseMember]

theorem Rostered.addTeamMembers (members : List String) {s : ScoreboardState} (rostered : Rostered s)
    (known : name ∈ s.teams) :
    Rostered (addTeamMembers name members s).2.2 ∧ board (addTeamMembers name members s).2.2 = board s := by
  induction members generalizing s with
  | nil => exact ⟨rostered, rfl⟩
  | cons member rest ih =>
    simp only [ScoreboardState.addTeamMembers]
    split_ifs with inside full
    · exact ih rostered known
    · exact ih rostered known
    · rw [not_and_or, not_not, not_le] at full
      rw [← board_moveMember s name member]
      exact ih (rostered.moveMember known full) (mem_teams_moveMember.mpr known)

theorem Rostered.removeNamedTeamMembers (members : List String) {s : ScoreboardState} (rostered : Rostered s) :
    Rostered (removeNamedTeamMembers name members s).2 ∧
      board (removeNamedTeamMembers name members s).2 = board s := by
  induction members generalizing s with
  | nil => exact ⟨rostered, rfl⟩
  | cons member rest ih =>
    simp only [ScoreboardState.removeNamedTeamMembers]
    split_ifs with inside
    · have released := rostered.memberOf_releaseMember (s.memberTeams.erase member) member
      rw [inside] at released
      have listed := (rostered.reindex (s.memberTeams.erase member)).releaseMember (some name) member
      refine (ih { listed with members := ?_, memberBound := ?_ }).imp_right fun same =>
        same.trans (board_editTeam _ _ _)
      · rw [memberTeams_releaseMember]
        exact rostered.members.erase member released
      · rw [memberTeams_releaseMember]
        exact (length_keys_erase_le _ _).trans rostered.memberBound
    · exact ih rostered

end Members

section Emptying

variable {s : ScoreboardState} {name : String}

/-- Forgetting members changes the index only. -/
theorem teams_forget (members : List String) (s : ScoreboardState) :
    (members.foldl (fun s member => s.forgetMember name member) s).teams = s.teams ∧
      board (members.foldl (fun s member => s.forgetMember name member) s) = board s := by
  induction members generalizing s with
  | nil => exact ⟨rfl, rfl⟩
  | cons member rest ih =>
    rw [foldl_cons, (ih _).1, (ih _).2, forgetMember]
    split_ifs
    all_goals exact ⟨rfl, rfl⟩

private theorem lookup_forget (members : List String) (s : ScoreboardState) (entry : String) :
    (members.foldl (fun s member => s.forgetMember name member) s).memberTeams.lookup entry =
      if entry ∈ members ∧ s.memberTeams.lookup entry = some name then none else s.memberTeams.lookup entry := by
  induction members generalizing s with
  | nil => simp
  | cons member rest ih =>
    rw [foldl_cons, ih, forgetMember]
    by_cases inside : s.memberTeams.lookup member = some name
    · rw [if_pos inside, lookup_erase_eq_ite]
      by_cases same : entry = member
      · subst same
        simp [inside]
      · simp [same]
    · rw [if_neg inside]
      by_cases same : entry = member
      · subst same
        simp [inside]
      · simp [same]

private theorem length_forget_le (members : List String) (s : ScoreboardState) :
    (members.foldl (fun s member => s.forgetMember name member) s).memberTeams.keys.length ≤
      s.memberTeams.keys.length := by
  induction members generalizing s with
  | nil => exact le_rfl
  | cons member rest ih =>
    rw [foldl_cons]
    refine (ih _).trans ?_
    unfold forgetMember
    split_ifs
    · exact length_keys_erase_le _ _
    · exact le_rfl

/-- The team's own list has every member that the index sends to it. -/
theorem Rostered.mem_members_iff (rostered : Rostered s) {team : Team} (found : s.teams.lookup name = some team)
    (entry : String) : entry ∈ team.members ↔ s.memberTeams.lookup entry = some name := by
  rw [rostered.members entry name]
  constructor
  · exact fun inside => ⟨team, found, inside⟩
  · rintro ⟨stored, storedAt, inside⟩
    cases found.symm.trans storedAt
    exact inside

theorem Rostered.lookup_forgotten (rostered : Rostered s) {team : Team} (found : s.teams.lookup name = some team)
    (entry : String) :
    (team.members.foldl (fun s member => s.forgetMember name member) s).memberTeams.lookup entry =
      if s.memberTeams.lookup entry = some name then none else s.memberTeams.lookup entry := by
  rw [lookup_forget]
  simp only [rostered.mem_members_iff found, and_self]

/-- The members of a team that is emptied are in no team. -/
theorem Rostered.removeTeamMembers (rostered : Rostered s) (name : String) :
    Rostered (s.removeTeamMembers name).2 ∧ board (s.removeTeamMembers name).2 = board s ∧
      ∀ entry, ¬ MemberOf (s.removeTeamMembers name).2 name entry := by
  unfold ScoreboardState.removeTeamMembers
  split
  · rename_i unknown
    refine ⟨rostered, rfl, ?_⟩
    rintro entry ⟨team, found, _⟩
    exact absurd (unknown.symm.trans found) (by simp)
  · rename_i team found
    set forgotten := team.members.foldl (fun s member => s.forgetMember name member) s with forgottenEq
    obtain ⟨sameTeams, sameBoard⟩ : forgotten.teams = s.teams ∧ board forgotten = board s := teams_forget team.members s
    have listed : Listed forgotten := by
      refine ⟨?_, ?_, ?_⟩ <;> rw [sameTeams]
      exacts [rostered.names, rostered.distinct, rostered.bound]
    have held : ∀ other entry,
        MemberOf (forgotten.editTeam name Team.clearMembers) other entry ↔ other ≠ name ∧ MemberOf s other entry := by
      intro other entry
      rw [memberOf_editTeam, MemberOf, sameTeams]
      by_cases same : other = name
      · simp [same, Team.clearMembers]
      · simp [same, MemberOf]
    have cleared : Listed (forgotten.editTeam name Team.clearMembers) :=
      listed.editTeam (fun _ named => named) fun _ _ => nodup_nil
    refine ⟨{ cleared with members := ?_, memberBound := ?_ }, (board_editTeam _ _ _).trans sameBoard,
      fun entry inside => ((held name entry).mp inside).1 rfl⟩
    · refine rostered.members.dismiss name (fun entry => ?_) held
      rw [memberTeams_editTeam, forgottenEq, rostered.lookup_forgotten found]
    · simp only [memberTeams_editTeam]
      exact (length_forget_le team.members s).trans rostered.memberBound

/-- Emptying a team keeps the teams there are. -/
theorem removeTeamMembers_teams (s : ScoreboardState) (name other : String) :
    (other ∈ (s.removeTeamMembers name).2.teams ↔ other ∈ s.teams) ∧
      (s.removeTeamMembers name).2.teams.keys.length = s.teams.keys.length := by
  unfold ScoreboardState.removeTeamMembers
  split
  · exact ⟨Iff.rfl, rfl⟩
  · simp only [mem_teams_editTeam, length_teams_editTeam, (teams_forget _ _).1, and_self]

end Emptying

section Updates

variable {s : ScoreboardState} {name : String}

/-- A team is defined anew, with the members it has. -/
theorem Rostered.setTeam (rostered : Rostered s) {team : Team} (named : team.name = name)
    (distinct : team.members.Nodup) (same : ∀ entry, entry ∈ team.members ↔ MemberOf s name entry)
    (room : name ∈ s.teams ∨ s.teams.keys.length < maxTeams) :
    Rostered { s with teams := s.teams.insert name team } := by
  refine { rostered.toListed.setTeam named distinct room with members := ?_, memberBound := rostered.memberBound }
  refine rostered.members.congr fun other entry => ?_
  simp only [MemberOf, lookup_insert_eq_ite]
  split_ifs with chosen
  · subst chosen
    simp only [Option.some.injEq, exists_eq_left']
    exact same entry
  · rfl

/-- A team without members can go. -/
theorem Rostered.eraseTeam (rostered : Rostered s) (empty : ∀ entry, ¬ MemberOf s name entry) :
    Rostered { s with teams := s.teams.erase name } where
  names := forall_lookup_erase rostered.names
  distinct := forall_lookup_erase rostered.distinct
  bound := (length_keys_erase_le _ _).trans rostered.bound
  members := by
    refine rostered.members.congr fun other entry => ?_
    simp only [MemberOf, lookup_erase_eq_ite]
    split_ifs with chosen
    · subst chosen
      simpa [MemberOf] using empty entry
    · rfl
  memberBound := rostered.memberBound

theorem Rostered.changeTeam (rostered : Rostered s) (update : TeamUpdate) :
    Rostered (s.changeTeam update).2.2.2 ∧ board (s.changeTeam update).2.2.2 = board s := by
  cases update with
  | create name definition members =>
    simp only [ScoreboardState.changeTeam]
    split_ifs with full
    · exact ⟨rostered, rfl⟩
    · obtain ⟨emptied, sameBoard, empty⟩ := rostered.removeTeamMembers name
      rw [← sameBoard]
      refine Rostered.addTeamMembers members (emptied.setTeam rfl nodup_nil (fun entry => ?_) ?_) ?_
      · simpa [TeamDefinition.intoTeam] using empty entry
      · rw [not_and_or, not_not, not_le] at full
        rwa [(removeTeamMembers_teams s name name).1, (removeTeamMembers_teams s name name).2]
      · exact (mem_insert _).mpr (.inl rfl)
  | remove name =>
    obtain ⟨emptied, sameBoard, empty⟩ := rostered.removeTeamMembers name
    exact ⟨emptied.eraseTeam empty, sameBoard⟩
  | update name definition =>
    simp only [ScoreboardState.changeTeam]
    split_ifs with known
    · obtain ⟨team, found⟩ := isSome_iff_exists.mp (lookup_isSome.mpr known)
      simp only [editTeam, found]
      refine ⟨rostered.setTeam rfl (rostered.distinct name team found) (fun entry => ?_) (.inl known), rfl⟩
      simp [MemberOf, found]
    · exact ⟨rostered, rfl⟩
  | addMembers name members =>
    simp only [ScoreboardState.changeTeam]
    split_ifs with known
    · exact rostered.addTeamMembers members known
    · exact ⟨rostered, rfl⟩
  | removeMembers name members =>
    simp only [ScoreboardState.changeTeam]
    split_ifs with known
    · exact rostered.removeNamedTeamMembers members
    · exact ⟨rostered, rfl⟩
  | unknown _ _ => exact ⟨rostered, rfl⟩

end Updates

section Frames

variable {s next : ScoreboardState}

theorem Grounded.of_board (grounded : Grounded s) (same : board next = board s) : Grounded next := by
  obtain ⟨objectives, slots, scores, _, _⟩ := next
  obtain ⟨rfl, rfl, rfl⟩ : objectives = s.objectives ∧ slots = s.displaySlots ∧ scores = s.scores := by
    simpa [board] using same
  exact ⟨grounded.slots, grounded.scores, grounded.objectiveNames, grounded.scoreNames, grounded.objectiveBound,
    grounded.slotBound, grounded.scoreBound⟩

theorem Rostered.of_roster (rostered : Rostered s) (same : roster next = roster s) : Rostered next := by
  obtain ⟨_, _, _, teams, memberTeams⟩ := next
  obtain ⟨rfl, rfl⟩ : teams = s.teams ∧ memberTeams = s.memberTeams := by simpa [roster] using same
  exact { (⟨rostered.names, rostered.distinct, rostered.bound⟩ : Listed _) with
    members := rostered.members, memberBound := rostered.memberBound }

end Frames

section Runs

private theorem apply_consistent {s : ScoreboardState} (grounded : Grounded s) (rostered : Rostered s)
    (update : ScoreboardUpdate) : Grounded (s.apply update).2 ∧ Rostered (s.apply update).2 := by
  cases update with
  | objective name action definition =>
    exact (grounded.applyObjective name action definition).imp_right rostered.of_roster
  | displaySlot slot objective => exact (grounded.applyDisplaySlot slot objective).imp_right rostered.of_roster
  | setScore score => exact (grounded.applyScore score).imp_right rostered.of_roster
  | resetScore owner objective => exact (grounded.applyScoreReset owner objective).imp_right rostered.of_roster
  | team update => exact (rostered.changeTeam update).symm.imp_left grounded.of_board

private theorem empty_grounded : Grounded empty where
  slots slot name found := absurd found (by simp [empty])
  scores key score found := absurd found (by simp [empty])
  objectiveNames name objective found := absurd found (by simp [empty])
  scoreNames key score found := absurd found (by simp [empty])
  objectiveBound := Nat.zero_le _
  slotBound := Nat.zero_le _
  scoreBound := Nat.zero_le _

private theorem empty_rostered : Rostered empty where
  names name team found := absurd found (by simp [empty])
  distinct name team found := absurd found (by simp [empty])
  bound := Nat.zero_le _
  members := indexes_empty (by
    rintro name member ⟨team, found, _⟩
    exact absurd found (by simp [empty]))
  memberBound := Nat.zero_le _

theorem run_consistent (updates : List ScoreboardUpdate) : Grounded (run updates) ∧ Rostered (run updates) := by
  refine List.foldlRecOn (motive := fun s => Grounded s ∧ Rostered s) updates _ ⟨empty_grounded, empty_rostered⟩ ?_
  rintro s ⟨grounded, rostered⟩ update _
  exact apply_consistent grounded rostered update

/-- After any sequence of updates the scoreboard is consistent, and each member is in exactly one team. -/
theorem scoreboard_consistent (updates : List ScoreboardUpdate) :
    Grounded (run updates) ∧ Rostered (run updates) ∧
      ∀ member ∈ (run updates).memberTeams, ∃! name, MemberOf (run updates) name member := by
  obtain ⟨grounded, rostered⟩ := run_consistent updates
  refine ⟨grounded, rostered, fun member known => ?_⟩
  obtain ⟨name, found⟩ := isSome_iff_exists.mp (lookup_isSome.mpr known)
  have held := (rostered.members member name).mp found
  exact ⟨name, held, fun other otherHeld => rostered.members.holder_unique otherHeld held⟩

end Runs

end MineRider.Soundness.Scoreboard
