import MineRider.Soundness.Scoreboard
import MineRider.ToMathlib.AListChanged

/-! # What an update of the scoreboard reports

The counts of an event are the numbers of entries that differ before and after the update. The loops over members
move one of them at a time, to where it stays, so that a name that is repeated counts once; a team that is removed
counts the members that the index sends to it, because the index and the team's own list agree.
-/

namespace MineRider.Soundness.Scoreboard

open AList List Model.Minecraft ScoreboardState

section Statement

def eventApplied : Event → Bool
  | .objectiveChanged _ _ _ _ _ applied | .displaySlotChanged _ _ applied | .scoreChanged _ _ _ _ _ applied
  | .teamChanged _ _ _ _ _ applied => applied

/-- The counts of removals, resets and changes of members are the numbers of entries changed. -/
def Exact (s next : ScoreboardState) : Event → Prop
  | .objectiveChanged _ _ _ detachedSlots removedScores _ =>
    detachedSlots = (changed s.displaySlots next.displaySlots).ncard ∧
      removedScores = (changed s.scores next.scores).ncard
  | .scoreChanged _ _ .reset _ affected _ => affected = (changed s.scores next.scores).ncard
  | .teamChanged _ action _ affected _ _ => action = .addMembers ∨ action = .removeMembers ∨ action = .remove →
    affected = (changed s.memberTeams next.memberTeams).ncard
  | _ => True

/-- Only these objectives, slots and scores change. -/
structure Touches (s next : ScoreboardState) (objectives : Set String) (slots : Set DisplaySlot)
    (scores : Set ScoreKey) : Prop where
  objectives : changed s.objectives next.objectives ⊆ objectives
  slots : changed s.displaySlots next.displaySlots ⊆ slots
  scores : changed s.scores next.scores ⊆ scores
  sameRoster : roster next = roster s

def listed : TeamUpdate → List String
  | .create _ _ members | .addMembers _ members | .removeMembers _ members => members
  | _ => []

/-- The update replaces or removes the team, with all its members. -/
def dismisses : TeamUpdate → Prop
  | .create .. | .remove _ => True
  | _ => False

def definitionOf (s : ScoreboardState) (name : String) : Option TeamDefinition :=
  (s.teams.lookup name).map Team.toTeamDefinition

/-- Only the named team and the listed members change, except that a member that joins the named team leaves another. -/
structure TeamFrame (s next : ScoreboardState) (update : TeamUpdate) : Prop where
  sameBoard : board next = board s
  index : ∀ member ∈ changed s.memberTeams next.memberTeams,
    member ∈ listed update ∨ (dismisses update ∧ s.memberTeams.lookup member = some update.name)
  definitions : ∀ other ≠ update.name, definitionOf next other = definitionOf s other
  members : ∀ other member, (MemberOf next other member ↔ MemberOf s other member) ∨
    (other = update.name ∧ (member ∈ listed update ∨ dismisses update)) ∨
    (member ∈ listed update ∧ MemberOf s other member ∧ MemberOf next update.name member)

def Frame (s next : ScoreboardState) : ScoreboardUpdate → Prop
  | .objective name _ _ =>
    Touches s next {name} {slot | s.displaySlots.lookup slot = some name} {key | key.objective = name}
  | .displaySlot slot _ => Touches s next ∅ {slot} ∅
  | .setScore score => Touches s next ∅ ∅ {⟨score.objective, score.owner⟩}
  | .resetScore owner objective =>
    Touches s next ∅ ∅ {key | key.owner = owner ∧ ∀ name ∈ objective, key.objective = name}
  | .team update => TeamFrame s next update

structure Reported (s : ScoreboardState) (update : ScoreboardUpdate) (event : Event) (next : ScoreboardState) :
    Prop where
  refused : eventApplied event = false → next = s
  exact : Exact s next event
  frame : Frame s next update

end Statement

section Board

variable {s : ScoreboardState}

private theorem keeps_or_drops {τ : Type} {condition : Prop} [Decidable condition] (value : τ) :
    (if condition then some value else none) = some value ∨ (if condition then some value else none) = none := by
  split_ifs <;> simp

section

variable (s)

theorem Touches.refl (objectives : Set String) (slots : Set DisplaySlot) (scores : Set ScoreKey) :
    Touches s s objectives slots scores := by
  refine ⟨?_, ?_, ?_, rfl⟩ <;> simp

/-- An update of objectives that is refused. -/
theorem Reported.refl_objective {name : String} {action : ObjectiveAction}
    {definition : Option ObjectiveDefinition} {current : Option Objective} :
    Reported s (.objective name action definition) (.objectiveChanged name action current 0 0 false) s :=
  ⟨fun _ => rfl, by simp [Exact], .refl ..⟩

private theorem setObjective_reported {name : String} {action : ObjectiveAction} {objective : Objective}
    {definition : Option ObjectiveDefinition} {current : Option Objective} :
    Reported s (.objective name action definition) (.objectiveChanged name action current 0 0 true)
      { s with objectives := s.objectives.insert name objective } :=
  ⟨fun refused => absurd refused (by simp [eventApplied]), by simp [Exact],
    changed_insert_subset _ _ _, by simp, by simp, rfl⟩

private theorem removeObjective_reported (name : String) (definition : Option ObjectiveDefinition) :
    Reported s (.objective name .remove definition) (s.applyObjective name .remove definition).1
      (s.removeObjective name) where
  refused refused := by
    simp only [applyObjective, eventApplied, Bool.or_eq_false_iff, decide_eq_false_iff_not,
      bne_eq_false_iff_eq] at refused
    obtain ⟨⟨absent, slots⟩, scores⟩ := refused
    simp only [removeObjective, erase_of_notMem absent]
    rw [retain_eq_self (fun _ _ => keeps_or_drops _) _ slots, retain_eq_self (fun _ _ => keeps_or_drops _) _ scores]
  exact := ⟨(ncard_changed_retain (fun _ _ => keeps_or_drops _) _).symm,
    (ncard_changed_retain (fun _ _ => keeps_or_drops _) _).symm⟩
  frame := by
    refine ⟨changed_erase_subset _ _, ?_, ?_, rfl⟩
    · intro slot differs
      obtain ⟨stored, found, dropped⟩ := dropped_of_changed (fun _ _ => keeps_or_drops _) _ differs
      exact (show stored = name by simpa using dropped) ▸ found
    · intro key differs
      obtain ⟨stored, -, dropped⟩ := dropped_of_changed (fun _ _ => keeps_or_drops _) _ differs
      simpa using dropped

private theorem applyObjective_reported (name : String) (action : ObjectiveAction)
    (definition : Option ObjectiveDefinition) :
    Reported s (.objective name action definition) (s.applyObjective name action definition).1
      (s.applyObjective name action definition).2 := by
  cases action with
  | create =>
    cases definition with
    | none => exact .refl_objective s
    | some definition =>
      simp only [applyObjective, Option.elim, createObjective]
      split_ifs
      · exact .refl_objective s
      · exact setObjective_reported s
  | update =>
    cases definition with
    | none => exact .refl_objective s
    | some definition =>
      simp only [applyObjective, Option.elim, updateObjective]
      split_ifs
      · exact setObjective_reported s
      · exact .refl_objective s
  | remove => exact removeObjective_reported s name definition
  | unknown _ => exact .refl_objective s

private theorem applyDisplaySlot_reported (slot : DisplaySlot) (objective : Option String) :
    Reported s (.displaySlot slot objective) (s.applyDisplaySlot slot objective).1
      (s.applyDisplaySlot slot objective).2 := by
  cases objective with
  | none =>
    refine ⟨fun refused => ?_, trivial, by simp [applyDisplaySlot], changed_erase_subset _ _,
      by simp [applyDisplaySlot], rfl⟩
    simp only [applyDisplaySlot, eventApplied, decide_eq_false_iff_not] at refused ⊢
    rw [erase_of_notMem refused]
  | some name =>
    simp only [applyDisplaySlot]
    split_ifs
    · exact ⟨fun _ => rfl, trivial, .refl ..⟩
    · exact ⟨fun refused => absurd refused (by simp [eventApplied]), trivial, by simp, changed_insert_subset _ _ _,
        by simp, rfl⟩
    · exact ⟨fun _ => rfl, trivial, .refl ..⟩

private theorem applyScore_reported (score : Score) :
    Reported s (.setScore score) (s.applyScore score).1 (s.applyScore score).2 := by
  simp only [applyScore]
  split_ifs with applied
  · exact ⟨fun refused => absurd applied (by simpa [eventApplied] using refused), trivial, by simp, by simp,
      changed_insert_subset _ _ _, rfl⟩
  · exact ⟨fun _ => rfl, trivial, .refl ..⟩

private theorem applyScoreReset_reported (owner : String) (objective : Option String) :
    Reported s (.resetScore owner objective) (s.applyScoreReset owner objective).1
      (s.applyScoreReset owner objective).2 := by
  cases objective with
  | some objective =>
    refine ⟨fun refused => ?_, (ncard_changed_erase _ _).symm, by simp [applyScoreReset], by simp [applyScoreReset], ?_,
      rfl⟩
    · simp only [applyScoreReset, eventApplied, bne_eq_false_iff_eq, Bool.toNat_eq_zero,
        decide_eq_false_iff_not] at refused ⊢
      rw [erase_of_notMem refused]
    · intro key differs
      obtain rfl := changed_erase_subset _ _ differs
      exact ⟨rfl, fun name same => Option.some_inj.mp same⟩
  | none =>
    refine ⟨fun refused => ?_, (ncard_changed_retain (fun _ _ => keeps_or_drops _) _).symm,
      by simp [applyScoreReset], by simp [applyScoreReset], ?_, rfl⟩
    · simp only [applyScoreReset, eventApplied, bne_eq_false_iff_eq] at refused ⊢
      rw [retain_eq_self (fun _ _ => keeps_or_drops _) _ refused]
    · intro key differs
      obtain ⟨stored, -, dropped⟩ := dropped_of_changed (fun _ _ => keeps_or_drops _) _ differs
      exact ⟨by simpa using dropped, by simp⟩

end

end Board

section Loops

variable {s between next : ScoreboardState} {members : List String} {name member : String} {target : Option String}
  {source : Option String → Prop} {affected : ℕ}

/-- A loop over members: it counts those it changes, and takes each of them from the source to the target. -/
structure Counted (members : List String) (source : Option String → Prop) (target : Option String)
    (s : ScoreboardState) (affected : ℕ) (next : ScoreboardState) : Prop where
  count : affected = (changed s.memberTeams next.memberTeams).ncard
  moved : ∀ member ∈ changed s.memberTeams next.memberTeams,
    member ∈ members ∧ source (s.memberTeams.lookup member) ∧ next.memberTeams.lookup member = target
  definitions : ∀ other, definitionOf next other = definitionOf s other
  still : affected = 0 → next = s

theorem Counted.refl (members : List String) (source : Option String → Prop) (target : Option String)
    (s : ScoreboardState) : Counted members source target s 0 s :=
  ⟨by simp, by simp, fun _ => rfl, fun _ => rfl⟩

theorem Counted.skip (later : Counted members source target s affected next) (member : String) :
    Counted (member :: members) source target s affected next :=
  { later with moved := fun entry differs => (later.moved entry differs).imp_left (mem_cons_of_mem _) }

/-- One member is changed first; it is at the target, so the rest of the loop leaves it there. -/
theorem Counted.step (later : Counted members source target between affected next)
    (first : changed s.memberTeams between.memberTeams = {member}) (left : source (s.memberTeams.lookup member))
    (arrived : between.memberTeams.lookup member = target)
    (definitions : ∀ other, definitionOf between other = definitionOf s other) :
    Counted (member :: members) source target s (affected + 1) next := by
  have stays : member ∉ changed between.memberTeams next.memberTeams :=
    fun differs => differs ((later.moved member differs).2.2.trans arrived.symm)
  refine ⟨by rw [ncard_changed_succ first stays, later.count], fun entry differs => ?_,
    fun other => (later.definitions other).trans (definitions other), fun none_ => absurd none_ (Nat.succ_ne_zero _)⟩
  by_cases chosen : entry = member
  · subst chosen
    exact ⟨mem_cons_self, left, (not_not.mp stays).trans arrived⟩
  · have same : between.memberTeams.lookup entry = s.memberTeams.lookup entry := by
      by_contra other
      exact chosen (first.subset other)
    obtain ⟨inside, from_, done⟩ := later.moved entry (same ▸ differs : _ ≠ _)
    exact ⟨mem_cons_of_mem _ inside, same ▸ from_, done⟩

theorem definitionOf_editTeam (edit : Team → Team) (kept : ∀ team, (edit team).toTeamDefinition = team.toTeamDefinition)
    (s : ScoreboardState) (name other : String) : definitionOf (s.editTeam name edit) other = definitionOf s other := by
  rw [definitionOf, lookup_editTeam]
  split_ifs with same
  · rw [same, Option.map_map, definitionOf]
    exact congrArg (Option.map · _) (funext kept)
  · rfl

private theorem definitionOf_moveMember (s : ScoreboardState) (name member other : String) :
    definitionOf (s.moveMember name member) other = definitionOf s other := by
  refine (definitionOf_editTeam (Team.insertMember member) (fun _ => rfl) _ _ _).trans ?_
  cases s.memberTeams.lookup member with
  | none => rfl
  | some previous => exact definitionOf_editTeam (Team.removeMember member) (fun _ => rfl) _ _ _

private theorem changed_insert {map : AList fun _ : String => String} (other : map.lookup member ≠ some name) :
    changed map (map.insert member name) = {member} := by
  refine (changed_insert_subset _ _ _).antisymm (Set.singleton_subset_iff.mpr ?_)
  rw [changed, Set.mem_ofPred_eq, lookup_insert]
  exact other.symm

private theorem changed_erase {map : AList fun _ : String => String} (held : map.lookup member = some name) :
    changed map (map.erase member) = {member} := by
  refine (changed_erase_subset _ _).antisymm (Set.singleton_subset_iff.mpr ?_)
  rw [changed, Set.mem_ofPred_eq, lookup_erase, held]
  simp

private theorem addTeamMembers_counted (members : List String) {s : ScoreboardState} (known : name ∈ s.teams) :
    Counted members (fun _ => True) (some name) s (addTeamMembers name members s).1
      (addTeamMembers name members s).2.2 := by
  induction members generalizing s with
  | nil => exact .refl ..
  | cons member rest ih =>
    simp only [addTeamMembers]
    split_ifs with inside full
    · exact (ih known).skip member
    · exact (ih known).skip member
    · have stillKnown : name ∈ (s.moveMember name member).teams := mem_teams_moveMember.mpr known
      simp only [known, decide_true, Bool.toNat_true]
      refine (ih stillKnown).step ?_ trivial ?_ (definitionOf_moveMember s name member)
      · simp only [moveMember, memberTeams_editTeam, memberTeams_releaseMember]
        exact changed_insert inside
      · simp only [moveMember, memberTeams_editTeam, memberTeams_releaseMember, lookup_insert]

private theorem removeNamedTeamMembers_counted (members : List String) (s : ScoreboardState) :
    Counted members (· = some name) none s (removeNamedTeamMembers name members s).1
      (removeNamedTeamMembers name members s).2 := by
  induction members generalizing s with
  | nil => exact .refl ..
  | cons member rest ih =>
    simp only [removeNamedTeamMembers]
    split_ifs with inside
    · refine (ih _).step ?_ inside ?_ fun other => ?_
      · rw [memberTeams_editTeam]
        exact changed_erase inside
      · rw [memberTeams_editTeam, lookup_erase]
      · exact definitionOf_editTeam (Team.removeMember member) (fun _ => rfl) _ _ _
    · exact (ih s).skip member

/-- A team that is emptied counts the members that the index sends to it. -/
theorem Rostered.removeTeamMembers_counted (rostered : Rostered s) (name : String) :
    (s.removeTeamMembers name).1 = (changed s.memberTeams (s.removeTeamMembers name).2.memberTeams).ncard ∧
    (∀ entry, (s.removeTeamMembers name).2.memberTeams.lookup entry =
      if s.memberTeams.lookup entry = some name then none else s.memberTeams.lookup entry) ∧
    (∀ other, definitionOf (s.removeTeamMembers name).2 other = definitionOf s other) ∧
    (name ∉ s.teams → (s.removeTeamMembers name).2 = s) := by
  unfold ScoreboardState.removeTeamMembers
  split
  · rename_i unknown
    refine ⟨by simp, fun entry => ?_, fun _ => rfl, fun _ => rfl⟩
    split_ifs with held
    · obtain ⟨team, found, -⟩ := (rostered.members entry name).mp held
      exact absurd (unknown.symm.trans found) (by simp)
    · rfl
  · rename_i team found
    have after (entry : String) : ((team.members.foldl (fun s member => s.forgetMember name member) s).editTeam name
        Team.clearMembers).memberTeams.lookup entry =
        if s.memberTeams.lookup entry = some name then none else s.memberTeams.lookup entry := by
      rw [memberTeams_editTeam, rostered.lookup_forgotten found]
    refine ⟨?_, after, fun other => ?_, fun unknown => absurd (lookup_isSome.mp (found ▸ rfl)) unknown⟩
    · have same : changed s.memberTeams
          ((team.members.foldl (fun s member => s.forgetMember name member) s).editTeam name
          Team.clearMembers).memberTeams = ↑team.members.toFinset := by
        ext entry
        rw [changed, Set.mem_ofPred_eq, after, Finset.mem_coe, mem_toFinset, rostered.mem_members_iff found]
        split_ifs with held
        all_goals simp [held]
      rw [same, Set.ncard_coe_finset, toFinset_card_of_nodup (rostered.distinct name team found)]
    · refine (definitionOf_editTeam Team.clearMembers (fun _ => rfl) _ _ _).trans ?_
      rw [definitionOf, (teams_forget _ _).1, definitionOf]

end Loops

section Teams

variable {s next : ScoreboardState} {update : TeamUpdate}

/-- A member whose team changes has joined the named team, or has left it for none. -/
def Moves (s next : ScoreboardState) (update : TeamUpdate) : Prop :=
  ∀ member ∈ changed s.memberTeams next.memberTeams,
    (member ∈ listed update ∧ next.memberTeams.lookup member = some update.name) ∨
    ((member ∈ listed update ∨ dismisses update) ∧ s.memberTeams.lookup member = some update.name ∧
      next.memberTeams.lookup member = none)

theorem TeamFrame.of_moves (rostered : Rostered s) (rosteredNext : Rostered next) (sameBoard : board next = board s)
    (definitions : ∀ other ≠ update.name, definitionOf next other = definitionOf s other)
    (moves : Moves s next update) : TeamFrame s next update where
  sameBoard := sameBoard
  definitions := definitions
  index member differs := by
    obtain ⟨inside, -⟩ | ⟨inside, held, -⟩ := moves member differs
    · exact .inl inside
    · exact inside.imp_right fun all => ⟨all, held⟩
  members other member := by
    rw [← rostered.members member other, ← rosteredNext.members member other,
      ← rosteredNext.members member update.name]
    by_cases same : next.memberTeams.lookup member = s.memberTeams.lookup member
    · exact .inl (by rw [same])
    · by_cases named : other = update.name
      · obtain ⟨inside, -⟩ | ⟨inside, -⟩ := moves member same
        · exact .inr (.inl ⟨named, .inl inside⟩)
        · exact .inr (.inl ⟨named, inside⟩)
      · obtain ⟨inside, joined⟩ | ⟨-, held, gone⟩ := moves member same
        · by_cases before : s.memberTeams.lookup member = some other
          · exact .inr (.inr ⟨inside, before, joined⟩)
          · exact .inl (iff_of_false (by simpa [joined] using Ne.symm named) before)
        · exact .inl (by simp [held, gone, Ne.symm named])

theorem TeamFrame.refl (s : ScoreboardState) (update : TeamUpdate) : TeamFrame s s update :=
  ⟨rfl, by simp, fun _ _ => rfl, fun _ _ => .inl Iff.rfl⟩

theorem Counted.moves_to {members : List String} {affected : ℕ} {source : Option String → Prop}
    (counted : Counted members source (some update.name) s affected next) (all : listed update = members) :
    Moves s next update := by
  intro member differs
  obtain ⟨inside, -, joined⟩ := counted.moved member differs
  exact .inl ⟨all ▸ inside, joined⟩

/-- The members of an emptied team leave it, and the listed ones join it after that. -/
theorem Rostered.moves_emptied (rostered : Rostered s) (all : dismisses update)
    (joins : ∀ member ∈ changed (s.removeTeamMembers update.name).2.memberTeams next.memberTeams,
      member ∈ listed update ∧ next.memberTeams.lookup member = some update.name) : Moves s next update := by
  intro member differs
  obtain ⟨-, emptied, -⟩ := rostered.removeTeamMembers_counted update.name
  by_cases joined : member ∈ changed (s.removeTeamMembers update.name).2.memberTeams next.memberTeams
  · exact .inl (joins member joined)
  · have after : next.memberTeams.lookup member = _ := (not_not.mp joined).trans (emptied member)
    split_ifs at after with held
    · exact .inr ⟨.inr all, held, after⟩
    · exact absurd after differs

private theorem frame_changeTeam (rostered : Rostered s) (update : TeamUpdate) :
    TeamFrame s (s.changeTeam update).2.2.2 update := by
  obtain ⟨next, sameBoard⟩ := rostered.changeTeam update
  cases update with
  | create name definition members =>
    simp only [changeTeam] at next sameBoard ⊢
    split_ifs at next sameBoard ⊢
    · exact .refl ..
    · obtain ⟨-, -, kept, -⟩ := rostered.removeTeamMembers_counted name
      have known : name ∈ (s.removeTeamMembers name).2.teams.insert name (definition.intoTeam name) :=
        (mem_insert _).mpr (.inl rfl)
      have counted := addTeamMembers_counted members (s := { (s.removeTeamMembers name).2 with
          teams := (s.removeTeamMembers name).2.teams.insert name (definition.intoTeam name) }) known
      refine .of_moves rostered next sameBoard (fun other different => ?_)
        (rostered.moves_emptied trivial fun member differs => ?_)
      · rw [counted.definitions, ← kept other]
        exact congrArg _ (lookup_insert_ne different)
      · obtain ⟨inside, -, joined⟩ := counted.moved member differs
        exact ⟨inside, joined⟩
  | remove name =>
    obtain ⟨-, -, kept, -⟩ := rostered.removeTeamMembers_counted name
    refine .of_moves rostered next sameBoard (fun other different => ?_)
      (rostered.moves_emptied trivial fun member differs => absurd rfl differs)
    rw [← kept other]
    exact congrArg _ (lookup_erase_ne different)
  | update name definition =>
    simp only [changeTeam] at next sameBoard ⊢
    split_ifs at next sameBoard ⊢
    · refine .of_moves rostered next sameBoard (fun other different => ?_) ?_
      · exact congrArg _ ((lookup_editTeam ..).trans (if_neg different))
      · intro member differs
        rw [memberTeams_editTeam] at differs
        exact absurd rfl differs
    · exact .refl ..
  | addMembers name members =>
    simp only [changeTeam] at next sameBoard ⊢
    split_ifs at next sameBoard ⊢ with known
    · have counted := addTeamMembers_counted members known
      exact .of_moves rostered next sameBoard (fun other _ => counted.definitions other) (counted.moves_to rfl)
    · exact .refl ..
  | removeMembers name members =>
    simp only [changeTeam] at next sameBoard ⊢
    split_ifs at next sameBoard ⊢ with known
    · have counted := @removeNamedTeamMembers_counted name members s
      refine .of_moves rostered next sameBoard (fun other _ => counted.definitions other) fun member differs => ?_
      obtain ⟨inside, held, gone⟩ := counted.moved member differs
      exact .inr ⟨.inl inside, held, gone⟩
    · exact .refl ..
  | unknown _ _ => exact .refl ..

private theorem applyTeam_reported (rostered : Rostered s) (update : TeamUpdate) :
    Reported s (.team update) (s.applyTeam update).1 (s.applyTeam update).2 := by
  have frame := frame_changeTeam rostered update
  cases update with
  | create name definition members =>
    simp only [applyTeam, changeTeam] at frame ⊢
    split_ifs at frame ⊢
    · exact ⟨fun _ => rfl, by simp [Exact, teamEvent, TeamUpdate.action], frame⟩
    · exact ⟨fun refused => absurd refused (by simp [eventApplied, teamEvent]),
        by simp [Exact, teamEvent, TeamUpdate.action], frame⟩
  | remove name =>
    obtain ⟨count, -, -, absent⟩ := rostered.removeTeamMembers_counted name
    refine ⟨fun refused => ?_, fun _ => count, frame⟩
    simp only [applyTeam, changeTeam, eventApplied, teamEvent, decide_eq_false_iff_not,
      (removeTeamMembers_teams s name name).1] at refused ⊢
    rw [absent refused, erase_of_notMem refused]
  | update name definition =>
    simp only [applyTeam, changeTeam] at frame ⊢
    split_ifs at frame ⊢
    · exact ⟨fun refused => absurd refused (by simp [eventApplied, teamEvent]),
        by simp [Exact, teamEvent, TeamUpdate.action], frame⟩
    · exact ⟨fun _ => rfl, by simp [Exact, teamEvent, TeamUpdate.action], frame⟩
  | addMembers name members =>
    simp only [applyTeam, changeTeam] at frame ⊢
    split_ifs at frame ⊢ with known
    · have counted := addTeamMembers_counted members known
      exact ⟨fun refused => counted.still (by simpa [eventApplied, teamEvent] using refused),
        fun _ => counted.count, frame⟩
    · exact ⟨fun _ => rfl, fun _ => by simp, frame⟩
  | removeMembers name members =>
    simp only [applyTeam, changeTeam] at frame ⊢
    split_ifs at frame ⊢ with known
    · have counted := @removeNamedTeamMembers_counted name members s
      exact ⟨fun refused => counted.still (by simpa [eventApplied, teamEvent] using refused),
        fun _ => counted.count, frame⟩
    · exact ⟨fun _ => rfl, fun _ => by simp, frame⟩
  | unknown _ _ => exact ⟨fun _ => rfl, by simp [Exact, applyTeam, changeTeam, teamEvent, TeamUpdate.action], frame⟩

end Teams

/-- In every reachable state, an update that is not applied changes nothing, its counts are exact, and nothing but
what it names changes. -/
theorem scoreboard_reports (updates : List ScoreboardUpdate) (update : ScoreboardUpdate) :
    Reported (run updates) update ((run updates).apply update).1 ((run updates).apply update).2 := by
  obtain ⟨-, rostered⟩ := run_consistent updates
  cases update with
  | objective name action definition => exact applyObjective_reported _ name action definition
  | displaySlot slot objective => exact applyDisplaySlot_reported _ slot objective
  | setScore score => exact applyScore_reported _ score
  | resetScore owner objective => exact applyScoreReset_reported _ owner objective
  | team update => exact applyTeam_reported rostered update

end MineRider.Soundness.Scoreboard
