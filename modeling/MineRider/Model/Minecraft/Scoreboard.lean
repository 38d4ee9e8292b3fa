import MineRider.Model.Minecraft.Text
import MineRider.ToMathlib.AListRetain

/-! # The scoreboard

Objectives, the slots that display them, scores, and teams with their members. Every update comes from the server,
so each collection has a bound, and an entry beyond it is refused. A member belongs to at most one team: the state
keeps the teams' own member sets and, private to it, the team of each member.

The maps of the source are ordered, but no function here reads them in order. A set of members is the list of its
elements, each once.
-/

namespace MineRider.Model.Minecraft

open Protocol

section Values

inductive ObjectiveRenderType where
  | integer
  | hearts
  | unknown (value : Int32)
deriving DecidableEq, Repr

inductive NumberFormat where
  | blank
  | styled (styling : Nbt)
  | fixed (text : TextComponent)
  | unknown (kind : Int32) (styling : Option Nbt)

structure Objective where
  name : String
  displayName : TextComponent
  renderType : ObjectiveRenderType
  numberFormat : Option NumberFormat

inductive TeamColor where
  | black
  | darkBlue
  | darkGreen
  | darkAqua
  | darkRed
  | darkPurple
  | gold
  | gray
  | darkGray
  | blue
  | green
  | aqua
  | red
  | lightPurple
  | yellow
  | white
  | reset
  | unknown (value : Int32)
deriving DecidableEq, Repr

inductive DisplaySlot where
  | list
  | sidebar
  | belowName
  | team (color : TeamColor)
  | unknown (value : Int32)
deriving DecidableEq, Repr

structure ScoreKey where
  objective : String
  owner : String
deriving DecidableEq, Repr

structure Score where
  owner : String
  objective : String
  value : Int32
  displayName : Option TextComponent
  numberFormat : Option NumberFormat

structure FriendlyFire where
  raw : UInt8
deriving DecidableEq, Repr

inductive NameTagVisibility where
  | always
  | never
  | hideForOtherTeams
  | hideForOwnTeam
  | unknown (value : String)
deriving DecidableEq, Repr

inductive CollisionRule where
  | always
  | never
  | pushOtherTeams
  | pushOwnTeam
  | unknown (value : String)
deriving DecidableEq, Repr

/-- What the server says of a team, its name and members apart. -/
structure TeamDefinition where
  displayName : TextComponent
  friendlyFire : FriendlyFire
  nameTagVisibility : NameTagVisibility
  collisionRule : CollisionRule
  color : TeamColor
  prefixText : TextComponent
  suffixText : TextComponent

structure Team extends TeamDefinition where
  name : String
  members : List String

def TeamDefinition.intoTeam (definition : TeamDefinition) (name : String) : Team :=
  { definition with name, members := [] }

def Team.insertMember (member : String) (team : Team) : Team := { team with members := team.members.insert member }

def Team.removeMember (member : String) (team : Team) : Team := { team with members := team.members.erase member }

def Team.clearMembers (team : Team) : Team := { team with members := [] }

structure ObjectiveDefinition where
  displayName : TextComponent
  renderType : ObjectiveRenderType
  numberFormat : Option NumberFormat

def ObjectiveDefinition.intoObjective (definition : ObjectiveDefinition) (name : String) : Objective :=
  ⟨name, definition.displayName, definition.renderType, definition.numberFormat⟩

end Values

section Updates

inductive ObjectiveAction where
  | create
  | remove
  | update
  | unknown (action : Int8)
deriving DecidableEq, Repr

inductive ScoreAction where
  | set
  | reset
deriving DecidableEq, Repr

inductive TeamAction where
  | create
  | remove
  | update
  | addMembers
  | removeMembers
  | unknown (mode : Int8)
deriving DecidableEq, Repr

inductive TeamUpdate where
  | create (name : String) (definition : TeamDefinition) (members : List String)
  | remove (name : String)
  | update (name : String) (definition : TeamDefinition)
  | addMembers (name : String) (members : List String)
  | removeMembers (name : String) (members : List String)
  | unknown (name : String) (mode : Int8)

def TeamUpdate.name : TeamUpdate → String
  | .create name .. | .remove name | .update name _ | .addMembers name _ | .removeMembers name _ | .unknown name _ =>
    name

def TeamUpdate.action : TeamUpdate → TeamAction
  | .create .. => .create
  | .remove _ => .remove
  | .update .. => .update
  | .addMembers .. => .addMembers
  | .removeMembers .. => .removeMembers
  | .unknown _ mode => .unknown mode

inductive ScoreboardUpdate where
  | objective (name : String) (action : ObjectiveAction) (definition : Option ObjectiveDefinition)
  | displaySlot (slot : DisplaySlot) (objective : Option String)
  | setScore (score : Score)
  | resetScore (owner : String) (objective : Option String)
  | team (update : TeamUpdate)

end Updates

def maxObjectives : ℕ := 256
def maxDisplaySlots : ℕ := 64
def maxScores : ℕ := 16384
def maxTeams : ℕ := 1024
def maxTeamMembers : ℕ := 16384

structure ScoreboardState where
  objectives : AList fun _ : String => Objective
  displaySlots : AList fun _ : DisplaySlot => String
  scores : AList fun _ : ScoreKey => Score
  teams : AList fun _ : String => Team
  memberTeams : AList fun _ : String => String

namespace ScoreboardState

/-- The event of an update, with the data its observers get. -/
inductive Event where
  | objectiveChanged (name : String) (action : ObjectiveAction) (current : Option Objective)
    (detachedSlots removedScores : ℕ) (applied : Bool)
  | displaySlotChanged (slot : DisplaySlot) (objective : Option String) (applied : Bool)
  | scoreChanged (owner : String) (objective : Option String) (action : ScoreAction) (current : Option Score)
    (affected : ℕ) (applied : Bool)
  | teamChanged (name : String) (action : TeamAction) (current : Option Team)
    (affectedMembers rejectedMembers : ℕ) (applied : Bool)

def empty : ScoreboardState := ⟨∅, ∅, ∅, ∅, ∅⟩

section Objectives

def createObjective (s : ScoreboardState) (name : String) (definition : ObjectiveDefinition) :
    Bool × ScoreboardState :=
  if name ∉ s.objectives ∧ s.objectives.keys.length ≥ maxObjectives then (false, s)
  else (true, { s with objectives := s.objectives.insert name (definition.intoObjective name) })

def updateObjective (s : ScoreboardState) (name : String) (definition : ObjectiveDefinition) :
    Bool × ScoreboardState :=
  if name ∈ s.objectives then
    (true, { s with objectives := s.objectives.insert name (definition.intoObjective name) })
  else (false, s)

/-- The objective goes, with the slots that display it and its scores. -/
def removeObjective (s : ScoreboardState) (name : String) : ScoreboardState :=
  { s with
    objectives := s.objectives.erase name
    displaySlots := s.displaySlots.retainValues fun _ objective => if objective ≠ name then some objective else none
    scores := s.scores.retainValues fun key score => if key.objective ≠ name then some score else none }

def applyObjective (s : ScoreboardState) (name : String) (action : ObjectiveAction)
    (definition : Option ObjectiveDefinition) : Event × ScoreboardState :=
  match action with
  | .create =>
    let (applied, next) := definition.elim (false, s) (s.createObjective name)
    (.objectiveChanged name action (next.objectives.lookup name) 0 0 applied, next)
  | .update =>
    let (applied, next) := definition.elim (false, s) (s.updateObjective name)
    (.objectiveChanged name action (next.objectives.lookup name) 0 0 applied, next)
  | .remove =>
    let next := s.removeObjective name
    let removed := decide (name ∈ s.objectives)
    let detachedSlots := s.displaySlots.keys.length - next.displaySlots.keys.length
    let removedScores := s.scores.keys.length - next.scores.keys.length
    (.objectiveChanged name action (next.objectives.lookup name) detachedSlots removedScores
      (removed || detachedSlots != 0 || removedScores != 0), next)
  | .unknown _ => (.objectiveChanged name action (s.objectives.lookup name) 0 0 false, s)

def applyDisplaySlot (s : ScoreboardState) (slot : DisplaySlot) (objective : Option String) :
    Event × ScoreboardState :=
  let (applied, next) : Bool × ScoreboardState :=
    match objective with
    | none => (decide (slot ∈ s.displaySlots), { s with displaySlots := s.displaySlots.erase slot })
    | some name =>
      if name ∉ s.objectives then (false, s)
      else if slot ∉ s.displaySlots ∧ s.displaySlots.keys.length ≥ maxDisplaySlots then (false, s)
      else (true, { s with displaySlots := s.displaySlots.insert slot name })
  (.displaySlotChanged slot (next.displaySlots.lookup slot) applied, next)

end Objectives

section Scores

def applyScore (s : ScoreboardState) (score : Score) : Event × ScoreboardState :=
  let key : ScoreKey := ⟨score.objective, score.owner⟩
  let objectiveExists := decide (score.objective ∈ s.objectives)
  let hasCapacity := decide (key ∈ s.scores) || decide (s.scores.keys.length < maxScores)
  let applied := objectiveExists && hasCapacity
  let next := if applied then { s with scores := s.scores.insert key score } else s
  (.scoreChanged key.owner (some key.objective) .set (next.scores.lookup key) applied.toNat applied, next)

def applyScoreReset (s : ScoreboardState) (owner : String) (objective : Option String) : Event × ScoreboardState :=
  let (affected, next) : ℕ × ScoreboardState :=
    match objective with
    | some objective =>
      let key : ScoreKey := ⟨objective, owner⟩
      ((decide (key ∈ s.scores)).toNat, { s with scores := s.scores.erase key })
    | none =>
      let kept := s.scores.retainValues fun key score => if key.owner ≠ owner then some score else none
      (s.scores.keys.length - kept.keys.length, { s with scores := kept })
  (.scoreChanged owner objective .reset none affected (affected != 0), next)

end Scores

section Teams

/-- Change a team in place, if there is one of the name. -/
def editTeam (s : ScoreboardState) (name : String) (edit : Team → Team) : ScoreboardState :=
  match s.teams.lookup name with
  | some team => { s with teams := s.teams.insert name (edit team) }
  | none => s

/-- Take a member out of the team it was in, if any. -/
def releaseMember (s : ScoreboardState) (previous : Option String) (member : String) : ScoreboardState :=
  match previous with
  | some previous => s.editTeam previous (Team.removeMember member)
  | none => s

/-- Put a member in a team it is not in. -/
def moveMember (s : ScoreboardState) (teamName member : String) : ScoreboardState :=
  let claimed := { s with memberTeams := s.memberTeams.insert member teamName }
  (claimed.releaseMember (s.memberTeams.lookup member) member).editTeam teamName (Team.insertMember member)

/-- The members that joined, those that were refused, and the state. -/
def addTeamMembers (teamName : String) : List String → ScoreboardState → ℕ × ℕ × ScoreboardState
  | [], s => (0, 0, s)
  | member :: rest, s =>
    if s.memberTeams.lookup member = some teamName then addTeamMembers teamName rest s
    else if member ∉ s.memberTeams ∧ s.memberTeams.keys.length ≥ maxTeamMembers then
      let (affected, rejected, next) := addTeamMembers teamName rest s
      (affected, rejected + 1, next)
    else
      let (affected, rejected, next) := addTeamMembers teamName rest (s.moveMember teamName member)
      (affected + (decide (teamName ∈ s.teams)).toNat, rejected, next)

def forgetMember (s : ScoreboardState) (teamName member : String) : ScoreboardState :=
  if s.memberTeams.lookup member = some teamName then { s with memberTeams := s.memberTeams.erase member } else s

/-- Empty a team. -/
def removeTeamMembers (s : ScoreboardState) (teamName : String) : ℕ × ScoreboardState :=
  match s.teams.lookup teamName with
  | none => (0, s)
  | some team =>
    let forgotten := team.members.foldl (fun s member => s.forgetMember teamName member) s
    (team.members.length, forgotten.editTeam teamName Team.clearMembers)

def removeNamedTeamMembers (teamName : String) : List String → ScoreboardState → ℕ × ScoreboardState
  | [], s => (0, s)
  | member :: rest, s =>
    if s.memberTeams.lookup member = some teamName then
      let released := { s with memberTeams := s.memberTeams.erase member }.editTeam teamName (Team.removeMember member)
      let (affected, next) := removeNamedTeamMembers teamName rest released
      (affected + 1, next)
    else removeNamedTeamMembers teamName rest s

def teamEvent (s : ScoreboardState) (name : String) (action : TeamAction) (applied : Bool)
    (affectedMembers rejectedMembers : ℕ) : Event :=
  .teamChanged name action (s.teams.lookup name) affectedMembers rejectedMembers applied

/-- Whether the update was applied, the members it affected and refused, and the state. -/
def changeTeam (s : ScoreboardState) : TeamUpdate → Bool × ℕ × ℕ × ScoreboardState
  | .create name definition members =>
    if name ∉ s.teams ∧ s.teams.keys.length ≥ maxTeams then (false, 0, members.length, s)
    else
      let (_, emptied) := s.removeTeamMembers name
      (true, addTeamMembers name members { emptied with teams := emptied.teams.insert name (definition.intoTeam name) })
  | .remove name =>
    let (affected, emptied) := s.removeTeamMembers name
    (decide (name ∈ emptied.teams), affected, 0, { emptied with teams := emptied.teams.erase name })
  | .update name definition =>
    if name ∈ s.teams then
      (true, 0, 0, s.editTeam name fun team => { definition.intoTeam name with members := team.members })
    else (false, 0, 0, s)
  | .addMembers name members =>
    if name ∉ s.teams then (false, 0, members.length, s)
    else
      let (affected, rejected, next) := addTeamMembers name members s
      (affected != 0, affected, rejected, next)
  | .removeMembers name members =>
    if name ∉ s.teams then (false, 0, members.length, s)
    else
      let (affected, next) := removeNamedTeamMembers name members s
      (affected != 0, affected, 0, next)
  | .unknown _ _ => (false, 0, 0, s)

def applyTeam (s : ScoreboardState) (update : TeamUpdate) : Event × ScoreboardState :=
  let (applied, affectedMembers, rejectedMembers, next) := s.changeTeam update
  (next.teamEvent update.name update.action applied affectedMembers rejectedMembers, next)

end Teams

def apply (s : ScoreboardState) : ScoreboardUpdate → Event × ScoreboardState
  | .objective name action definition => s.applyObjective name action definition
  | .displaySlot slot objective => s.applyDisplaySlot slot objective
  | .setScore score => s.applyScore score
  | .resetScore owner objective => s.applyScoreReset owner objective
  | .team update => s.applyTeam update

/-- The state after a sequence of updates, from the empty one. -/
def run (updates : List ScoreboardUpdate) : ScoreboardState := updates.foldl (fun s update => (s.apply update).2) empty

end ScoreboardState

end MineRider.Model.Minecraft
