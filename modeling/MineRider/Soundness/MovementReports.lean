import MineRider.Machine.Run
import MineRider.Soundness.PlayFrames

/-! # What the server knows of the player's movement

The player keeps a copy of what it has last reported and reports what differs from it. The copy is renewed with every
report, and once without one, when the player is declared loaded. If the player is then where, and as, it was last
reported, the copy is what the server was told, and every movement tick leaves the server up to date.
-/

namespace MineRider.Soundness.MovementReports

open Model.Minecraft PlayLoop Machine PlayFrames Handler LocalPlayer

variable {K W G : Type}

section Server

/-- What the packets of the client tell a server. -/
structure Told (K : Type) where
  position : Option (Vec3 K)
  rotation : Option (K × K)
  flags : Option MovementFlags
  /-- How often a position was reported. -/
  reports : ℕ
  /-- How many ticks have ended since the last such report. -/
  ticks : ℕ
deriving DecidableEq

def Told.nothing : Told K := ⟨none, none, none, 0, 0⟩

def Told.hear (told : Told K) : Serverbound K → Told K
  | .movement (.positionLook x y z yaw pitch flags) =>
    ⟨some ⟨x, y, z⟩, some (yaw, pitch), some flags, told.reports + 1, 0⟩
  | .movement (.position x y z flags) =>
    { told with position := some ⟨x, y, z⟩, flags := some flags, reports := told.reports + 1, ticks := 0 }
  | .movement (.look yaw pitch flags) => { told with rotation := some (yaw, pitch), flags := some flags }
  | .movement (.statusOnly flags) => { told with flags := some flags }
  | .tickEnd => { told with ticks := told.ticks + 1 }
  | _ => told

/-- What the server was told in a connection. -/
def told (s : PlayLoop K W G) : Told K := s.sent.foldl .hear .nothing

end Server

section Statement

variable [Field K]

/-- The server was last told the player's rotation and flags, and a position within the threshold. -/
structure UpToDate [LinearOrder K] (told : Told K) (player : LocalPlayer K) : Prop where
  rotation : told.rotation = some (player.position.yaw, player.position.pitch)
  flags : told.flags = some player.flags
  position : ∃ there, told.position = some there ∧
    distanceSqr player.position ⟨there.x, there.y, there.z, 0, 0⟩ ≤ positionEpsilonSquared

/-- The server was told exactly where and how the player is, and no tick has ended since. -/
structure Exact (told : Told K) (player : LocalPlayer K) : Prop where
  rotation : told.rotation = some (player.position.yaw, player.position.pitch)
  flags : told.flags = some player.flags
  position : told.position = some ⟨player.position.x, player.position.y, player.position.z⟩
  ticks : told.ticks = 0

/-- A tick that a living and loaded player completes. -/
def moves (s next : PlayLoop K W G) : LoopInput K G → Bool
  | .tick => s.state.player.isAlive && s.state.player.loaded && next.phase = .playing
  | _ => false

variable [LinearOrder K] [FloorRing K]

/-- The number of such ticks. -/
def movements (around : Surroundings K W G) (s : PlayLoop K W G) : List (LoopInput K G) → ℕ
  | [] => 0
  | input :: rest =>
    (if moves s (s.step around input) input then 1 else 0) + movements around (s.step around input) rest

/-- A tick that declares the player loaded finds it as it was last reported. -/
def Settled (around : Surroundings K W G) (s : PlayLoop K W G) : LoopInput K G → Prop
  | .tick => s.phase = .playing → s.state.player.isAlive = true → readyToLoad around s.state = true →
    Exact (told s) s.state.player
  | _ => True

end Statement

section Copy

/-- What the server was told, and what the player believes it was told. -/
structure Record (K : Type) where
  told : Told K
  loaded : Bool
  last : PlayerPosition K
  lastFlags : MovementFlags
  reminder : ℕ

def Record.of (told : Told K) (player : LocalPlayer K) : Record K :=
  ⟨told, player.loaded, player.last, player.lastFlags, player.positionReminder⟩

/-- The player is right. -/
structure Agreed (record : Record K) : Prop where
  position : record.told.position = some ⟨record.last.x, record.last.y, record.last.z⟩
  rotation : record.told.rotation = some (record.last.yaw, record.last.pitch)
  flags : record.told.flags = some record.lastFlags
  reminder : record.reminder < positionReminderInterval

/-- A tick that declares the player loaded leaves it right if it was reported as it is. -/
theorem markLoaded_agreed {told : Told K} {player : LocalPlayer K} (exact : Exact told player) :
    Agreed (.of told player.markLoaded) :=
  ⟨exact.position, exact.rotation, exact.flags, Nat.zero_lt_succ 19⟩

/-- What is told by the movement packet of a tick, if there is one. -/
def Told.hears (told : Told K) (packet : Option (MovementPacket K)) : Told K :=
  packet.elim told fun packet => told.hear (.movement packet)

variable [Field K] [LinearOrder K] {told : Told K} {player : LocalPlayer K}

/-- The packet of a tick brings the position and the rotation if they have changed, and always the flags. -/
theorem hears_chooseMovement (known : told.flags = some player.lastFlags) :
    told.hears player.chooseMovement =
      { position := if player.positionChanged then some ⟨player.position.x, player.position.y, player.position.z⟩
          else told.position,
        rotation := if player.rotationChanged then some (player.position.yaw, player.position.pitch) else told.rotation,
        flags := some player.flags,
        reports := if player.positionChanged then told.reports + 1 else told.reports,
        ticks := if player.positionChanged then 0 else told.ticks } := by
  unfold chooseMovement
  cases player.positionChanged with
  | true => cases player.rotationChanged <;> rfl
  | false =>
    cases player.rotationChanged with
    | true => rfl
    | false =>
      dsimp only
      split
      · rfl
      · rename_i same
        rw [not_not.mp same, ← known]
        rfl

private theorem rotation_unchanged (unchanged : player.rotationChanged = false) :
    (player.last.yaw, player.last.pitch) = (player.position.yaw, player.position.pitch) := by
  rw [rotationChanged, decide_eq_false_iff_not, not_or, not_not, not_not] at unchanged
  rw [sub_eq_zero.mp unchanged.1, sub_eq_zero.mp unchanged.2]

/-- A position that is not reported is near the last one, and the reminder has not run out. -/
theorem position_unchanged (unchanged : player.positionChanged = false) :
    distanceSqr player.position player.last ≤ positionEpsilonSquared ∧
      player.positionReminder + 1 < positionReminderInterval := by
  rw [positionChanged, decide_eq_false_iff_not, not_or] at unchanged
  exact ⟨not_lt.mp unchanged.1, Nat.not_le.mp unchanged.2⟩

/-- What the tick of a loaded player tells, and what the player then believes. -/
structure Moved (told : Told K) (player : LocalPlayer K) : Prop where
  agreed : Agreed (.of (told.hears player.movementPacket.1) player.movementPacket.2)
  upToDate : UpToDate (told.hears player.movementPacket.1) player.movementPacket.2
  paced : (told.hears player.movementPacket.1).reports = told.reports + 1 ∨
    (told.hears player.movementPacket.1).reports = told.reports ∧
      (told.hears player.movementPacket.1).ticks = told.ticks ∧
      player.movementPacket.2.positionReminder = player.positionReminder + 1

/-- The copy that the player keeps, after its tick. -/
theorem movementPacket_loaded (loaded : player.loaded = true) :
    player.movementPacket = (player.chooseMovement,
      { player with
        last := ⟨if player.positionChanged then player.position.x else player.last.x,
          if player.positionChanged then player.position.y else player.last.y,
          if player.positionChanged then player.position.z else player.last.z,
          if player.rotationChanged then player.position.yaw else player.last.yaw,
          if player.rotationChanged then player.position.pitch else player.last.pitch⟩,
        lastFlags := player.flags,
        positionReminder := if player.positionChanged then 0 else player.positionReminder + 1 }) := by
  rw [movementPacket, if_pos loaded]
  cases player.positionChanged <;> cases player.rotationChanged <;> rfl

private theorem movementPacket_moved [IsStrictOrderedRing K] (loaded : player.loaded = true)
    (agreed : Agreed (.of told player)) : Moved told player := by
  have flags : told.flags = some player.lastFlags := agreed.flags
  have position : told.position = some ⟨player.last.x, player.last.y, player.last.z⟩ := agreed.position
  have rotation : told.rotation = some (player.last.yaw, player.last.pitch) := agreed.rotation
  constructor
  all_goals rw [movementPacket_loaded loaded, hears_chooseMovement flags]
  · constructor
    · cases player.positionChanged with
      | true => rfl
      | false => exact position
    · cases player.rotationChanged with
      | true => rfl
      | false => exact rotation
    · rfl
    · cases changed : player.positionChanged with
      | true => exact Nat.zero_lt_succ 19
      | false => exact (position_unchanged changed).2
  · constructor
    · cases changed : player.rotationChanged with
      | true => rfl
      | false => exact rotation.trans (congrArg some (rotation_unchanged changed))
    · rfl
    · cases changed : player.positionChanged with
      | true =>
        refine ⟨_, rfl, ?_⟩
        have zero : distanceSqr player.position
            ⟨player.position.x, player.position.y, player.position.z, 0, 0⟩ = 0 := by
          simp [distanceSqr]
        exact zero.le.trans (mul_self_nonneg _)
      | false => exact ⟨_, position, (position_unchanged changed).1⟩
  · cases player.positionChanged with
    | true => exact .inl rfl
    | false => exact .inr ⟨rfl, rfl, rfl⟩

end Copy

section Views

def record (s : PlayLoop K W G) : Record K := .of (told s) s.state.player

theorem told_taken (s : PlayLoop K W G) (packet : Serverbound K) : told (taken s packet) = (told s).hear packet := by
  simp [told, taken, List.foldl_append]

private theorem hear_plain (told : Told K) {packet : Serverbound K} (plain : telling packet = false) :
    told.hear packet = told := by
  cases packet with
  | movement | tickEnd => cases plain
  | _ => rfl

private theorem record_taken (s : PlayLoop K W G) {packet : Serverbound K}
    (silent : ∀ told : Told K, told.hear packet = told) :
    record (taken s packet) = record s := by
  rw [record, told_taken, silent]
  rfl

private theorem unladen_record : Unladen (Handler.Agree (record : PlayLoop K W G → _)) where
  sends s _ plain := record_taken s fun told => hear_plain told plain
  emits _ _ _ := rfl
  aside _ _ _ _ _ _ := rfl
  fares _ _ _ _ _ _ _ _ _ _ := rfl
  carries _ _ _ _ := rfl

private theorem record_congr {s : PlayLoop K W G} {player : LocalPlayer K} (same : SameRecord s.state.player player) :
    Record.of (told s) player = record s := by
  rw [record, Record.of, Record.of, same.loaded, same.last, same.lastFlags, same.reminder]

end Views

section Handlers

variable {around : Surroundings K W G}

variable {s next : PlayLoop K W G}

private theorem sendPlayerInput_ok (ran : sendPlayerInputIfChanged around s = (.ok (), next)) :
    next.state.player = s.state.player ∧ told next = told s := by
  unfold sendPlayerInputIfChanged at ran
  rw [get_bind] at ran
  split at ran
  · have sent := send_ok ran
    subst sent
    exact ⟨rfl, (told_taken _ _).trans rfl⟩
  · cases ran
    exact ⟨rfl, rfl⟩

private theorem sendTickEnd_ok (ran : sendTickEnd around s = (.ok (), next)) :
    next.state.player = s.state.player ∧
      told next = if s.state.player.loaded then (told s).hear .tickEnd else told s := by
  unfold sendTickEnd at ran
  rw [get_bind] at ran
  split at ran
  · rename_i loaded
    have sent := send_ok ran
    subst sent
    rw [if_pos loaded]
    exact ⟨rfl, told_taken _ _⟩
  · rename_i unloaded
    cases ran
    rw [if_neg unloaded]
    exact ⟨rfl, rfl⟩

/-- The report of a whole position, with which the player's copy is renewed. -/
theorem teleportAck_agreed (s : PlayLoop K W G) {next : PlayLoop K W G}
    (after : next.state.player = s.state.player.teleportAckMovement.2)
    (sent : told next = (told s).hear (.movement s.state.player.teleportAckMovement.1)) :
    Agreed (record next) ∧ (told next).reports = (told s).reports + 1 := by
  rw [record, after, sent]
  exact ⟨⟨rfl, rfl, rfl, Nat.zero_lt_succ 19⟩, rfl⟩

variable [Field K]

private theorem onPosition_turn (s : PlayLoop K W G) (p : PacketPosition K) :
    Over (handle (onPosition around p) s) ∨ Agreed (record (handle (onPosition around p) s)) ∧
      (told (handle (onPosition around p) s)).reports = (told s).reports + 1 := by
  rcases handle_cases (onPosition around p) s with ended | ran
  · exact .inl ended
  · right
    generalize handle (onPosition around p) s = next at ran
    change (send around (.teleportConfirm p.teleportId) >>= _) { s with state := { s.state with
      player := s.state.player.onPosition p, receivedPosition := true } } = _ at ran
    obtain ⟨_, confirmed, sent, ran⟩ := bind_eq_ok ran
    have confirms : told confirmed = told s := by
      rw [send_ok sent, told_taken]
      rfl
    have acknowledged := send_ok ran
    subst acknowledged
    rw [← confirms]
    exact teleportAck_agreed confirmed rfl (told_taken _ _)

variable [LinearOrder K]

private theorem movementPacket_keeps (player : LocalPlayer K) : player.movementPacket.2.loaded = player.loaded := by
  unfold movementPacket
  split <;> rfl

private theorem sendMovement_ok (ran : sendMovement around s = (.ok (), next)) :
    next.state.player = s.state.player.movementPacket.2 ∧
      told next = (told s).hears s.state.player.movementPacket.1 := by
  obtain ⟨_, copied, first, ran⟩ := bind_eq_ok ran
  cases first
  cases packet : s.state.player.movementPacket.1 with
  | none =>
    simp only [packet] at ran
    cases ran
    exact ⟨rfl, rfl⟩
  | some report =>
    simp only [packet] at ran
    have sent := send_ok ran
    subst sent
    exact ⟨rfl, told_taken _ _⟩

variable [FloorRing K]

/-- What a completed movement step tells. -/
theorem movementTick_ok (ran : movementTick around s = (.ok (), next)) :
    ∃ player, SameRecord s.state.player player ∧ next.state.player = player.movementPacket.2 ∧
      told next = if s.state.player.loaded then ((told s).hears player.movementPacket.1).hear .tickEnd
        else (told s).hears player.movementPacket.1 := by
  obtain ⟨_, moved, first, ran⟩ := bind_eq_ok ran
  obtain ⟨_, steered, second, ran⟩ := bind_eq_ok ran
  obtain ⟨_, reported, third, last⟩ := bind_eq_ok ran
  obtain ⟨result, controller, player, drives, same⟩ := movePlayer_cases around s
  have start : moved = { s with state := { s.state with controller, player } } := by
    rw [drives] at first
    exact (congrArg Prod.snd first).symm
  subst start
  obtain ⟨steers, unheard⟩ := sendPlayerInput_ok second
  obtain ⟨copied, heard⟩ := sendMovement_ok third
  obtain ⟨kept, ended⟩ := sendTickEnd_ok last
  rw [steers] at copied heard
  refine ⟨player, same, kept.trans copied, ?_⟩
  rw [ended, copied, heard, unheard, movementPacket_keeps, same.loaded]
  rfl

end Handlers

section Steps

variable [Field K] [LinearOrder K] [FloorRing K]

/-- What a step can do to the record. -/
inductive Turn (around : Surroundings K W G) (s : PlayLoop K W G) : LoopInput K G → PlayLoop K W G → Prop
  | ends {input next} (ended : Over next) : Turn around s input next
  | still {input next} (quiet : moves s next input = false) (same : record next = record s) : Turn around s input next
  | unloads {input next} (quiet : moves s next input = false) (same : told next = told s)
    (unloaded : next.state.player.loaded = false) : Turn around s input next
  | reports {input next} (quiet : moves s next input = false) (agreed : Agreed (record next))
    (more : (told next).reports = (told s).reports + 1) : Turn around s input next
  | loads {next} (playing : s.phase = .playing) (living : s.state.player.isAlive = true)
    (ready : readyToLoad around s.state = true) (quiet : moves s next .tick = false)
    (same : record next = .of (told s) s.state.player.markLoaded) : Turn around s .tick next
  | moves {next} (player) (loaded : s.state.player.loaded = true) (same : SameRecord s.state.player player)
    (after : next.state.player = player.movementPacket.2)
    (heard : told next = ((told s).hears player.movementPacket.1).hear .tickEnd) : Turn around s .tick next

variable {around : Surroundings K W G} {s next : PlayLoop K W G} {input : LoopInput K G}

private theorem handleClientbound_turn (s : PlayLoop K W G) (p : ClientboundPacket K) :
    Turn around s (.packet p) (handle (handleClientbound around p) s) := by
  cases p with
  | position p =>
    obtain ended | ⟨agreed, more⟩ := onPosition_turn s p
    · exact .ends ended
    · exact .reports rfl agreed more
  | login p =>
    have after := handle_within (fun _ _ => rfl) (unladen_record.loginRest around p) { s with state := { s.state with
      player := s.state.player.onLogin p.entityId, hud := s.state.hud.onLogin p } }
    exact .unloads rfl (congrArg Record.told after) (congrArg Record.loaded after)
  | respawn p =>
    have after := handle_within (fun _ _ => rfl) (unladen_record.respawnRest (fun _ _ => rfl) around p)
      { s with state := { s.state with
        respawnPending := false, player := s.state.player.onRespawn, hud := (s.state.hud.onRespawn p).2 } }
    exact .unloads rfl (congrArg Record.told after) (congrArg Record.loaded after)
  | _ => exact .still rfl (handle_within (fun _ _ => rfl) (unladen_record.handleClientbound rfl) s)

private theorem movementTick_turn (s : PlayLoop K W G)
    (ran : handle (tick around) s = handle (movementTick around) (expired s)) :
    Turn around s .tick (handle (tick around) s) := by
  rw [ran]
  rcases handle_cases (movementTick around) (expired s) with ended | completed
  · exact .ends ended
  · obtain ⟨player, same, after, heard⟩ := movementTick_ok completed
    cases loaded : s.state.player.loaded with
    | true =>
      have heard := heard.trans (if_pos loaded)
      exact .moves player loaded same after heard
    | false =>
      have unloaded : player.loaded = false := same.loaded.trans loaded
      have unsaid : player.movementPacket = (none, player) := by
        rw [movementPacket, if_neg (by simp [unloaded])]
      have heard := heard.trans (if_neg (by simp [expired, loaded]))
      rw [unsaid] at after heard
      refine .still (by simp [moves, loaded]) ?_
      rw [record, after, heard]
      exact record_congr same

private theorem tick_turn (playing : s.phase = .playing) : Turn around s .tick (handle (tick around) s) := by
  obtain ⟨dead, -, ran⟩ | ⟨dead, -, ran⟩ | ⟨living, ready, ran⟩ | ⟨-, -, ran⟩ := tick_cases around s
  · refine .still (by simp [moves, dead]) ?_
    rw [handle, ran]
    rfl
  · refine .still (by simp [moves, dead]) ?_
    have left : Handler.Leaves record (requestRespawn around) :=
      .bind (send_within fun s => record_taken s fun _ => rfl) fun _ => update_within fun _ => rfl
    rw [handle, ran]
    exact handle_within (fun _ _ => rfl) left (expired s)
  · have unloaded : s.state.player.loaded = false := by
      unfold readyToLoad at ready
      simp only [Bool.and_eq_true, Bool.not_eq_true'] at ready
      exact ready.1.1
    rcases handle_cases (declareLoaded around) (expired s) with ended | completed
    · refine .ends ?_
      rw [handle, ran]
      exact ended
    · refine .loads playing living ready (by simp [moves, unloaded]) ?_
      obtain ⟨_, declared, sent, rest⟩ := bind_eq_ok completed
      have taken := send_ok sent
      subst taken
      have after : handle (tick around) s = handle (declareLoaded around) (expired s) := by rw [handle, ran, handle]
      have last : handle (declareLoaded around) (expired s) = _ := (congrArg Prod.snd rest).symm
      rw [after, last]
      exact congrArg (Record.of · s.state.player.markLoaded) (told_taken (expired s) .playerLoaded)
  · refine movementTick_turn s ?_
    rw [handle, ran, handle]

theorem steps_turn (steps : Steps around s input next) : Turn around s input next := by
  cases steps with
  | packet p => exact handleClientbound_turn s p
  | startConfiguration =>
    refine .still rfl (handle_within (fun _ _ => rfl) (.bind (unladen_record.send _ rfl) fun _ => ?_) s)
    exact .modify fun _ => rfl
  | command command entropy =>
    exact .still rfl (handle_within (fun _ _ => rfl) (unladen_record.handleCommand command entropy) s)
  | tick playing => exact tick_turn playing
  | configured => exact .unloads rfl rfl rfl
  | ends input error => exact .ends ⟨error, rfl⟩
  | ignores input idle =>
    refine .still ?_ rfl
    cases input with
    | tick =>
      have waiting : s.phase ≠ .playing := fun playing => idle playing rfl
      simp [moves, waiting]
    | _ => rfl

end Steps

section Runs

/-- A loaded player is right about what the server was told. -/
def Synced (s : PlayLoop K W G) : Prop := Over s ∨ (s.state.player.loaded = true → Agreed (record s))

/-- The position was reported more than `base` times, or `count` ticks have gone by since. -/
def Paced (base count : ℕ) (s : PlayLoop K W G) : Prop :=
  Over s ∨ base < (told s).reports ∨ base = (told s).reports ∧ count < positionReminderInterval ∧
    count ≤ (told s).ticks ∧ (s.state.player.loaded = true → count ≤ s.state.player.positionReminder)

variable {s next : PlayLoop K W G} {input : LoopInput K G}

theorem moves_moved [Field K] [LinearOrder K] [IsStrictOrderedRing K] {player : LocalPlayer K}
    (loaded : s.state.player.loaded = true) (same : SameRecord s.state.player player)
    (agreed : s.state.player.loaded = true → Agreed (record s)) :
    Moved (told s) player := by
  have before := agreed loaded
  rw [← record_congr same] at before
  exact movementPacket_moved (same.loaded.trans loaded) before

variable [Field K] [LinearOrder K] [FloorRing K] {around : Surroundings K W G}

variable [IsStrictOrderedRing K]

private theorem turn_synced (turn : Turn around s input next) (settled : Settled around s input)
    (agreed : s.state.player.loaded = true → Agreed (record s)) : Synced next := by
  cases turn with
  | ends ended => exact .inl ended
  | still _ same =>
    refine .inr fun loaded => ?_
    rw [same]
    exact agreed ((congrArg Record.loaded same).symm.trans loaded)
  | unloads _ _ unloaded =>
    refine .inr fun loaded => ?_
    rw [unloaded] at loaded
    cases loaded
  | reports _ agreed _ => exact .inr fun _ => agreed
  | loads playing living ready _ same =>
    refine .inr fun _ => ?_
    rw [same]
    exact markLoaded_agreed (settled playing living ready)
  | moves player loaded same after heard =>
    obtain ⟨position, rotation, flags, reminder⟩ := (moves_moved loaded same agreed).agreed
    refine .inr fun _ => ?_
    rw [record, after, heard]
    exact ⟨position, rotation, flags, reminder⟩

variable {base count : ℕ}

private theorem turn_paced (turn : Turn around s input next) (settled : Settled around s input)
    (agreed : s.state.player.loaded = true → Agreed (record s)) (live : ¬Over s) (paced : Paced base count s) :
    Paced base (count + if moves s next input then 1 else 0) next := by
  have paced := paced.resolve_left live
  cases turn with
  | ends ended => exact .inl ended
  | still quiet same =>
    have told : told next = told s := congrArg Record.told same
    have loaded : next.state.player.loaded = s.state.player.loaded := congrArg Record.loaded same
    have reminder : next.state.player.positionReminder = s.state.player.positionReminder :=
      congrArg Record.reminder same
    rw [Paced, told, loaded, reminder, quiet]
    exact .inr paced
  | unloads quiet same unloaded =>
    rw [Paced, same, unloaded, quiet]
    obtain reported | ⟨level, bounded, ticks, -⟩ := paced
    · exact .inr (.inl reported)
    · exact .inr (.inr ⟨level, bounded, ticks, fun loaded => absurd loaded (by decide)⟩)
  | reports quiet _ more =>
    right
    obtain reported | ⟨level, -⟩ := paced <;> omega
  | loads playing living ready quiet same =>
    have told : told next = told s := congrArg Record.told same
    have fresh := (settled playing living ready).ticks
    rw [Paced, told, quiet]
    obtain reported | ⟨level, bounded, ticks, -⟩ := paced
    · exact .inr (.inl reported)
    · have none : count = 0 := by omega
      exact .inr (.inr ⟨level, bounded, ticks, fun _ => by simp [none]⟩)
  | moves player loaded same after heard =>
    have moved := moves_moved loaded same agreed
    have reports : (told next).reports = ((told s).hears player.movementPacket.1).reports := by
      rw [heard]
      rfl
    obtain more | ⟨level, ticks, reminder⟩ := moved.paced
    · right
      obtain reported | ⟨level, -⟩ := paced <;> omega
    · obtain reported | ⟨before, bounded, ended, counted⟩ := paced
      · right
        omega
      · have least := counted loaded
        have small : player.movementPacket.2.positionReminder < positionReminderInterval := moved.agreed.reminder
        have ending : (told next).ticks = ((told s).hears player.movementPacket.1).ticks + 1 := by
          rw [heard]
          rfl
        have once : (if MovementReports.moves s next .tick then 1 else 0) ≤ 1 := by split <;> omega
        have kept := same.reminder
        refine .inr (.inr ⟨by omega, by omega, by omega, fun _ => ?_⟩)
        rw [after]
        omega

/-- Once the tick has run, the server is up to date. -/
theorem turn_upToDate (turn : Turn around s .tick next) (agreed : s.state.player.loaded = true → Agreed (record s))
    (live : ¬Over next) (moved : moves s next (.tick : LoopInput K G) = true) :
    UpToDate (told next) next.state.player := by
  cases turn with
  | ends ended => exact absurd ended live
  | still quiet | unloads quiet | reports quiet | loads _ _ _ quiet =>
    rw [quiet] at moved
    cases moved
  | moves player loaded same after heard =>
    obtain ⟨rotation, flags, position⟩ := (moves_moved loaded same agreed).upToDate
    rw [after, heard]
    exact ⟨rotation, flags, position⟩

theorem step_synced (synced : Synced s) (settled : Settled around s input) : Synced (s.step around input) := by
  by_cases stopped : Over s
  · rw [over_step stopped]
    exact .inl stopped
  · exact turn_synced (steps_turn (step_steps around s input)) settled (synced.resolve_left stopped)

theorem step_paced (paced : Paced base count s) (synced : Synced s) (settled : Settled around s input) :
    Paced base (count + if moves s (s.step around input) input then 1 else 0) (s.step around input) := by
  by_cases stopped : Over s
  · rw [over_step stopped]
    exact .inl stopped
  · exact turn_paced (steps_turn (step_steps around s input)) settled (synced.resolve_left stopped) stopped paced

section

variable {inputs : List (LoopInput K G)} (settled : Along (step around) (Settled around) s inputs) (synced : Synced s)

include settled synced

theorem run_paced (paced : Paced base count s) :
    Paced base (count + movements around s inputs) (inputs.foldl (step around) s) := by
  induction inputs generalizing s count with
  | nil => exact paced
  | cons input rest ih =>
    have after := ih settled.2 (step_synced synced settled.1) (step_paced paced synced settled.1)
    rwa [Nat.add_assoc] at after

/-- No stretch of a run with twenty movement ticks is without a report of the position. -/
theorem stretch_reports (live : ¬Over (inputs.foldl (step around) s))
    (long : positionReminderInterval ≤ movements around s inputs) :
    (told s).reports < (told (inputs.foldl (step around) s)).reports := by
  have start : Paced (told s).reports 0 s :=
    .inr (.inr ⟨rfl, Nat.zero_lt_succ 19, Nat.zero_le _, fun _ => Nat.zero_le _⟩)
  obtain stopped | reported | ⟨-, short, -⟩ := run_paced settled synced start
  · exact absurd stopped live
  · exact reported
  · omega

end

end Runs

section Results

variable [Field K] [LinearOrder K] [FloorRing K] [IsStrictOrderedRing K]

/-- After every movement tick of a loaded player the server is up to date, and the position was reported in the course
of the last twenty such ticks. -/
theorem reports_keep_up (around : Surroundings K W G) (dimensionTypes : List DimensionType) (room : ℕ)
    (inputs : List (LoopInput K G))
    (settled : Along (step around) (Settled around) (.new dimensionTypes room) (inputs ++ [.tick]))
    (moved : moves (run around dimensionTypes room inputs) (run around dimensionTypes room (inputs ++ [.tick]))
      (.tick : LoopInput K G) = true) :
    UpToDate (told (run around dimensionTypes room (inputs ++ [.tick])))
      (run around dimensionTypes room (inputs ++ [.tick])).state.player ∧
    ∀ before later, inputs ++ [.tick] = before ++ later →
      20 ≤ movements around (run around dimensionTypes room before) later →
      (told (run around dimensionTypes room before)).reports <
        (told (run around dimensionTypes room (inputs ++ [.tick]))).reports := by
  have initially : Synced (.new dimensionTypes room : PlayLoop K W G) :=
    .inr fun loaded => absurd loaded Bool.false_ne_true
  have always {prior : List (LoopInput K G)}
      (settled : Along (step around) (Settled around) (.new dimensionTypes room) prior) :
      Synced (run around dimensionTypes room prior) :=
    settled.invariant (fun _ _ => step_synced) initially
  have playing : (run around dimensionTypes room (inputs ++ [.tick])).phase = .playing := by
    simp only [moves, Bool.and_eq_true, decide_eq_true_eq] at moved
    exact moved.2
  have live : ¬Over (run around dimensionTypes room (inputs ++ [.tick])) := by
    rintro ⟨error, ended⟩
    rw [playing] at ended
    cases ended
  have split (before later : List (LoopInput K G)) : run around dimensionTypes room (before ++ later) =
      later.foldl (step around) (run around dimensionTypes room before) := List.foldl_append
  refine ⟨?_, ?_⟩
  · rw [split] at live moved ⊢
    have before := (always (along_concat.mp settled).1).resolve_left fun stopped => live ?_
    · exact turn_upToDate (steps_turn (step_steps around _ .tick)) before live moved
    · rwa [List.foldl_cons, over_step stopped]
  · intro before later same long
    rw [same] at settled live ⊢
    obtain ⟨first, second⟩ := along_append.mp settled
    rw [split] at live ⊢
    exact stretch_reports second (always first) live long

def joins : LoopInput ℚ Unit := .packet (.login ⟨1, spawn⟩)
def arrives : LoopInput ℚ Unit := .packet (.position ⟨1, 0, 64, 0, 0, 0, 0, 0, 0, ⟨0⟩⟩)

/-- The player is declared loaded as it was last reported. -/
theorem still_player_is_up_to_date :
    moves (run openPlain overworld 9 [joins, arrives, .tick]) (run openPlain overworld 9 [joins, arrives, .tick, .tick])
      (.tick : LoopInput ℚ Unit) = true ∧
    UpToDate (told (run openPlain overworld 9 [joins, arrives, .tick, .tick]))
      (run openPlain overworld 9 [joins, arrives, .tick, .tick]).state.player := by
  have moved : moves (run openPlain overworld 9 [joins, arrives, .tick])
      (run openPlain overworld 9 [joins, arrives, .tick, .tick]) (.tick : LoopInput ℚ Unit) = true := by decide +kernel
  refine ⟨moved, (reports_keep_up openPlain overworld 9 [joins, arrives, .tick] ?_ moved).1⟩
  refine ⟨trivial, trivial, fun _ _ _ => ?_, fun _ _ ready => absurd ready ?_, trivial⟩
  · constructor <;> decide +kernel
  · decide +kernel

/-- The player turns between its last report and the tick that declares it loaded: nothing tells the server. -/
theorem turned_player_is_not_reported :
    moves (run openPlain overworld 9 [joins, arrives, .command (.look 90 0) (), .tick])
      (run openPlain overworld 9 [joins, arrives, .command (.look 90 0) (), .tick, .tick])
      (.tick : LoopInput ℚ Unit) = true ∧
    ¬UpToDate (told (run openPlain overworld 9 [joins, arrives, .command (.look 90 0) (), .tick, .tick]))
      (run openPlain overworld 9 [joins, arrives, .command (.look 90 0) (), .tick, .tick]).state.player := by
  refine ⟨by decide +kernel, fun upToDate => absurd upToDate.rotation ?_⟩
  decide +kernel

end Results

end MineRider.Soundness.MovementReports
