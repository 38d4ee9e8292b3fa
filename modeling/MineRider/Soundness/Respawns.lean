import MineRider.Machine.Run
import MineRider.Soundness.PlayFrames

/-! # Respawn requests

A dead player asks to be respawned, once, and the `respawn` packet clears the flag that remembers it. The health
that makes the player dead is restored by a later packet, so a tick that falls between the two asks again. As long
as no tick does, every death is answered by at most one request.
-/

namespace MineRider.Soundness.Respawns

open Model.Minecraft PlayLoop Machine PlayFrames LocalPlayer

variable {K W G : Type}

section Statement

/-- The request to be respawned. -/
def isRequest : Serverbound K → Bool
  | .clientCommand actionId => actionId = respawnActionId
  | _ => false

/-- How many requests the connection has taken. -/
def requests (s : PlayLoop K W G) : ℕ := s.sent.countP isRequest

def alive (s : PlayLoop K W G) : Bool := s.state.player.isAlive

variable [Field K] [LinearOrder K] [FloorRing K]

/-- How often the player goes from alive to dead. -/
def deaths (around : Surroundings K W G) (s : PlayLoop K W G) : List (LoopInput K G) → ℕ
  | [] => 0
  | input :: rest =>
    (if alive s && !alive (s.step around input) then 1 else 0) + deaths around (s.step around input) rest

def isTick : LoopInput K G → Bool
  | .tick => true
  | _ => false

def isRespawn : LoopInput K G → Bool
  | .packet (.respawn _) => true
  | _ => false

/-- The loop, and whether a `respawn` packet has answered a request and the player has not been alive since. -/
def watch (around : Surroundings K W G) (watched : PlayLoop K W G × Bool) (input : LoopInput K G) :
    PlayLoop K W G × Bool :=
  let next := watched.1.step around input
  (next, !alive next && (watched.2 || isRespawn input && watched.1.state.respawnPending))

/-- No tick is handled while a respawned player still counts as dead. -/
def Prompt (watched : PlayLoop K W G × Bool) (input : LoopInput K G) : Prop :=
  isTick input = true → watched.2 = false

instance (watched : PlayLoop K W G × Bool) (input : LoopInput K G) : Decidable (Prompt watched input) :=
  inferInstanceAs (Decidable (_ → _))

end Statement

variable {around : Surroundings K W G}

section Views

/-- What requests are about. -/
def vitals (s : PlayLoop K W G) : Bool × ℕ × UInt32 := (s.state.respawnPending, requests s, s.state.player.health)

/-- The same without the health, which packets may change. -/
def asked (s : PlayLoop K W G) : Bool × ℕ := ((vitals s).1, (vitals s).2.1)

variable {packet : Serverbound K}

private theorem requests_taken (s : PlayLoop K W G) (other : isRequest packet = false) :
    requests (taken s packet) = requests s := by
  simp [requests, taken, List.countP_append, other]

theorem vitals_taken (s : PlayLoop K W G) (other : isRequest packet = false) :
    vitals (taken s packet) = vitals s := by
  rw [vitals, requests_taken s other]
  rfl

private theorem isRequest_plain (plain : telling packet = false) : isRequest packet = false := by
  cases packet with
  | clientCommand => cases plain
  | _ => rfl

private theorem blind_vitals : Blind (Handler.Agree (vitals : PlayLoop K W G → _)) where
  sends s _ plain := vitals_taken s (isRequest_plain plain)
  emits _ _ _ := rfl
  aside _ _ _ _ _ _ := rfl

private theorem unladen_asked : Unladen (Handler.Agree (asked : PlayLoop K W G → _)) where
  sends s packet plain := by
    change asked (taken s packet) = asked s
    rw [asked, vitals_taken s (isRequest_plain plain)]
    rfl
  emits _ _ _ := rfl
  aside _ _ _ _ _ _ := rfl
  fares _ _ _ _ _ _ _ _ _ _ := rfl
  carries _ _ _ _ := rfl

private theorem alive_of_vitals {s next : PlayLoop K W G} (same : (vitals next).2.2 = (vitals s).2.2) :
    alive next = alive s :=
  congrArg (ltF32 zeroF32) same

theorem send_vitals (packet : Serverbound K) (other : isRequest packet = false) :
    Handler.Leaves vitals (send around packet) :=
  send_within fun s => vitals_taken s other

end Views

section Steps

/-- What a step can do to the requests, the flag and the player's life. -/
inductive Beat (s : PlayLoop K W G) : LoopInput K G → PlayLoop K W G → Prop
  | still {input next} (same : asked next = asked s) : Beat s input next
  | respawn {next} (p : PacketRespawn) (cleared : next.state.respawnPending = false)
    (same : requests next = requests s) (life : alive next = alive s) : Beat s (.packet (.respawn p)) next
  | request {next} (dead : alive s = false) (free : s.state.respawnPending = false)
    (pending : next.state.respawnPending = true) (more : requests next = requests s + 1) (life : alive next = alive s) :
    Beat s .tick next
  | fresh {input next} (same : requests next = requests s) (living : alive next = true) : Beat s input next

variable [Field K]

private theorem handleClientbound_asked {p : ClientboundPacket K} (other : ∀ respawn, p ≠ .respawn respawn) :
    Handler.Leaves asked (handleClientbound around p) := by
  cases p with
  | respawn p => exact absurd rfl (other p)
  | position p =>
    refine .bind (update_within fun _ => rfl) fun _ => .bind (unladen_asked.send _ rfl) fun _ => ?_
    refine .bind .get fun s => .bind (update_within fun _ => rfl) fun _ => ?_
    exact (send_vitals (.movement _) rfl).map fun known => (known.1, known.2.1)
  | login p => exact .bind (update_within fun _ => rfl) fun _ => unladen_asked.loginRest around p
  | _ => exact unladen_asked.handleClientbound rfl

private theorem onRespawn_beat (s : PlayLoop K W G) (p : PacketRespawn) :
    Beat s (.packet (.respawn p)) (handle (onRespawn around p) s) := by
  have after := handle_within (fun _ _ => rfl) (blind_vitals.respawnRest (fun _ _ => rfl) around p)
    { s with state := { s.state with respawnPending := false, player := s.state.player.onRespawn,
                                     hud := (s.state.hud.onRespawn p).2 } }
  exact .respawn p (congrArg Prod.fst after) (congrArg (·.2.1) after) (alive_of_vitals (congrArg (·.2.2) after))

variable [LinearOrder K] [FloorRing K]

private theorem movementTick_vitals : Handler.Leaves vitals (movementTick around) := by
  refine .bind (fun s => ?_) fun _ => .bind ?_ fun _ => .bind ?_ fun _ => ?_
  · obtain ⟨result, controller, player, moved, same⟩ := movePlayer_cases around s
    rw [moved]
    exact congrArg (fun health => (s.state.respawnPending, requests s, health)) same.health
  · refine .bind .get fun s => .ite (.bind ?_ fun _ => ?_) (.pure ())
    · exact update_within fun _ => rfl
    · exact send_vitals _ rfl
  · refine .bind .get fun s => .bind (update_within fun s => ?_) fun _ => ?_
    · have kept : s.state.player.movementPacket.2.health = s.state.player.health := by
        unfold movementPacket
        split <;> rfl
      exact congrArg (fun health => (s.state.respawnPending, requests s, health)) kept
    · split
      · exact .pure ()
      · exact send_vitals _ rfl
  · exact .bind .get fun s => .ite (send_vitals _ rfl) (.pure ())

private theorem tick_beat (s : PlayLoop K W G) : Beat s .tick (handle (tick around) s) := by
  have still {m : PlayM K W G Unit} (ran : tick around s = m (expired s)) (left : Handler.Leaves vitals m) :
      Beat s .tick (handle (tick around) s) := by
    refine .still ?_
    have same : handle (tick around) s = handle m (expired s) := by rw [handle, ran, handle]
    rw [same]
    exact handle_within (fun _ _ => rfl) (left.map fun known => (known.1, known.2.1)) (expired s)
  obtain ⟨-, -, ran⟩ | ⟨dead, free, ran⟩ | ⟨-, -, ran⟩ | ⟨-, -, ran⟩ := tick_cases around s
  · exact still (m := pure ()) ran (.pure ())
  · rcases send_cases around (.clientCommand respawnActionId) (expired s) with refused | sent
    · refine .still ?_
      rw [handle, ran, requestRespawn, Handler.bind_error refused]
      rfl
    · have after : handle (tick around) s = { taken (expired s) (.clientCommand respawnActionId) with
          state := { (expired s).state with respawnPending := true } } := by
        rw [handle, ran, requestRespawn, Handler.bind_ok sent]
        rfl
      rw [after]
      refine .request dead free rfl ?_ rfl
      simp [requests, taken, expired, List.countP_append, isRequest]
  · refine still ran (.bind (send_vitals _ rfl) fun _ => .bind (update_within fun _ => rfl) fun _ => fun _ => rfl)
  · exact still ran movementTick_vitals

private theorem steps_beat {s next : PlayLoop K W G} {input : LoopInput K G} (steps : Steps around s input next) :
    Beat s input next := by
  cases steps with
  | packet p =>
    by_cases respawns : ∃ respawn, p = .respawn respawn
    · obtain ⟨respawn, rfl⟩ := respawns
      exact onRespawn_beat s respawn
    · have left : Handler.Leaves asked (handleClientbound around p) :=
        handleClientbound_asked fun respawn same => respawns ⟨respawn, same⟩
      exact .still (handle_within (fun _ _ => rfl) left s)
  | startConfiguration =>
    refine .still (handle_within (fun _ _ => rfl) (.bind (unladen_asked.send _ rfl) fun _ => ?_) s)
    exact .modify fun _ => rfl
  | command command entropy =>
    exact .still (handle_within (fun _ _ => rfl) (unladen_asked.handleCommand command entropy) s)
  | tick => exact tick_beat s
  | configured =>
    have living : ltF32 zeroF32 twentyF32 = true := by decide
    exact .fresh rfl living
  | ends | ignores => exact .still rfl

end Steps

section Runs

/-- A player that is dead and has not asked yet has a request to its credit. -/
def Owed (watched : PlayLoop K W G × Bool) : Prop :=
  alive watched.1 = false ∧ watched.1.state.respawnPending = false ∧ watched.2 = false

/-- The death that a step brings. -/
def died (before after : PlayLoop K W G) : ℕ := if alive before && !alive after then 1 else 0

/-- Whether a `respawn` packet has answered a request, once the next state is known. -/
def answeredAfter (s next : PlayLoop K W G) (answered : Bool) (input : LoopInput K G) : Bool :=
  !alive next && (answered || isRespawn input && s.state.respawnPending)

private theorem owed_after {s next : PlayLoop K W G} {answered : Bool} {input : LoopInput K G}
    (owed : Owed (next, answeredAfter s next answered input)) :
    alive next = false ∧ next.state.respawnPending = false ∧ answered = false ∧
      (isRespawn input = true → s.state.respawnPending = false) := by
  obtain ⟨dead, free, unanswered⟩ := owed
  rw [answeredAfter, dead] at unanswered
  simp only [Bool.not_false, Bool.true_and, Bool.or_eq_false_iff, Bool.and_eq_false_imp] at unanswered
  exact ⟨dead, free, unanswered⟩

/-- One step: requests stay within their count, and by one more while one is owed. -/
theorem beat_covered {s next : PlayLoop K W G} {answered : Bool} {input : LoopInput K G} {count : ℕ}
    (beat : Beat s input next) (prompt : Prompt (s, answered) input) (covered : requests s ≤ count)
    (credit : Owed (s, answered) → requests s < count) :
    requests next ≤ count + died s next ∧
      (Owed (next, answeredAfter s next answered input) → requests next < count + died s next) := by
  cases beat with
  | still same =>
    have pending : next.state.respawnPending = s.state.respawnPending := congrArg Prod.fst same
    have unchanged : requests next = requests s := congrArg Prod.snd same
    refine ⟨by omega, fun owed => ?_⟩
    obtain ⟨dead, free, unanswered, -⟩ := owed_after owed
    cases life : alive s with
    | true =>
      have death : died s next = 1 := by simp [died, life, dead]
      omega
    | false =>
      have before := credit ⟨life, pending ▸ free, unanswered⟩
      omega
  | respawn p cleared same life =>
    refine ⟨by omega, fun owed => ?_⟩
    obtain ⟨dead, -, unanswered, free⟩ := owed_after owed
    have before := credit ⟨life ▸ dead, free rfl, unanswered⟩
    omega
  | request dead free pending more life =>
    have before := credit ⟨dead, free, prompt rfl⟩
    refine ⟨by omega, fun owed => ?_⟩
    have free := (owed_after owed).2.1
    rw [pending] at free
    cases free
  | fresh same living =>
    refine ⟨by omega, fun owed => ?_⟩
    have dead := (owed_after owed).1
    rw [living] at dead
    cases dead

variable [Field K] [LinearOrder K] [FloorRing K]

private theorem requests_le_deaths {watched : PlayLoop K W G × Bool} {inputs : List (LoopInput K G)} {count : ℕ}
    (prompt : Along (watch around) Prompt watched inputs) (covered : requests watched.1 ≤ count)
    (credit : Owed watched → requests watched.1 < count) :
    requests (inputs.foldl (step around) watched.1) ≤ count + deaths around watched.1 inputs := by
  induction inputs generalizing watched count with
  | nil => exact covered
  | cons input rest ih =>
    obtain ⟨allowed, prompt⟩ := prompt
    have after := beat_covered (steps_beat (step_steps around watched.1 input)) allowed covered credit
    rw [List.foldl_cons, deaths, ← Nat.add_assoc]
    exact ih prompt after.1 after.2

private theorem watch_foldl (watched : PlayLoop K W G × Bool) (inputs : List (LoopInput K G)) :
    (inputs.foldl (watch around) watched).1 = inputs.foldl (step around) watched.1 := by
  induction inputs generalizing watched with
  | nil => rfl
  | cons input rest ih => exact ih _

end Runs

section Results

variable [Field K] [LinearOrder K] [FloorRing K]

/-- Requests never outnumber deaths, and between two deaths there is at most one. -/
theorem deaths_are_answered_once (around : Surroundings K W G) (dimensionTypes : List DimensionType) (room : ℕ)
    (inputs : List (LoopInput K G)) (prompt : Along (watch around) Prompt (.new dimensionTypes room, false) inputs) :
    requests (run around dimensionTypes room inputs) ≤ deaths around (.new dimensionTypes room) inputs ∧
    ∀ before later, inputs = before ++ later → deaths around (run around dimensionTypes room before) later = 0 →
      requests (run around dimensionTypes room inputs) ≤ requests (run around dimensionTypes room before) + 1 := by
  refine ⟨?_, ?_⟩
  · have bounded := requests_le_deaths prompt (Nat.le_refl 0) ?_
    · rwa [Nat.zero_add] at bounded
    · rintro ⟨dead, -, -⟩
      have living : ltF32 zeroF32 twentyF32 = true := by decide
      exact absurd (living.symm.trans dead) (by decide)
  · rintro before later rfl none
    have since := (along_append.mp prompt).2
    have bounded := requests_le_deaths since (Nat.le_succ _) fun _ => Nat.lt_succ_self _
    rw [watch_foldl, ← run] at bounded
    rw [none] at bounded
    rw [run, List.foldl_append]
    exact bounded

def dies : LoopInput ℚ Unit := .packet (.updateHealth ⟨zeroF32, 20, zeroF32⟩)
def revives : LoopInput ℚ Unit := .packet (.updateHealth ⟨twentyF32, 20, fiveF32⟩)
def respawns : LoopInput ℚ Unit := .packet (.respawn ⟨spawn⟩)

/-- The health comes before the next tick. -/
theorem prompt_respawn_is_asked_once :
    Along (watch openPlain) Prompt (.new overworld 5, false) [dies, .tick, respawns, revives, .tick] ∧
    requests (run openPlain overworld 5 [dies, .tick, respawns, revives, .tick]) ≤
      deaths openPlain (.new overworld 5) [dies, .tick, respawns, revives, .tick] :=
  have prompt : Along (watch openPlain) Prompt (.new overworld 5, false)
      [dies, .tick, respawns, revives, .tick] := by decide +kernel
  ⟨prompt, (deaths_are_answered_once openPlain overworld 5 _ prompt).1⟩

/-- A tick between the `respawn` packet and the health asks a second time. -/
theorem late_health_is_asked_twice :
    requests (run openPlain overworld 5 [dies, .tick, respawns, .tick]) = 2 ∧
    deaths openPlain (.new overworld 5) [dies, .tick, respawns, .tick] = 1 := by
  decide +kernel

end Results

end MineRider.Soundness.Respawns
