import MineRider.Model.Minecraft.BlockPackets
import MineRider.Soundness.Bitfields
import MineRider.Soundness.Codecs
import MineRider.Soundness.PlayFrames

/-! # Commanded blocks and the positions on the wire

A packed position keeps 26 bits of `x` and `z` and 12 bits of `y`, each with its sign. A command is not checked
for coordinates outside that range, so its packet names another block; inside the range it names the block
commanded.
-/

namespace MineRider.Soundness.BlockPositions

open List Machine Machine.Reader Machine.Words Model.Codegen Model.Protocol Model.Minecraft Bitfields FixedInt
open Codecs (getBool_reads)
open PlayFrames (openPlain overworld)

section Packed

private theorem positionLayout : Layout positionMembers where
  sized := by
    intro m member
    simp only [positionMembers, mem_cons, not_mem_nil, or_false] at member
    obtain rfl | rfl | rfl := member
    all_goals exact ⟨by decide, by decide, fun _ => by decide⟩
  bounded := by decide

private theorem int32_within (v : Int32) :
    Within true 32 v.toInt := (within_signed (by decide)).mpr ⟨v.le_toInt, v.toInt_lt⟩

private theorem int16_within (v : Int16) :
    Within true 16 v.toInt := (within_signed (by decide)).mpr ⟨v.le_toInt, v.toInt_lt⟩

/-- A position as it arrives. -/
def arrived (p : Position) : Position :=
  ⟨.ofInt (wrap true 26 p.x.toInt), .ofInt (wrap true 26 p.z.toInt), .ofInt (wrap true 12 p.y.toInt)⟩

private theorem position_reads (p : Position) : ∃ bytes, p.encode = some bytes ∧
    Reads Position.decode bytes (some (arrived p)) := by
  have names : ["x", "z", "y"] = memberNames id positionMembers := by decide
  have typed : Typed id positionMembers p.record :=
    ⟨names, .cons ⟨rfl, int32_within p.x⟩ (.cons ⟨rfl, int32_within p.z⟩ (.cons ⟨rfl, int16_within p.y⟩ .nil))⟩
  obtain ⟨bytes, written, reads⟩ := decode_encode positionLayout (by decide) typed
  exact ⟨bytes, written, reads.map _⟩

end Packed

section Packets

/-- Only the position of the two packets can change on the way. -/
theorem blockDig_reads (p : PacketBlockDig) : ∃ bytes, p.encode = some bytes ∧
    Reads PacketBlockDig.decode bytes (some { p with location := arrived p.location }) := by
  obtain ⟨location, written, reads⟩ := position_reads p.location
  refine ⟨_, by rw [PacketBlockDig.encode, written]; rfl, ?_⟩
  simp only [append_assoc]
  exact (readVarint_reads p.status).bind (reads.bind ((i8.get_reads p.face).bind
    ((readVarint_reads p.sequence).map _)))

private theorem blockPlace_reads (p : PacketBlockPlace) : ∃ bytes, p.encode = some bytes ∧
    Reads PacketBlockPlace.decode bytes (some { p with location := arrived p.location }) := by
  obtain ⟨location, written, reads⟩ := position_reads p.location
  refine ⟨_, by rw [PacketBlockPlace.encode, written]; rfl, ?_⟩
  simp only [append_assoc]
  exact (readVarint_reads p.hand).bind (reads.bind ((readVarint_reads p.direction).bind
    ((u32.get_reads p.cursorX).bind ((u32.get_reads p.cursorY).bind
      ((u32.get_reads p.cursorZ).bind ((getBool_reads p.insideBlock).bind
        ((getBool_reads p.worldBorderHit).bind ((readVarint_reads p.sequence).map _))))))))

end Packets

section Commands

variable {K W G : Type}

/-- The coordinates of the block that a command is about. -/
def commandedBlock : BotCommand → Option (Int32 × Int32 × Int32)
  | .digBlock x y z _ _ => some (x, y, z)
  | .useItemOnBlock placement => some (placement.x, placement.y, placement.z)
  | _ => none

/-- The position in what is read from the bytes of a packet. -/
def Arrives {P : Type} (encode : P → Option Bytes) (decode : PacketReader (Option P)) (place : P → Position) (p : P)
    (location : Position) : Prop :=
  ∃ bytes read, encode p = some bytes ∧ Reads decode bytes (some read) ∧ place read = location

theorem arrives_iff {P : Type} {encode : P → Option Bytes} {decode : PacketReader (Option P)} {place : P → Position}
    {p q : P} (way : ∃ bytes, encode p = some bytes ∧ Reads decode bytes (some q)) (location : Position) :
    Arrives encode decode place p location ↔ location = place q := by
  obtain ⟨bytes, written, reads⟩ := way
  constructor
  · rintro ⟨bytes', read, written', reads', rfl⟩
    cases written.symm.trans written'
    cases reads.unique reads'
    rfl
  · rintro rfl
    exact ⟨bytes, q, written, reads, rfl⟩

/-- The block position that a packet has for its receiver. -/
def LocationOnWire (location : Position) : Serverbound K → Prop
  | .blockDig status sent face sequence =>
    Arrives PacketBlockDig.encode PacketBlockDig.decode PacketBlockDig.location ⟨status, sent, face, sequence⟩ location
  | .blockPlace hand sent direction cursorX cursorY cursorZ insideBlock worldBorderHit sequence =>
    Arrives PacketBlockPlace.encode PacketBlockPlace.decode PacketBlockPlace.location
      ⟨hand, sent, direction, cursorX, cursorY, cursorZ, insideBlock, worldBorderHit, sequence⟩ location
  | _ => False

/-- The coordinates that fit a packed position. -/
def Packable (x y z : Int32) : Prop :=
  (-2 ^ 25 ≤ x.toInt ∧ x.toInt < 2 ^ 25) ∧ (-2 ^ 11 ≤ y.toInt ∧ y.toInt < 2 ^ 11) ∧
    -2 ^ 25 ≤ z.toInt ∧ z.toInt < 2 ^ 25

instance (x y z : Int32) : Decidable (Packable x y z) := inferInstanceAs (Decidable (_ ∧ _))

theorem wrapped_eq_iff {width : ℕ} (nonempty : 1 ≤ width) (narrow : width ≤ 32) (v : Int32) :
    Int32.ofInt (wrap true width v.toInt) = v ↔ -2 ^ (width - 1) ≤ v.toInt ∧ v.toInt < 2 ^ (width - 1) := by
  have fits := (wrap_within true width v.toInt).mono nonempty narrow
  rw [← Int32.toInt_inj, Int32.toInt_ofInt_of_le fits.1 fits.2, wrap_eq_self_iff, within_signed nonempty]

/-- The narrowing to sixteen bits keeps the twelve that are packed. -/
theorem wrapped_height (y : Int32) : (Int16.ofInt (wrap true 12 y.toInt16.toInt)).toInt = wrap true 12 y.toInt := by
  have fits := (wrap_within true 12 y.toInt16.toInt).mono (by decide) (show 12 ≤ 16 by decide)
  have bits : y.toInt16.toInt % 2 ^ 16 = y.toInt % 2 ^ 16 := by
    rw [Int32.toInt_toInt16]
    exact Int.bmod_emod
  have divides : (2 : ℤ) ^ 12 ∣ 2 ^ 16 := by decide
  rw [Int16.toInt_ofInt_of_le fits.1 fits.2]
  apply wrap_congr
  rw [← Int.emod_emod_of_dvd _ divides, bits, Int.emod_emod_of_dvd _ divides]

theorem arrived_iff (x y z : Int32) : ((arrived ⟨x, z, y.toInt16⟩).x = x ∧
    (arrived ⟨x, z, y.toInt16⟩).y.toInt = y.toInt ∧ (arrived ⟨x, z, y.toInt16⟩).z = z) ↔ Packable x y z := by
  rw [arrived, wrapped_height, wrapped_eq_iff (by decide) (by decide), wrapped_eq_iff (by decide) (by decide),
    wrap_eq_self_iff, within_signed (by decide)]
  rfl

/-- A packet with the next sequence number. -/
theorem sequenced_sent (around : Surroundings K W G) (packet : Int32 → Serverbound K) {s : PlayLoop K W G}
    (connected : 0 < s.room) :
    ((PlayLoop.nextActionSequence >>= fun sequence => PlayLoop.send around (packet sequence)) s).2.sent =
      s.sent ++ [packet (s.state.nextActionSequence + 1)] := by
  have numbered : (PlayLoop.nextActionSequence s : Except _ Int32 × PlayLoop K W G) =
      (.ok (s.state.nextActionSequence + 1),
      { s with state := { s.state with nextActionSequence := s.state.nextActionSequence + 1 } }) := rfl
  rw [Handler.bind_ok numbered, PlayLoop.send, if_neg (show s.room ≠ 0 from connected.ne')]

/-- The packet of a command names the block as it arrives. -/
theorem command_sends (around : Surroundings K W G) (entropy : G) {s : PlayLoop K W G} (connected : 0 < s.room)
    {command : BotCommand} {x y z : Int32} (about : commandedBlock command = some (x, y, z)) :
    ∃ packet, (PlayLoop.handleCommand around command entropy s).2.sent = s.sent ++ [packet] ∧
      ∀ location, LocationOnWire location packet ↔ location = arrived ⟨x, z, y.toInt16⟩ := by
  cases command with
  | digBlock x y z face action =>
    cases about
    exact ⟨_, sequenced_sent around _ connected, arrives_iff (blockDig_reads _)⟩
  | useItemOnBlock placement =>
    cases about
    exact ⟨_, sequenced_sent around _ connected, arrives_iff (blockPlace_reads _)⟩
  | _ => cases about

theorem commanded_block_arrives_iff (around : Surroundings K W G) (entropy : G) (s : PlayLoop K W G)
    (connected : 0 < s.room) (command : BotCommand) (x y z : Int32) (about : commandedBlock command = some (x, y, z))
    (_accepted : command.validate = .ok ()) :
    (∃ packet location, (PlayLoop.handleCommand around command entropy s).2.sent = s.sent ++ [packet] ∧
      LocationOnWire location packet ∧ location.x = x ∧ location.y.toInt = y.toInt ∧ location.z = z) ↔
    Packable x y z := by
  obtain ⟨packet, sent, onWire⟩ := command_sends around entropy connected about
  rw [← arrived_iff]
  constructor
  · rintro ⟨packet', location, sent', arrives, same⟩
    cases append_cancel_left (sent.symm.trans sent')
    rwa [(onWire location).mp arrives] at same
  · intro same
    exact ⟨packet, _, sent, (onWire _).mpr rfl, same⟩

theorem near_block_arrives : Packable 8 64 (-8) ∧
    ∃ packet location, (PlayLoop.handleCommand openPlain (.digBlock 8 64 (-8) 1 .start) ()
      (PlayLoop.run openPlain overworld 9 [])).2.sent = (PlayLoop.run openPlain overworld 9 []).sent ++ [packet] ∧
    LocationOnWire location packet ∧ location.x = 8 ∧ location.y.toInt = (64 : Int32).toInt ∧ location.z = -8 := by
  have packable : Packable 8 64 (-8) := by decide
  exact ⟨packable, (commanded_block_arrives_iff openPlain () _ (by decide) _ 8 64 (-8) rfl rfl).mpr packable⟩

/-- A block above the packed heights is not the one dug for. -/
theorem high_block_does_not_arrive : BotCommand.validate (.digBlock 8 2048 (-8) 1 .start) = .ok () ∧
    ¬∃ packet location, (PlayLoop.handleCommand openPlain (.digBlock 8 2048 (-8) 1 .start) ()
      (PlayLoop.run openPlain overworld 9 [])).2.sent = (PlayLoop.run openPlain overworld 9 []).sent ++ [packet] ∧
    LocationOnWire location packet ∧ location.x = 8 ∧ location.y.toInt = (2048 : Int32).toInt ∧ location.z = -8 := by
  have about : commandedBlock (.digBlock 8 2048 (-8) 1 .start) = some (8, 2048, -8) := rfl
  have connected : 0 < (PlayLoop.run openPlain overworld 9 []).room := by decide
  obtain ⟨packet, sent, onWire⟩ := command_sends openPlain () connected about
  refine ⟨rfl, ?_⟩
  rintro ⟨packet', location, sent', arrives, same⟩
  cases append_cancel_left (sent.symm.trans sent')
  rw [(onWire location).mp arrives, arrived_iff] at same
  exact absurd same (by decide)

example : (arrived ⟨8, -8, (2048 : Int32).toInt16⟩).y = -2048 := by decide

end Commands

end MineRider.Soundness.BlockPositions
