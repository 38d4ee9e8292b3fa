import MineRider.Model.Protocol.FrameCodec

/-! # Numbers on the wire

What is written as a VarInt, a VarLong or a packed position is read back, and the length of a frame is peeked
as the VarInt that is read from its bytes.
-/

namespace MineRider.Soundness.WireNumbers

open BitVec Machine Machine.Reader Model.Protocol FrameCodec Groups

theorem varint_varlong_round_trip :
    (∀ (v : Int32) (suffix : Bytes), readVarint.run (writeVarint v ++ suffix) = .ok (v, suffix) ∧
      (writeVarint v).length = varintSize v ∧ varintSize v ≤ 5) ∧
    ∀ (v : Int64) (suffix : Bytes), readVarlong.run (writeVarlong v ++ suffix) = .ok (v, suffix) ∧
      (writeVarlong v).length = varlongSize v ∧ varlongSize v ≤ 10 := by
  constructor
  · intro v suffix
    have size : (writeVarint v).length = varintSize v := by
      rw [writeVarint_eq_numeral, varintSize, size_eq_length (by decide)]
      rfl
    exact ⟨readVarint_reads v suffix, size, size ▸ writeVarint_length_le v⟩
  · intro v suffix
    have size : (writeVarlong v).length = varlongSize v := by
      rw [writeVarlong, write_eq_numeral (by decide), varlongSize, size_eq_length (by decide)]
    refine ⟨?_, size, ?_⟩
    · rw [readVarlong, map_eq_pure_bind]
      exact (read_write (by decide) PacketReader.getU8_cons _ (by decide) _).map _ suffix
    · rw [varlongSize, size_eq_length (by decide)]
      exact numeral_length_le 9 (v.toUInt64.toNat_lt.trans (by decide))

private theorem readVarintLoop_error (left : ℕ) {i : ℕ} {result : UInt32} {buf : Bytes} {e : ProtocolError}
    (failed : (readVarintLoop i result left).run buf = .error e) :
    e = .varIntTooLong ∨ e = .bufferUnderflow 1 0 := by
  induction left generalizing i result buf with
  | zero =>
    cases failed
    exact .inl rfl
  | succ left ih =>
    cases buf with
    | nil =>
      cases failed
      exact .inr rfl
    | cons byte rest =>
      rw [readVarintLoop, run_bind_of_ok (PacketReader.getU8_cons ..)] at failed
      split_ifs at failed
      · cases failed
      · exact ih failed

theorem peek_agrees_with_read (buf : Bytes) :
    (∀ length count, FrameCodec.peekFrameLength buf = .ok (some (length, count)) ↔
      ∃ v rest, readVarint.run buf = .ok (v, rest) ∧ v.toUInt32.toNat = length ∧ length ≤ maxFrameSize ∧
        buf.length = count + rest.length) ∧
    (FrameCodec.peekFrameLength buf = .ok none ↔
      ∃ needed remaining, readVarint.run buf = .error (.bufferUnderflow needed remaining)) ∧
    (FrameCodec.peekFrameLength buf = .error .varIntTooLong ↔ readVarint.run buf = .error .varIntTooLong) ∧
    ∀ length max, FrameCodec.peekFrameLength buf = .error (.frameTooLarge length max) ↔
      max = maxFrameSize ∧ maxFrameSize < length ∧
        ∃ v rest, readVarint.run buf = .ok (v, rest) ∧ v.toUInt32.toNat = length := by
  rw [peekFrameLength, peekLoop_eq_verdict, ← readVarint]
  cases read : readVarint.run buf with
  | error e => obtain rfl | rfl := readVarintLoop_error _ read <;> simp [verdict]
  | ok taken =>
    obtain ⟨v, rest⟩ := taken
    obtain ⟨used, rfl, -⟩ := readVarint_sound _ _ _ read
    rw [verdict, List.length_append]
    split_ifs with large
    · simp only [reduceCtorEq, Except.ok.injEq, Except.error.injEq, Prod.mk.injEq, ProtocolError.frameTooLarge.injEq]
      grind
    · simp only [reduceCtorEq, Except.ok.injEq, Prod.mk.injEq, Option.some.injEq]
      grind

private theorem mask_toNat {n : ℕ} (narrow : n < 64) (v : Int32) :
    (v.toInt64.toBitVec &&& BitVec.ofNat 64 (2 ^ n - 1)).toNat = (v.toInt % 2 ^ n).toNat := by
  have room : 2 ^ n < 2 ^ 64 := Nat.pow_lt_pow_right (by decide) narrow
  have low : v.toInt % 2 ^ n = v.toInt64.toBitVec.toNat % 2 ^ n := by
    have divides : (2 : ℤ) ^ n ∣ (2 ^ 64 : ℕ) := pow_dvd_pow 2 narrow.le
    rw [← v.toInt_toInt64, ← Int64.toInt_toBitVec, toInt_eq_toNat_bmod, ← Int.emod_emod_of_dvd _ divides,
      Int.bmod_emod, Int.emod_emod_of_dvd _ divides]
  rw [toNat_and, toNat_ofNat, Nat.mod_eq_of_lt (by omega), Nat.and_two_pow_sub_one_eq_mod, low]
  rfl

private theorem packPosition_toNat (x y z : Int32) : (packPosition x y z).toBitVec.toNat =
    (x.toInt % 2 ^ 26).toNat * 2 ^ 38 + ((z.toInt % 2 ^ 26).toNat * 2 ^ 12 + (y.toInt % 2 ^ 12).toNat) := by
  have bits : (packPosition x y z).toBitVec = (x.toInt64.toBitVec &&& BitVec.ofNat 64 (2 ^ 26 - 1)) <<< 38 |||
      (z.toInt64.toBitVec &&& BitVec.ofNat 64 (2 ^ 26 - 1)) <<< 12 |||
        (y.toInt64.toBitVec &&& BitVec.ofNat 64 (2 ^ 12 - 1)) := rfl
  have small : (y.toInt % 2 ^ 12).toNat < 2 ^ 12 := by omega
  have lower : (z.toInt % 2 ^ 26).toNat <<< 12 + (y.toInt % 2 ^ 12).toNat < 2 ^ 38 := by
    rw [Nat.shiftLeft_eq]
    omega
  have upper : (x.toInt % 2 ^ 26).toNat <<< 38 < 2 ^ 64 := by
    rw [Nat.shiftLeft_eq]
    omega
  rw [bits, BitVec.or_assoc, toNat_or, toNat_or, toNat_shiftLeft, toNat_shiftLeft,
    mask_toNat (by decide), mask_toNat (by decide), mask_toNat (by decide), Nat.mod_eq_of_lt upper,
    Nat.mod_eq_of_lt (by omega), ← Nat.shiftLeft_add_eq_or_of_lt small, ← Nat.shiftLeft_add_eq_or_of_lt lower,
    Nat.shiftLeft_eq, Nat.shiftLeft_eq]

private theorem unpackPosition_toInt (packed : Int64) : let n := packed.toBitVec.toNat
    (unpackPosition packed).1.toInt = (n / 2 ^ 38 : ℤ).bmod (2 ^ 26) ∧
    (unpackPosition packed).2.1.toInt = (n : ℤ).bmod (2 ^ 12) ∧
    (unpackPosition packed).2.2.toInt = (n / 2 ^ 12 : ℤ).bmod (2 ^ 26) := by
  have down (v : Int64) : (v >>> 38).toInt = v.toBitVec.toInt >>> (38 : ℕ) := toInt_sshiftRight
  have low : (packed <<< 52 >>> 52).toInt = (packed.toBitVec <<< 52).toInt >>> (52 : ℕ) := toInt_sshiftRight
  have up : (packed <<< 26).toBitVec = packed.toBitVec <<< 26 := rfl
  simp only [unpackPosition, Int64.toInt_toInt32, down, low, up, toInt_eq_toNat_bmod,
    toNat_shiftLeft, Int.shiftRight_eq_div_pow, Nat.shiftLeft_eq, Int.bmod_def]
  omega

theorem position_round_trip : (∀ x y z : Int32, -2 ^ 25 ≤ x.toInt → x.toInt < 2 ^ 25 → -2 ^ 11 ≤ y.toInt →
      y.toInt < 2 ^ 11 → -2 ^ 25 ≤ z.toInt → z.toInt < 2 ^ 25 → unpackPosition (packPosition x y z) = (x, y, z)) ∧
    ∀ p : Int64, packPosition (unpackPosition p).1 (unpackPosition p).2.1 (unpackPosition p).2.2 = p := by
  constructor
  · intro x y z _ _ _ _ _ _
    obtain ⟨first, second, third⟩ := unpackPosition_toInt (packPosition x y z)
    rw [packPosition_toNat, Int.bmod_def] at first second third
    refine Prod.ext (Int32.toInt_inj.mp (first.trans ?_))
      (Prod.ext (Int32.toInt_inj.mp (second.trans ?_)) (Int32.toInt_inj.mp (third.trans ?_)))
    all_goals
      dsimp only
      omega
  · intro p
    obtain ⟨first, second, third⟩ := unpackPosition_toInt p
    have bound := p.toBitVec.isLt
    apply Int64.toBitVec_inj.mp
    apply eq_of_toNat_eq
    have wide (v : ℤ) : v.bmod (2 ^ 26) % 2 ^ 26 = v % 2 ^ 26 := Int.bmod_emod
    have narrow (v : ℤ) : v.bmod (2 ^ 12) % 2 ^ 12 = v % 2 ^ 12 := Int.bmod_emod
    rw [packPosition_toNat, first, second, third, wide, wide, narrow]
    omega

end MineRider.Soundness.WireNumbers
