import MineRider.Soundness.FrameStream

/-! # The frames an encoder may produce

`encode` frames every packet, however large, while `try_decode` refuses frames and inflated bodies
above `maxFrameSize`. The two agree exactly on the packets that fit: the decoder takes the whole frame
only if its length was written without loss and is within the limit, and a compressed body only if its
own length is.
-/

namespace MineRider.Soundness.FrameLimits

open List Model.Protocol Machine.Reader FrameCodec
open FrameStream (storedZlib storedZlib_lawful)

/-- The packet stays within the decoder's limit: as the frame's contents, and when it is compressed as
the body and as the data length with the compressed bytes. -/
def Fits (zlib : Zlib) (codec : FrameCodec) (packet : RawPacket) : Prop :=
  match codec.compressionThreshold with
  | none => (body packet).length ≤ maxFrameSize
  | some threshold =>
    if (body packet).length < threshold.toNatClampNeg then
      1 + (body packet).length ≤ maxFrameSize
    else
      (body packet).length ≤ maxFrameSize ∧
        ∀ compressed, zlib.deflate (body packet) = .ok (.ok compressed) →
          (writeVarint (Int32.ofNat (body packet).length)).length + compressed.length ≤ maxFrameSize

/-- What an encoded frame has behind its length, by the three ways to frame a packet. -/
inductive Framed (zlib : Zlib) (codec : FrameCodec) (packet : RawPacket) : Bytes → Prop where
  | plain : codec.compressionThreshold = none → Framed zlib codec packet (body packet)
  | short {threshold : Int32} : codec.compressionThreshold = some threshold →
      (body packet).length < threshold.toNatClampNeg →
      Framed zlib codec packet (writeVarint 0 ++ body packet)
  | compressed {threshold : Int32} {compressed : Bytes} : codec.compressionThreshold = some threshold →
      threshold.toNatClampNeg ≤ (body packet).length →
      zlib.deflate (body packet) = .ok (.ok compressed) →
      Framed zlib codec packet (writeVarint (Int32.ofNat (body packet).length) ++ compressed)

section Encoding

variable {zlib : Zlib} {codec : FrameCodec} {packet : RawPacket} {framed : Bytes}

private theorem compress_ok {data compressed : Bytes} (done : compress zlib data = .ok compressed) :
    zlib.deflate data = .ok (.ok compressed) := by
  unfold compress at done
  split at done
  · cases done
  · cases done
  · next out deflated =>
    cases done
    exact deflated

private theorem framed_of_framedBody (built : codec.framedBody zlib packet = .ok framed) :
    Framed zlib codec packet framed := by
  unfold framedBody at built
  split at built
  · next threshold set =>
    split_ifs at built with large
    · cases deflated : compress zlib (body packet) with
      | error e =>
        rw [deflated] at built
        cases built
      | ok compressed =>
        rw [deflated] at built
        cases built
        exact .compressed set large (compress_ok deflated)
    · cases built
      exact .short set (not_le.mp large)
  · next set =>
    cases built
    exact .plain set

/-- With a correct library the encoder has no failure of its own. -/
theorem framedBody_ok (lawful : zlib.Lawful) (codec : FrameCodec) (packet : RawPacket) :
    ∃ framed, codec.framedBody zlib packet = .ok framed := by
  obtain ⟨compressed, deflated, _⟩ := lawful (body packet)
  unfold framedBody
  rw [compress, deflated]
  split
  · split_ifs
    all_goals exact ⟨_, rfl⟩
  · exact ⟨_, rfl⟩

/-- Within the frame limit, fitting is a condition on the body alone. -/
theorem Framed.fits_iff (shape : Framed zlib codec packet framed) :
    Fits zlib codec packet ↔ framed.length ≤ maxFrameSize ∧ (body packet).length ≤ maxFrameSize := by
  unfold Fits
  cases shape with
  | plain set => simp only [set, and_self]
  | short set small =>
    have zero : (writeVarint 0).length = 1 := by decide +kernel
    simp only [set, small, ↓reduceIte, length_append, zero]
    omega
  | compressed set large deflated =>
    simp only [set, not_lt.mpr large, ↓reduceIte, deflated, Except.ok.injEq, forall_eq', length_append]
    exact and_comm

end Encoding

section Decoding

variable {zlib : Zlib} {codec : FrameCodec} {packet : RawPacket} {framed : Bytes}

/-- A frame that is taken as a whole was within the limit, and its length survived its cast to `i32`. -/
theorem length_le_of_taken (taken : (codec.tryDecode zlib (writeVarint (Int32.ofNat framed.length) ++ framed)).2 = []) :
    framed.length ≤ maxFrameSize := by
  unfold tryDecode at taken
  rw [peekFrameLength_ofNat] at taken
  by_cases large : framed.length % 2 ^ 32 > maxFrameSize
  · rw [if_pos large] at taken
    exact absurd (append_eq_nil_iff.mp taken).1 (writeVarint_ne_nil _)
  · rw [if_neg large] at taken
    have enough : ¬ (writeVarint (Int32.ofNat framed.length) ++ framed).length -
        (writeVarint (Int32.ofNat framed.length)).length < framed.length % 2 ^ 32 := by
      rw [length_append]
      omega
    simp only [if_neg enough, drop_left, drop_eq_nil_iff] at taken
    omega

/-- Within the limit, `try_decode` decodes the contents of the frame. -/
theorem decodeFrame_of_taken (bound : framed.length ≤ maxFrameSize)
    (decoded : codec.tryDecode zlib (writeVarint (Int32.ofNat framed.length) ++ framed) = (.ok (some packet), [])) :
    codec.decodeFrame zlib framed = .ok packet := by
  have complete : ¬ (writeVarint (Int32.ofNat framed.length) ++ framed).length -
      (writeVarint (Int32.ofNat framed.length)).length < framed.length := by
    rw [length_append]
    omega
  unfold tryDecode at decoded
  simp only [peekFrameLength_written bound, if_neg complete, drop_left, take_length, drop_length] at decoded
  cases contents : codec.decodeFrame zlib framed with
  | error e =>
    rw [contents] at decoded
    cases decoded
  | ok found =>
    rw [contents] at decoded
    cases decoded
    rfl

/-- The payload of a packet is a part of the body it was read from. -/
theorem splitId_length_le {body : Bytes} (split : eval splitId body = .ok packet) :
    packet.payload.length ≤ body.length := by
  unfold eval splitId at split
  cases read : readVarint.run body with
  | error e =>
    rw [run_bind_of_error read] at split
    cases split
  | ok result =>
    rw [run_bind_of_ok read] at split
    cases split
    exact readVarint_sound.length_le read

private theorem decompress_length {data out : Bytes} {expected : ℕ} (done : decompress zlib data expected = .ok out) :
    out.length = expected := by
  unfold decompress at done
  simp only at done
  split at done
  · cases done
  · split_ifs at done with mismatch
    cases done
    exact not_not.mp mismatch

/-- A body that was taken out of a frame is within the limit, and so was the length announced for it. -/
theorem inflatedBody_length {announced : ℕ} {compressed body : Bytes} (bound : compressed.length ≤ maxFrameSize)
    (inflated : eval (inflatedBody zlib) (writeVarint (Int32.ofNat announced) ++ compressed) =
      .ok body) : body.length ≤ maxFrameSize ∧ ¬ Int32.ofNat announced > Int32.ofNat maxFrameSize := by
  unfold eval inflatedBody at inflated
  rw [run_bind_of_ok (readVarint_reads _ compressed)] at inflated
  by_cases negative : Int32.ofNat announced < 0
  · rw [if_pos negative] at inflated
    cases inflated
  by_cases large : Int32.ofNat announced > Int32.ofNat maxFrameSize
  · rw [if_neg negative, if_pos large] at inflated
    cases inflated
  refine ⟨?_, large⟩
  rw [if_neg negative, if_neg large, PacketReader.rest, run_bind_of_ok (run_get compressed)] at inflated
  by_cases zero : Int32.ofNat announced = 0
  · rw [if_pos zero] at inflated
    cases inflated
    exact bound
  · rw [if_neg zero] at inflated
    cases done : decompress zlib compressed (Int32.ofNat announced).toNatClampNeg with
    | error e =>
      rw [done] at inflated
      cases inflated
    | ok out =>
      rw [done] at inflated
      cases inflated
      rw [decompress_length done]
      have cap : (Int32.ofNat maxFrameSize).toInt = maxFrameSize := by decide
      rw [gt_iff_lt, Int32.lt_iff_toInt_lt, cap] at large
      rw [Int32.toNatClampNeg]
      omega

/-- A compressed packet comes back only if its body is within the limit. -/
theorem body_length_le {threshold : Int32} {compressed : Bytes} (set : codec.compressionThreshold = some threshold)
    (bound : compressed.length ≤ maxFrameSize)
    (decoded : codec.decodeFrame zlib
      (writeVarint (Int32.ofNat (body packet).length) ++ compressed) = .ok packet) :
    (body packet).length ≤ maxFrameSize := by
  unfold decodeFrame at decoded
  simp only [set] at decoded
  cases inflated : eval (inflatedBody zlib)
      (writeVarint (Int32.ofNat (body packet).length) ++ compressed) with
  | error e =>
    rw [inflated] at decoded
    cases decoded
  | ok inflatedBytes =>
    rw [inflated] at decoded
    obtain ⟨inside, announced⟩ := inflatedBody_length bound inflated
    have payload : packet.payload.length ≤ inflatedBytes.length := splitId_length_le decoded
    -- the payload is all of the body but its id, so the announced length cannot have wrapped
    have length : (body packet).length = (writeVarint packet.id).length + packet.payload.length :=
      length_append
    have id := writeVarint_length_le packet.id
    have small : (body packet).length < 2 ^ 31 := by
      rw [maxFrameSize] at inside
      rw [maxVarintBytes] at id
      omega
    have cap : (Int32.ofNat maxFrameSize).toInt = maxFrameSize := by decide
    rw [gt_iff_lt, Int32.lt_iff_toInt_lt, cap, Int32.toInt_ofNat_of_lt small] at announced
    omega

end Decoding

private theorem encode_of_framedBody {zlib : Zlib} {codec : FrameCodec} {packet : RawPacket} {framed : Bytes}
    (built : codec.framedBody zlib packet = .ok framed) :
    codec.encode zlib packet = .ok (writeVarint (Int32.ofNat framed.length) ++ framed) := by
  rw [encode, built]
  rfl

/-- The packet of an encoded frame comes back, with nothing left over, exactly when it fits. -/
theorem encoded_decodes_iff_fits {zlib : Zlib} (lawful : zlib.Lawful) (codec : FrameCodec) (packet : RawPacket) :
    (∀ frame, codec.encode zlib packet = .ok frame →
      codec.tryDecode zlib frame = (.ok (some packet), [])) ↔ Fits zlib codec packet := by
  obtain ⟨framed, built⟩ := framedBody_ok lawful codec packet
  have encoded := encode_of_framedBody built
  have shape := framed_of_framedBody built
  rw [shape.fits_iff]
  constructor
  · intro decodes
    have decoded := decodes _ encoded
    have bound : framed.length ≤ maxFrameSize := length_le_of_taken (by rw [decoded])
    refine ⟨bound, ?_⟩
    have contents : codec.decodeFrame zlib framed = .ok packet := decodeFrame_of_taken bound decoded
    cases shape with
    | plain set => exact bound
    | short set small =>
      rw [length_append] at bound
      omega
    | compressed set large deflated =>
      rw [length_append] at bound
      exact body_length_le set (by omega) contents
  · rintro ⟨bound, body⟩ frame produced
    obtain ⟨_, again, decodes⟩ := decodeFrame_framedBody lawful codec packet body
    cases built.symm.trans again
    cases encoded.symm.trans produced
    simpa using tryDecode_frame decodes bound []

/-- A packet below the threshold, which is sent without compression. -/
theorem encoded_decodes_iff_fits_demo :
    (FrameCodec.setCompressionThreshold 256).encode storedZlib ⟨300, [7, 8]⟩ = .ok [5, 0, 172, 2, 7, 8] ∧
      (FrameCodec.setCompressionThreshold 256).tryDecode storedZlib [5, 0, 172, 2, 7, 8] =
        (.ok (some ⟨300, [7, 8]⟩), []) := by
  have shape : Framed storedZlib (.setCompressionThreshold 256) ⟨300, [7, 8]⟩ _ := .short rfl (by decide +kernel)
  have fits := shape.fits_iff.mpr ⟨by decide +kernel, by decide +kernel⟩
  have encoded : (FrameCodec.setCompressionThreshold 256).encode storedZlib ⟨300, [7, 8]⟩ =
      .ok [5, 0, 172, 2, 7, 8] := by decide +kernel
  exact ⟨encoded, (encoded_decodes_iff_fits storedZlib_lawful _ _).mpr fits _ encoded⟩

/-- Without a threshold, a packet of id 0 and 2 MiB of payload is framed and then refused. -/
theorem tryDecode_large {zlib : Zlib} {payload : Bytes} (size : payload.length = maxFrameSize) :
    ∃ frame, new.encode zlib ⟨0, payload⟩ = .ok frame ∧ new.tryDecode zlib frame =
      (.error (.frameTooLarge (maxFrameSize + 1) maxFrameSize), frame) := by
  have zero : (writeVarint 0).length = 1 := by decide +kernel
  have length : (body ⟨0, payload⟩).length = maxFrameSize + 1 := by
    rw [body, length_append, zero, size, Nat.add_comm]
  have large : (maxFrameSize + 1) % 2 ^ 32 = maxFrameSize + 1 := by decide
  refine ⟨_, rfl, ?_⟩
  unfold tryDecode
  rw [peekFrameLength_ofNat, length, large, if_pos (Nat.lt_succ_self _)]

/-- The id is the one byte that is too many. -/
theorem large_packet_is_refused :
    ∃ frame, FrameCodec.new.encode storedZlib ⟨0, List.replicate maxFrameSize 0⟩ = .ok frame ∧
      FrameCodec.new.tryDecode storedZlib frame =
        (.error (.frameTooLarge (maxFrameSize + 1) maxFrameSize), frame) :=
  tryDecode_large length_replicate

end MineRider.Soundness.FrameLimits
