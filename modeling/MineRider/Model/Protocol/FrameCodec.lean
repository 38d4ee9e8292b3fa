import MineRider.Machine.StreamDecoder
import MineRider.Model.Protocol.Compression
import MineRider.Model.Protocol.VarInt

/-! # Length-prefixed frames with optional compression

A frame is a VarInt length followed by that many bytes. Without a threshold these are the packet
id and payload; with one they start with a VarInt data length, which is zero for a body that was
left uncompressed. The decoder looks at the length without consuming it, takes nothing from the
buffer until the whole frame is there, and refuses lengths above `maxFrameSize`.
-/

namespace MineRider.Model.Protocol

open List Machine Machine.Reader PacketReader

/-- The largest frame accepted on the wire, 2 MiB. -/
def maxFrameSize : ℕ := 2 * 1024 * 1024

structure RawPacket where
  id : Int32
  payload : Bytes
deriving DecidableEq, Repr

/-- A threshold is never negative: a negative setting disables compression. -/
structure FrameCodec where
  compressionThreshold : Option Int32
  nonnegative : ∀ threshold ∈ compressionThreshold, 0 ≤ threshold

namespace FrameCodec

def new : FrameCodec := ⟨none, by simp⟩

def setCompressionThreshold (threshold : Int32) : FrameCodec :=
  if negative : threshold < 0 then ⟨none, by simp⟩
  else ⟨some threshold, by simpa using Int32.not_lt.mp negative⟩

/-- The packet id and payload, before any compression. -/
def body (packet : RawPacket) : Bytes := writeVarint packet.id ++ packet.payload

/-- The bytes behind the frame length. -/
def framedBody (zlib : Zlib) (codec : FrameCodec) (packet : RawPacket) : Except ProtocolError Bytes :=
  match codec.compressionThreshold with
  | some threshold =>
    if (body packet).length ≥ threshold.toNatClampNeg then do
      let compressed ← compress zlib (body packet)
      pure (writeVarint (Int32.ofNat (body packet).length) ++ compressed)
    else pure (writeVarint 0 ++ body packet)
  | none => pure (body packet)

/-- Encodes a packet into a complete wire frame. -/
def encode (zlib : Zlib) (codec : FrameCodec) (packet : RawPacket) : Except ProtocolError Bytes := do
  let framed ← framedBody zlib codec packet
  pure (writeVarint (Int32.ofNat framed.length) ++ framed)

/-- The loop of `peek_frame_length` on the bytes from position `i`, with `left` iterations to go. -/
def peekLoop (i : ℕ) (result : UInt32) : ℕ → Bytes → Except ProtocolError (Option (ℕ × ℕ))
  | 0, _ => .error .varIntTooLong
  | _ + 1, [] => .ok none
  | left + 1, byte :: rest =>
    let result := accumulate result i byte
    if byte &&& 0x80 = 0 then
      if result.toNat > maxFrameSize then .error (.frameTooLarge result.toNat maxFrameSize)
      else .ok (some (result.toNat, i + 1))
    else peekLoop (i + 1) result left rest

/-- The frame length and the size of its VarInt, or `none` while that is incomplete. -/
def peekFrameLength (buf : Bytes) : Except ProtocolError (Option (ℕ × ℕ)) :=
  peekLoop 0 0 maxVarintBytes buf

/-- The body of a frame received while a threshold is set. -/
def inflatedBody (zlib : Zlib) : PacketReader Bytes := do
  let dataLength ← readVarint
  if dataLength < 0 then
    throw (.negativeLength dataLength)
  if dataLength > Int32.ofNat maxFrameSize then
    throw (.frameTooLarge dataLength.toNatClampNeg maxFrameSize)
  let rest ← rest
  if dataLength = 0 then pure rest
  else MonadExcept.ofExcept (decompress zlib rest dataLength.toNatClampNeg)

/-- The first VarInt of a body is the packet id. -/
def splitId : PacketReader RawPacket := do
  let id ← readVarint
  let payload ← rest
  pure ⟨id, payload⟩

/-- What `try_decode` does with the bytes of one complete frame. -/
def decodeFrame (zlib : Zlib) (codec : FrameCodec) (frameBytes : Bytes) : Except ProtocolError RawPacket := do
  let body ← match codec.compressionThreshold with
    | some _ => eval (inflatedBody zlib) frameBytes
    | none => pure frameBytes
  eval splitId body

/-- Attempts to decode one frame from the front of `buf`; the second component is the buffer left. -/
def tryDecode (zlib : Zlib) (codec : FrameCodec) (buf : Bytes) :
    Except ProtocolError (Option RawPacket) × Bytes :=
  match peekFrameLength buf with
  | .error e => (.error e, buf)
  | .ok none => (.ok none, buf)
  | .ok (some (frameLen, varintLen)) =>
    if buf.length - varintLen < frameLen then (.ok none, buf)
    else
      let advanced := buf.drop varintLen
      ((decodeFrame zlib codec (advanced.take frameLen)).map some, advanced.drop frameLen)

section Peek

theorem peekLoop_append {left i : ℕ} {result : UInt32} {buf : Bytes}
    (decided : peekLoop i result left buf ≠ .ok none) (suffix : Bytes) :
    peekLoop i result left (buf ++ suffix) = peekLoop i result left buf := by
  induction left generalizing i result buf with
  | zero => simp only [peekLoop]
  | succ left ih =>
    cases buf with
    | nil => exact absurd rfl decided
    | cons byte rest =>
      rw [cons_append]
      simp only [peekLoop] at decided ⊢
      split_ifs at decided ⊢ with stop large
      · rfl
      · rfl
      · exact ih decided

/-- What peeking makes of the reader's result on the bytes from position `i`. -/
def verdict (i : ℕ) (buf : Bytes) :
    Except ProtocolError (Int32 × Bytes) → Except ProtocolError (Option (ℕ × ℕ))
  | .ok (v, rest) =>
    if v.toUInt32.toNat > maxFrameSize then .error (.frameTooLarge v.toUInt32.toNat maxFrameSize)
    else .ok (some (v.toUInt32.toNat, i + (buf.length - rest.length)))
  | .error .varIntTooLong => .error .varIntTooLong
  | .error _ => .ok none

/-- Peeking runs the loop of `read_varint` without consuming. -/
theorem peekLoop_eq_verdict (left i : ℕ) (result : UInt32) (buf : Bytes) :
    peekLoop i result left buf = verdict i buf ((readVarintLoop i result left).run buf) := by
  induction left generalizing i result buf with
  | zero => rfl
  | succ left ih =>
    cases buf with
    | nil => rfl
    | cons byte rest =>
      rw [peekLoop, readVarintLoop, run_bind_of_ok (getU8_cons ..)]
      split_ifs with stop large
      · rw [run_pure, verdict, UInt32.toUInt32_toInt32, if_pos large]
      · rw [run_pure, verdict, UInt32.toUInt32_toInt32, if_neg large, length_cons, Nat.add_sub_cancel_left]
      · rw [ih]
        cases read : (readVarintLoop (i + 1) (accumulate result i byte) left).run rest with
        | error e => cases e <;> rfl
        | ok taken =>
          obtain ⟨v, unread⟩ := taken
          obtain ⟨used, rfl, _⟩ := readVarintLoop_sound _ _ _ _ _ _ read
          simp only [verdict, length_cons, length_append]
          rw [show i + 1 + (used.length + unread.length - unread.length) =
            i + (used.length + unread.length + 1 - unread.length) by omega]

theorem peekFrameLength_length_le {buf : Bytes} {frameLen varintLen : ℕ}
    (peeked : peekFrameLength buf = .ok (some (frameLen, varintLen))) : varintLen ≤ buf.length := by
  rw [peekFrameLength, peekLoop_eq_verdict] at peeked
  cases read : (readVarintLoop 0 0 maxVarintBytes).run buf with
  | error e => cases e <;> simp [read, verdict] at peeked
  | ok taken =>
    rw [read, verdict] at peeked
    split_ifs at peeked
    cases peeked
    omega

/-- A length that does not fit into 32 bits is written and peeked modulo `2 ^ 32`. -/
theorem peekFrameLength_ofNat (length : ℕ) (suffix : Bytes) :
    peekFrameLength (writeVarint (Int32.ofNat length) ++ suffix) =
      if length % 2 ^ 32 > maxFrameSize then .error (.frameTooLarge (length % 2 ^ 32) maxFrameSize)
      else .ok (some (length % 2 ^ 32, (writeVarint (Int32.ofNat length)).length)) := by
  have value : (Int32.ofNat length).toUInt32.toNat = length % 2 ^ 32 := rfl
  rw [peekFrameLength, peekLoop_eq_verdict, ← readVarint, readVarint_reads, verdict, value, length_append,
    Nat.add_sub_cancel, Nat.zero_add]

theorem peekFrameLength_written {length : ℕ} (bound : length ≤ maxFrameSize) (suffix : Bytes) :
    peekFrameLength (writeVarint (Int32.ofNat length) ++ suffix) =
      .ok (some (length, (writeVarint (Int32.ofNat length)).length)) := by
  have small : length % 2 ^ 32 = length := by
    rw [maxFrameSize] at bound
    exact Nat.mod_eq_of_lt (by omega)
  rw [peekFrameLength_ofNat, small, if_neg (not_lt.mpr bound)]

end Peek

/-- Once `try_decode` has decided, further bytes only lengthen the buffer it leaves. -/
theorem tryDecode_append {zlib : Zlib} {codec : FrameCodec} {buf : Bytes}
    (decided : (tryDecode zlib codec buf).1 ≠ .ok none) (suffix : Bytes) :
    tryDecode zlib codec (buf ++ suffix) =
      ((tryDecode zlib codec buf).1, (tryDecode zlib codec buf).2 ++ suffix) := by
  cases peeked : peekFrameLength buf with
  | error e =>
    have same : peekFrameLength (buf ++ suffix) = .error e := by
      rw [← peeked]
      exact peekLoop_append (by rw [← peekFrameLength, peeked]; simp) suffix
    simp only [tryDecode, peeked, same]
  | ok length =>
    rcases length with _ | ⟨frameLen, varintLen⟩
    · simp [tryDecode, peeked] at decided
    · have same : peekFrameLength (buf ++ suffix) = .ok (some (frameLen, varintLen)) := by
        rw [← peeked]
        exact peekLoop_append (by rw [← peekFrameLength, peeked]; simp) suffix
      have inside := peekFrameLength_length_le peeked
      simp only [tryDecode, peeked, same] at decided ⊢
      split_ifs at decided with short
      · exact absurd rfl decided
      · have complete : frameLen ≤ (buf.drop varintLen).length := by
          rw [length_drop]
          omega
        rw [if_neg (by rw [length_append]; omega), if_neg short,
          drop_append_of_le_length inside, take_append_of_le_length complete,
          drop_append_of_le_length complete]

theorem tryDecode_none {zlib : Zlib} {codec : FrameCodec} {buf rest : Bytes}
    (pending : tryDecode zlib codec buf = (.ok none, rest)) : rest = buf := by
  simp only [tryDecode] at pending
  split at pending
  · cases pending
  · cases pending
    rfl
  · split_ifs at pending with short
    · cases pending
      rfl
    · -- a decoded frame is reported as `some`
      cases decoded : decodeFrame zlib codec _ with
      | error e | ok packet => rw [decoded] at pending; cases pending

/-- `try_decode` as an incremental decoder. -/
def decoder (zlib : Zlib) (codec : FrameCodec) : StreamDecoder UInt8 RawPacket ProtocolError where
  attempt buf :=
    match tryDecode zlib codec buf with
    | (.error e, _) => .fail e
    | (.ok none, _) => .more
    | (.ok (some packet), rest) => .item packet rest
  item_append := by
    intro buf packet rest decoded suffix
    split at decoded <;> cases decoded
    rename_i tried
    rw [tryDecode_append (by rw [tried]; simp), tried]
  fail_append := by
    intro buf e failed suffix
    split at failed <;> cases failed
    rename_i tried
    rw [tryDecode_append (by rw [tried]; simp), tried]

section Roundtrip

variable {zlib : Zlib}

theorem splitId_body (packet : RawPacket) : eval splitId (body packet) = .ok packet :=
  eval_of_run (by
    rw [splitId, body, run_bind_of_ok (readVarint_reads packet.id packet.payload)]
    rfl)

theorem inflatedBody_zero (data : Bytes) :
    eval (inflatedBody zlib) (writeVarint 0 ++ data) = .ok data :=
  eval_of_run (by
    rw [inflatedBody, run_bind_of_ok (readVarint_reads 0 data)]
    rfl)

theorem length_small {length : ℕ} (bound : length ≤ maxFrameSize) : length < 2 ^ 31 := by
  rw [maxFrameSize] at bound
  omega

theorem length_not_large {length : ℕ} (bound : length ≤ maxFrameSize) :
    ¬ Int32.ofNat length > Int32.ofNat maxFrameSize := by
  have cap : (Int32.ofNat maxFrameSize).toInt = maxFrameSize := by decide
  rw [gt_iff_lt, Int32.lt_iff_toInt_lt, Int32.toInt_ofNat_of_lt (length_small bound), cap]
  omega

theorem inflatedBody_compressed {data compressed : Bytes} (nonempty : data ≠ [])
    (bound : data.length ≤ maxFrameSize) (inflates : decompress zlib compressed data.length = .ok data) :
    eval (inflatedBody zlib) (writeVarint (Int32.ofNat data.length) ++ compressed) = .ok data := by
  obtain ⟨notNegative, value⟩ := length_as_i32 (length_small bound)
  have nonzero : Int32.ofNat data.length ≠ 0 := by
    intro zero
    rw [zero] at value
    exact nonempty (length_eq_zero_iff.mp value.symm)
  have run : (inflatedBody zlib).run (writeVarint (Int32.ofNat data.length) ++ compressed) =
      .ok (data, compressed) := by
    rw [inflatedBody, run_bind_of_ok (readVarint_reads _ compressed), if_neg notNegative,
      if_neg (length_not_large bound)]
    simp only [nonzero, value, ↓reduceIte]
    rw [rest, run_bind_of_ok (run_get compressed), inflates]
    rfl
  exact eval_of_run run

theorem body_ne_nil (packet : RawPacket) : body packet ≠ [] := by
  simp [body, writeVarint_ne_nil]

/-- The bytes behind the length of an encoded frame decode to the packet. -/
theorem decodeFrame_framedBody (lawful : zlib.Lawful) (codec : FrameCodec) (packet : RawPacket)
    (bound : (body packet).length ≤ maxFrameSize) :
    ∃ framed, framedBody zlib codec packet = .ok framed ∧ decodeFrame zlib codec framed = .ok packet := by
  simp only [framedBody, decodeFrame]
  cases codec.compressionThreshold with
  | none => exact ⟨body packet, rfl, splitId_body packet⟩
  | some threshold =>
    by_cases large : (body packet).length ≥ threshold.toNatClampNeg
    · obtain ⟨compressed, deflated, inflates⟩ := lawful.roundtrip (body packet)
        (bound.trans (by decide))
      refine ⟨writeVarint (Int32.ofNat (body packet).length) ++ compressed, ?_, ?_⟩
      · simp only [large, ↓reduceIte, deflated]
        rfl
      · simp only [inflatedBody_compressed (body_ne_nil packet) bound inflates]
        exact splitId_body packet
    · refine ⟨writeVarint 0 ++ body packet, ?_, ?_⟩
      · simp only [large, ↓reduceIte]
        rfl
      · simp only [inflatedBody_zero]
        exact splitId_body packet

/-- In front of any suffix, `try_decode` takes exactly one encoded frame. -/
theorem tryDecode_frame {codec : FrameCodec} {packet : RawPacket} {framed : Bytes}
    (decodes : decodeFrame zlib codec framed = .ok packet) (bound : framed.length ≤ maxFrameSize)
    (suffix : Bytes) :
    tryDecode zlib codec (writeVarint (Int32.ofNat framed.length) ++ framed ++ suffix) =
      (.ok (some packet), suffix) := by
  rw [append_assoc]
  simp only [tryDecode, peekFrameLength_written bound]
  rw [if_neg (by simp only [length_append]; omega), drop_left, take_left, drop_left, decodes]
  rfl

end Roundtrip

end FrameCodec

end MineRider.Model.Protocol
