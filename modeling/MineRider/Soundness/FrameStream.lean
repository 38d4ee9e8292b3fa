import MineRider.Model.Network.Connection

/-! # Packet streams between two connections

A script lists what the two ends do in order: the sender sends a packet and the receiver reads
one, or both change the compression threshold. The sender's frames form one byte stream; the
receiver sees it in chunks that may end anywhere, so that later frames can already be buffered
when a threshold changes. The packets read are the packets sent, and for arbitrary bytes the reads
depend on the stream alone.
-/

namespace MineRider.Soundness.FrameStream

open Model.Core Model.Protocol Model.Network FrameCodec Connection

inductive Op where
  | packet (packet : RawPacket)
  | threshold (threshold : Int32)
deriving DecidableEq, Repr

def packets (ops : List Op) : List RawPacket :=
  ops.filterMap fun
    | .packet packet => some packet
    | .threshold _ => none

/-- The sending end of a script, over a socket whose writes succeed. -/
def sendAll (zlib : Zlib) : Connection → List Op → Except MineRiderError Bytes
  | _, [] => .ok []
  | conn, .threshold threshold :: ops => sendAll zlib (conn.setCompression threshold) ops
  | conn, .packet packet :: ops =>
    match conn.sendPacket zlib (fun _ => .ok ()) packet with
    | (.error e, _) => .error e
    | (.ok wire, conn) => (wire ++ ·) <$> sendAll zlib conn ops

/-- The receiving end: one `read_packet` for every packet of the script, whose contents it does
not look at. -/
def receiveAll (zlib : Zlib) : Connection → Incoming → List Op →
    Except MineRiderError (List RawPacket × Connection × Incoming)
  | conn, incoming, [] => .ok ([], conn, incoming)
  | conn, incoming, .threshold threshold :: ops =>
    receiveAll zlib (conn.setCompression threshold) incoming ops
  | conn, incoming, .packet _ :: ops =>
    match conn.readPacket zlib incoming with
    | (.error e, _, _) => .error e
    | (.ok packet, conn, incoming) =>
      (fun (packets, left) => (packet :: packets, left)) <$> receiveAll zlib conn incoming ops

/-- Every packet respects the frame cap, before and after compression with the threshold that is
set when it is sent. -/
def AllFit (zlib : Zlib) : FrameCodec → List Op → Prop
  | _, [] => True
  | _, .threshold threshold :: ops => AllFit zlib (.setCompressionThreshold threshold) ops
  | codec, .packet packet :: ops =>
    (body packet).length ≤ maxFrameSize ∧
      (∀ framed, codec.framedBody zlib packet = .ok framed → framed.length ≤ maxFrameSize) ∧
      AllFit zlib codec ops

instance (zlib : Zlib) (codec : FrameCodec) (packet : RawPacket) :
    Decidable (∀ framed, codec.framedBody zlib packet = .ok framed → framed.length ≤ maxFrameSize) :=
  match codec.framedBody zlib packet with
  | .error _ => isTrue (by simp)
  | .ok framed => decidable_of_iff (framed.length ≤ maxFrameSize) (by simp)

instance decidableAllFit (zlib : Zlib) : (codec : FrameCodec) → (ops : List Op) → Decidable (AllFit zlib codec ops)
  | _, [] => .isTrue trivial
  | _, .threshold threshold :: ops => decidableAllFit zlib (.setCompressionThreshold threshold) ops
  | codec, .packet _ :: ops =>
    have := decidableAllFit zlib codec ops
    inferInstanceAs (Decidable (_ ∧ _ ∧ AllFit zlib codec ops))

/-- Two fresh ends of one stream: same threshold, ciphers in step, nothing buffered. -/
structure Paired (sender receiver : Connection) : Prop where
  codec : receiver.codec = sender.codec
  cipher : Connection.InStep sender.cipher receiver.cipher
  empty : receiver.readBuf = []
  senderUsable : sender.writeFailed = false
  receiverUsable : receiver.writeFailed = false

section Sending

variable {zlib : Zlib}

/-- The frames of a script in the clear. -/
def encodeAll (zlib : Zlib) : FrameCodec → List Op → Except ProtocolError Bytes
  | _, [] => .ok []
  | _, .threshold threshold :: ops => encodeAll zlib (.setCompressionThreshold threshold) ops
  | codec, .packet packet :: ops => do
    let frame ← codec.encode zlib packet
    let rest ← encodeAll zlib codec ops
    pure (frame ++ rest)

/-- A fitting packet has a frame, and any stream that starts with it decodes to that packet. -/
theorem encode_decodes (lawful : zlib.Lawful) {codec : FrameCodec} {packet : RawPacket}
    (body : (body packet).length ≤ maxFrameSize)
    (framedBound : ∀ framed, codec.framedBody zlib packet = .ok framed → framed.length ≤ maxFrameSize) :
    ∃ frame, codec.encode zlib packet = .ok frame ∧
      ∀ suffix, (codec.decoder zlib).attempt (frame ++ suffix) = .item packet suffix := by
  obtain ⟨framed, built, decodes⟩ := decodeFrame_framedBody lawful codec packet body
  refine ⟨writeVarint (Int32.ofNat framed.length) ++ framed, ?_, ?_⟩
  · rw [encode, built]
    rfl
  · intro suffix
    simp only [decoder, tryDecode_frame decodes (framedBound framed built)]

private theorem encodeAll_ok (lawful : zlib.Lawful) {codec : FrameCodec} {ops : List Op}
    (fits : AllFit zlib codec ops) : ∃ stream, encodeAll zlib codec ops = .ok stream := by
  induction ops generalizing codec with
  | nil => exact ⟨[], rfl⟩
  | cons op ops ih =>
    cases op with
    | threshold threshold => exact ih fits
    | packet packet =>
      obtain ⟨body, framedBound, rest⟩ := fits
      obtain ⟨frame, encoded, _⟩ := encode_decodes lawful body framedBound
      obtain ⟨stream, later⟩ := ih rest
      refine ⟨frame ++ stream, ?_⟩
      rw [encodeAll, encoded, later]
      rfl

/-- What goes over the wire is the stream of frames under the sender's cipher. -/
theorem sendAll_of_encodeAll {conn : Connection} (usable : conn.writeFailed = false) {ops : List Op}
    {stream : Bytes} (encoded : encodeAll zlib conn.codec ops = .ok stream) :
    sendAll zlib conn ops = .ok (sealFrame conn.cipher stream).1 := by
  induction ops generalizing conn stream with
  | nil =>
    cases encoded
    cases cipher : conn.cipher <;> rfl
  | cons op ops ih =>
    cases op with
    | threshold threshold => exact @ih (conn.setCompression threshold) usable _ encoded
    | packet packet =>
      cases first : conn.codec.encode zlib packet with
      | error e =>
        rw [encodeAll, first] at encoded
        cases encoded
      | ok frame =>
        cases later : encodeAll zlib conn.codec ops with
        | error e =>
          rw [encodeAll, first, later] at encoded
          cases encoded
        | ok rest =>
          rw [encodeAll, first, later] at encoded
          cases encoded
          have sent := @ih { conn with cipher := (sealFrame conn.cipher frame).2 }
            usable rest later
          rw [sendAll, sendPacket_ok usable first, sealFrame_append]
          simp only [sent]
          rfl

end Sending

/-- With the frames of the script pending, the receiver reads its packets and nothing is left. -/
theorem receiveAll_of_pending {zlib : Zlib} (lawful : zlib.Lawful) {conn : Connection}
    {incoming : Incoming} {ops : List Op} (usable : conn.writeFailed = false)
    (fits : AllFit zlib conn.codec ops)
    (encoded : encodeAll zlib conn.codec ops = .ok (conn.pending incoming)) :
    ∃ conn' incoming', receiveAll zlib conn incoming ops = .ok (packets ops, conn', incoming') ∧
      conn'.pending incoming' = [] := by
  induction ops generalizing conn incoming with
  | nil =>
    exact ⟨conn, incoming, rfl, (Except.ok.inj encoded).symm⟩
  | cons op ops ih =>
    cases op with
    | threshold threshold =>
      exact @ih (conn.setCompression threshold) incoming usable fits encoded
    | packet packet =>
      obtain ⟨body, framedBound, later⟩ := fits
      obtain ⟨frame, first, decodes⟩ := encode_decodes lawful body framedBound
      obtain ⟨rest, following⟩ := encodeAll_ok lawful later
      rw [encodeAll, first, following] at encoded
      have stream : frame ++ rest = conn.pending incoming := Except.ok.inj encoded
      obtain ⟨conn', incoming', read, remaining, codec, stillUsable⟩ :=
        readPacket_item zlib usable (stream ▸ decodes rest)
      obtain ⟨final, left, received, empty⟩ :=
        ih stillUsable (codec ▸ later) (by rw [codec, remaining]; exact following)
      refine ⟨final, left, ?_, empty⟩
      rw [receiveAll, read]
      simp only [received]
      rfl

/-- Whatever the cut of the wire into chunks, the receiver reads exactly the packets sent, in
order, and ends with an empty buffer and no chunk left. -/
theorem receives_sent_packets {zlib : Zlib} (lawful : zlib.Lawful) (sender receiver : Connection)
    (paired : Paired sender receiver) (ops : List Op) (fits : AllFit zlib sender.codec ops) :
    ∃ wire, sendAll zlib sender ops = .ok wire ∧
      ∀ incoming, Connection.wireBytes incoming.chunks = wire →
        ∃ final left, receiveAll zlib receiver incoming ops = .ok (packets ops, final, left) ∧
          final.readBuf = [] ∧ left.chunks = [] := by
  obtain ⟨stream, encoded⟩ := encodeAll_ok lawful fits
  refine ⟨_, sendAll_of_encodeAll paired.senderUsable encoded, ?_⟩
  intro incoming cut
  have pending : receiver.pending incoming = stream := by
    rw [pending, paired.empty, List.nil_append, cut, paired.cipher.openChunk_sealFrame]
  rw [← paired.codec] at fits encoded
  rw [← pending] at encoded
  obtain ⟨final, left, received, empty⟩ :=
    receiveAll_of_pending lawful paired.receiverUsable fits encoded
  exact ⟨final, left, received, pending_eq_nil empty⟩

/-- A zlib that stores its input. No packet of the instance below reaches the threshold, so the
library is never called there. -/
def storedZlib : Zlib where
  deflate data := .ok (.ok data)
  inflate data cap := .ok (data.take cap)

theorem storedZlib_lawful : storedZlib.Lawful := fun data => ⟨data, rfl, fun _ => rfl⟩

/-- A threshold is set, then disabled, while later frames are already in the chunk that is read. -/
theorem receives_sent_packets_demo :
    ∃ final left, receiveAll storedZlib .new
        ⟨[⟨[3, 0], by decide⟩, ⟨[1, 2, 4], by decide⟩, ⟨[0, 172, 2, 3, 6, 0, 255, 255], by decide⟩,
          ⟨[255, 255, 15, 2, 5, 7], by decide⟩], .connectionClosed⟩
        [.packet ⟨0, [1, 2]⟩, .threshold 256, .packet ⟨300, [3]⟩, .packet ⟨-1, []⟩, .threshold (-1),
          .packet ⟨5, [7]⟩] =
        .ok ([⟨0, [1, 2]⟩, ⟨300, [3]⟩, ⟨-1, []⟩, ⟨5, [7]⟩], final, left) ∧
      final.readBuf = [] ∧ left.chunks = [] := by
  obtain ⟨wire, sent, receives⟩ := receives_sent_packets storedZlib_lawful
    .new .new ⟨rfl, trivial, rfl, rfl, rfl⟩
    [.packet ⟨0, [1, 2]⟩, .threshold 256, .packet ⟨300, [3]⟩, .packet ⟨-1, []⟩, .threshold (-1),
      .packet ⟨5, [7]⟩] (by decide +kernel)
  have computed : sendAll storedZlib .new [.packet ⟨0, [1, 2]⟩, .threshold 256, .packet ⟨300, [3]⟩,
      .packet ⟨-1, []⟩, .threshold (-1), .packet ⟨5, [7]⟩] =
      .ok [3, 0, 1, 2, 4, 0, 172, 2, 3, 6, 0, 255, 255, 255, 255, 15, 2, 5, 7] := by decide +kernel
  rw [computed] at sent
  cases sent
  exact receives _ rfl

section Chunking

/-- Up to `count` reads; after each packet the client may change its codec in reaction to it. The
result is the packets read and the error that stopped the reads, if any. -/
def readAll (zlib : Zlib) (react : RawPacket → FrameCodec → FrameCodec) :
    ℕ → Connection → Incoming → List RawPacket × Option MineRiderError
  | 0, _, _ => ([], none)
  | count + 1, conn, incoming =>
    match conn.readPacket zlib incoming with
    | (.error e, _, _) => ([], some e)
    | (.ok packet, conn, incoming) =>
      let (packets, stop) :=
        readAll zlib react count { conn with codec := react packet conn.codec } incoming
      (packet :: packets, stop)

private theorem readAll_of_error {zlib : Zlib} (react : RawPacket → FrameCodec → FrameCodec) (count : ℕ)
    {conn : Connection} {incoming : Incoming} {e : MineRiderError}
    (failed : (conn.readPacket zlib incoming).1 = .error e) :
    readAll zlib react (count + 1) conn incoming = ([], some e) := by
  rw [readAll]
  rcases read : conn.readPacket zlib incoming with ⟨result, left⟩
  rw [read] at failed
  subst failed
  rfl

private theorem readAll_congr {zlib : Zlib} (react : RawPacket → FrameCodec → FrameCodec) (count : ℕ)
    {conn₁ conn₂ : Connection} {incoming₁ incoming₂ : Incoming}
    (same : Connection.SameStream conn₁ incoming₁ conn₂ incoming₂) :
    readAll zlib react count conn₁ incoming₁ = readAll zlib react count conn₂ incoming₂ := by
  induction count generalizing conn₁ conn₂ incoming₁ incoming₂ with
  | zero => rfl
  | succ count ih =>
    rcases same.readPacket zlib with
      ⟨packet, conn₁', incoming₁', conn₂', incoming₂', read₁, read₂, later⟩ | ⟨e, read₁, read₂⟩
    · rw [readAll, readAll, read₁, read₂]
      have rest : Connection.SameStream { conn₁' with codec := react packet conn₁'.codec } incoming₁'
          { conn₂' with codec := react packet conn₂'.codec } incoming₂' :=
        ⟨by simp only [later.codec], later.writeFailed, later.ending, later.pending⟩
      simp only [ih rest]
    · rw [readAll_of_error react count read₁, readAll_of_error react count read₂]

/-- Further bytes never revise what `try_decode` reported, and so the packets read and the failure
that stops the reads depend on the received bytes and not on their chunks. -/
theorem decoding_ignores_chunks (zlib : Zlib) (codec : FrameCodec) (buf suffix : Bytes) :
    (∀ rest, codec.tryDecode zlib buf = (.ok none, rest) → rest = buf) ∧
    (∀ packet rest, codec.tryDecode zlib buf = (.ok (some packet), rest) →
      codec.tryDecode zlib (buf ++ suffix) = (.ok (some packet), rest ++ suffix)) ∧
    (∀ e rest, codec.tryDecode zlib buf = (.error e, rest) →
      (codec.tryDecode zlib (buf ++ suffix)).1 = .error e) ∧
    ∀ (react : RawPacket → FrameCodec → FrameCodec) (count : ℕ) (conn : Connection)
      (first second : Incoming),
      Connection.wireBytes first.chunks = Connection.wireBytes second.chunks →
      first.ending = second.ending →
      readAll zlib react count conn first = readAll zlib react count conn second := by
  refine ⟨?_, ?_, ?_, ?_⟩
  · intro rest pending
    exact tryDecode_none pending
  · intro packet rest decoded
    rw [tryDecode_append (by rw [decoded]; simp), decoded]
  · intro e rest failed
    rw [tryDecode_append (by rw [failed]; simp), failed]
  · intro react count conn first second bytes ending
    apply readAll_congr
    exact ⟨rfl, rfl, ending, by rw [pending, pending, bytes]⟩

/-- A truncated length, a packet and its remainder, an over-long length, and two cuts of one stream. -/
theorem decoding_ignores_chunks_demo :
    FrameCodec.new.tryDecode storedZlib ([2, 0, 7, 128] ++ [1]) = (.ok (some ⟨0, [7]⟩), [128] ++ [1]) ∧
    (FrameCodec.new.tryDecode storedZlib ([255, 255, 255, 255, 255] ++ [1])).1 = .error .varIntTooLong ∧
    readAll storedZlib (fun _ codec => codec) 2 .new
        ⟨[⟨[2], by decide⟩, ⟨[0, 7, 128], by decide⟩], .connectionClosed⟩ =
      readAll storedZlib (fun _ codec => codec) 2 .new
        ⟨[⟨[2, 0, 7], by decide⟩, ⟨[128], by decide⟩], .connectionClosed⟩ := by
  refine ⟨?_, ?_, ?_⟩
  · exact (decoding_ignores_chunks storedZlib .new _ _).2.1 _ _ (by decide +kernel)
  · exact (decoding_ignores_chunks storedZlib .new _ _).2.2.1 _ [255, 255, 255, 255, 255] (by decide +kernel)
  · exact (decoding_ignores_chunks storedZlib .new [] []).2.2.2 _ 2 .new _ _ rfl rfl

end Chunking

end MineRider.Soundness.FrameStream
