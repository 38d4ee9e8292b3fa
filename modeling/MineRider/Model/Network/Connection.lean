import MineRider.Model.Core.Error
import MineRider.Model.Protocol.FrameCodec
import MineRider.Model.Protocol.StreamCipher

/-! # Packets over a connection

A connection frames and optionally encrypts what it sends, and decrypts what it reads before any
frame is parsed. The socket's incoming side is the list of chunks that successive reads return,
followed by the way in which the next read ends: the peer's close, a timeout or an I/O error.
`pending` is the plaintext that the connection has not decoded yet, in its buffer or
still on the socket; reading a packet is one attempt of the frame decoder at `pending`.
-/

namespace MineRider.Model.Network

open List Model.Core Model.Protocol Machine FrameCodec

/-- What one socket read returned; a read of no bytes is how the peer's close shows. -/
abbrev Chunk := {bytes : Bytes // bytes ≠ []}

/-- What the socket will deliver: chunks, and how the read after the last of them ends. -/
structure Incoming where
  chunks : List Chunk
  ending : MineRiderError

structure Connection where
  readBuf : Bytes
  codec : FrameCodec
  cipher : Option StreamCipher
  writeFailed : Bool

namespace Connection

def new : Connection where
  readBuf := []
  codec := .new
  cipher := none
  writeFailed := false

def setCompression (conn : Connection) (threshold : Int32) : Connection :=
  { conn with codec := .setCompressionThreshold threshold }

/-- A write that timed out leaves the connection unusable in both directions. -/
def checkNotFailed (conn : Connection) : Except MineRiderError Unit :=
  if conn.writeFailed then .error (.timeout "connection unusable after a previous write timeout")
  else .ok ()

def errorPoisonsConnection : MineRiderError → Bool
  | .timeout _ => true
  | _ => false

/-- The frame that goes on the wire, and the cipher after it. -/
def sealFrame (cipher : Option StreamCipher) (frame : Bytes) : Bytes × Option StreamCipher :=
  match cipher with
  | some cipher => ((cipher.encrypt frame).1, some (cipher.encrypt frame).2)
  | none => (frame, none)

/-- Frames, encrypts and writes one packet. `write` is the outcome of the bounded socket write;
the result carries the bytes handed to it. -/
def sendPacket (zlib : Zlib) (write : Bytes → Except MineRiderError Unit) (conn : Connection)
    (packet : RawPacket) : Except MineRiderError Bytes × Connection :=
  match conn.checkNotFailed with
  | .error e => (.error e, conn)
  | .ok () =>
    match conn.codec.encode zlib packet with
    | .error e => (.error (.wire e), conn)
    | .ok frame =>
      let (wire, cipher) := sealFrame conn.cipher frame
      let conn := { conn with cipher := cipher }
      match write wire with
      | .error e => (.error e, { conn with writeFailed := conn.writeFailed || errorPoisonsConnection e })
      | .ok () => (.ok wire, conn)

/-- The plaintext of one chunk, and the cipher after it. -/
def openChunk (cipher : Option StreamCipher) (chunk : Bytes) : Bytes × Option StreamCipher :=
  match cipher with
  | some cipher => ((cipher.decrypt chunk).1, some (cipher.decrypt chunk).2)
  | none => (chunk, none)

/-- The loop of `read_packet`: decode, or append the next decrypted chunk and try again. -/
def readLoop (zlib : Zlib) (ending : MineRiderError) (conn : Connection) :
    List Chunk → Except MineRiderError RawPacket × Connection × List Chunk
  | [] =>
    match conn.codec.tryDecode zlib conn.readBuf with
    | (.error e, buf) => (.error (.wire e), { conn with readBuf := buf }, [])
    | (.ok (some packet), buf) => (.ok packet, { conn with readBuf := buf }, [])
    | (.ok none, buf) => (.error ending, { conn with readBuf := buf }, [])
  | chunk :: later =>
    match conn.codec.tryDecode zlib conn.readBuf with
    | (.error e, buf) => (.error (.wire e), { conn with readBuf := buf }, chunk :: later)
    | (.ok (some packet), buf) => (.ok packet, { conn with readBuf := buf }, chunk :: later)
    | (.ok none, buf) =>
      let (plain, cipher) := openChunk conn.cipher chunk
      readLoop zlib ending { conn with readBuf := buf ++ plain, cipher := cipher } later

/-- Reads and returns the next packet. -/
def readPacket (zlib : Zlib) (conn : Connection) (incoming : Incoming) :
    Except MineRiderError RawPacket × Connection × Incoming :=
  match conn.checkNotFailed with
  | .error e => (.error e, conn, incoming)
  | .ok () =>
    let (result, conn, chunks) := readLoop zlib incoming.ending conn incoming.chunks
    (result, conn, { incoming with chunks := chunks })

section Wire

/-- An encodable packet over a working socket goes out as its sealed frame. -/
theorem sendPacket_ok {zlib : Zlib} {conn : Connection} (usable : conn.writeFailed = false)
    {packet : RawPacket} {frame : Bytes} (encoded : conn.codec.encode zlib packet = .ok frame) :
    conn.sendPacket zlib (fun _ => .ok ()) packet =
      (.ok (sealFrame conn.cipher frame).1, { conn with cipher := (sealFrame conn.cipher frame).2 }) := by
  rw [sendPacket, checkNotFailed, if_neg (by simp [usable])]
  simp only [encoded]

theorem sealFrame_append (cipher : Option StreamCipher) (first second : Bytes) :
    (sealFrame cipher (first ++ second)).1 =
      (sealFrame cipher first).1 ++ (sealFrame (sealFrame cipher first).2 second).1 := by
  cases cipher with
  | none => rfl
  | some cipher => simp only [sealFrame, cipher.encrypt_append]

/-- Both directions in the clear, or two ciphers in step. -/
def InStep : Option StreamCipher → Option StreamCipher → Prop
  | none, none => True
  | some sender, some receiver => StreamCipher.InStep sender receiver
  | _, _ => False

theorem InStep.openChunk_sealFrame {sender receiver : Option StreamCipher} (inStep : InStep sender receiver)
    (data : Bytes) : (openChunk receiver (sealFrame sender data).1).1 = data := by
  cases sender with
  | none =>
    cases receiver with
    | none => rfl
    | some receiver => exact inStep.elim
  | some sender =>
    cases receiver with
    | none => exact inStep.elim
    | some receiver => exact (StreamCipher.InStep.decrypt_encrypt inStep data).1

end Wire

section Plaintext

/-- The chunks as they enter the read buffer. -/
def plainChunks : Option StreamCipher → List Chunk → List Bytes
  | _, [] => []
  | cipher, chunk :: later => (openChunk cipher chunk).1 :: plainChunks (openChunk cipher chunk).2 later

/-- The bytes on the socket, before decryption. -/
def wireBytes (chunks : List Chunk) : Bytes := (chunks.map Subtype.val).flatten

@[simp] theorem wireBytes_cons (chunk : Chunk) (later : List Chunk) :
    wireBytes (chunk :: later) = chunk.val ++ wireBytes later := rfl

@[simp] theorem openChunk_length (cipher : Option StreamCipher) (bytes : Bytes) :
    (openChunk cipher bytes).1.length = bytes.length := by
  cases cipher with
  | none => rfl
  | some cipher => exact cipher.decrypt_length bytes

theorem openChunk_append (cipher : Option StreamCipher) (first second : Bytes) :
    (openChunk cipher (first ++ second)).1 =
      (openChunk cipher first).1 ++ (openChunk (openChunk cipher first).2 second).1 := by
  cases cipher with
  | none => rfl
  | some cipher => simp only [openChunk, cipher.decrypt_append]

@[simp] theorem openChunk_nil (cipher : Option StreamCipher) : (openChunk cipher []).1 = [] :=
  length_eq_zero_iff.mp (openChunk_length cipher [])

/-- Decryption does not see where the stream was cut. -/
theorem plainChunks_flatten (cipher : Option StreamCipher) (chunks : List Chunk) :
    (plainChunks cipher chunks).flatten = (openChunk cipher (wireBytes chunks)).1 := by
  induction chunks generalizing cipher with
  | nil => exact (openChunk_nil cipher).symm
  | cons chunk later ih =>
    rw [plainChunks, flatten_cons, ih, wireBytes_cons, openChunk_append]

/-- The plaintext that has not been decoded yet, in the buffer or on the socket. -/
def pending (conn : Connection) (incoming : Incoming) : Bytes :=
  conn.readBuf ++ (openChunk conn.cipher (wireBytes incoming.chunks)).1

theorem wireBytes_eq_nil {chunks : List Chunk} (empty : wireBytes chunks = []) : chunks = [] := by
  cases chunks with
  | nil => rfl
  | cons chunk later =>
    rw [wireBytes_cons, append_eq_nil_iff] at empty
    exact absurd empty.1 chunk.property

/-- When nothing is pending, the buffer is empty and every chunk has been read. -/
theorem pending_eq_nil {conn : Connection} {incoming : Incoming} (empty : pending conn incoming = []) :
    conn.readBuf = [] ∧ incoming.chunks = [] := by
  obtain ⟨buffer, plain⟩ := append_eq_nil_iff.mp empty
  have length := openChunk_length conn.cipher (wireBytes incoming.chunks)
  rw [plain] at length
  exact ⟨buffer, wireBytes_eq_nil (length_eq_zero_iff.mp length.symm)⟩

end Plaintext

section Read

variable (zlib : Zlib)

/-- What the loop must produce, judged from pulling on the decrypted chunks. -/
def Follows (ending : MineRiderError) (conn : Connection)
    (result : Except MineRiderError RawPacket × Connection × List Chunk) :
    Except (Option ProtocolError) (RawPacket × Bytes × List Bytes) → Prop
  | .ok (packet, buf, left) => ∃ cipher chunks,
      result = (.ok packet, { conn with readBuf := buf, cipher := cipher }, chunks) ∧
        plainChunks cipher chunks = left
  | .error (some e) => result.1 = .error (.wire e)
  | .error none => result.1 = .error ending

/-- The read loop is the decoder pulling on the decrypted chunks. -/
theorem readLoop_follows (ending : MineRiderError) (conn : Connection) (chunks : List Chunk) :
    Follows ending conn (readLoop zlib ending conn chunks)
      ((conn.codec.decoder zlib).pull conn.readBuf (plainChunks conn.cipher chunks)) := by
  induction chunks generalizing conn with
  | nil =>
    rw [plainChunks, readLoop, StreamDecoder.pull]
    simp only [decoder]
    rcases conn.codec.tryDecode zlib conn.readBuf with ⟨e | _ | packet, buf⟩
    · rfl
    · rfl
    · exact ⟨conn.cipher, [], rfl, rfl⟩
  | cons chunk later ih =>
    rw [plainChunks, readLoop, StreamDecoder.pull]
    simp only [decoder]
    rcases tried : conn.codec.tryDecode zlib conn.readBuf with ⟨e | _ | packet, buf⟩
    · rfl
    · -- nothing was consumed, so the next chunk extends the buffer both sides hold
      have same : buf = conn.readBuf := tryDecode_none tried
      subst same
      exact ih { conn with readBuf := conn.readBuf ++ (openChunk conn.cipher chunk).1
                           cipher := (openChunk conn.cipher chunk).2 }
    · exact ⟨conn.cipher, chunk :: later, rfl, rfl⟩

/-- One successful attempt at the pending plaintext is one read packet. -/
theorem readPacket_item {conn : Connection} {incoming : Incoming} (usable : conn.writeFailed = false)
    {packet : RawPacket} {rest : Bytes}
    (whole : (conn.codec.decoder zlib).attempt (pending conn incoming) = .item packet rest) :
    ∃ conn' incoming', readPacket zlib conn incoming = (.ok packet, conn', incoming') ∧
      pending conn' incoming' = rest ∧ conn'.codec = conn.codec ∧ conn'.writeFailed = false := by
  rw [pending, ← plainChunks_flatten] at whole
  obtain ⟨buf, left, pulled, remaining, _⟩ := StreamDecoder.pull_item _ whole
  have follows := readLoop_follows zlib incoming.ending conn incoming.chunks
  rw [pulled] at follows
  obtain ⟨cipher, chunks, read, plain⟩ := follows
  refine ⟨{ conn with readBuf := buf, cipher := cipher }, { incoming with chunks := chunks }, ?_, ?_, rfl, usable⟩
  · simp only [readPacket, checkNotFailed, usable, Bool.false_eq_true, ↓reduceIte, read]
  · rw [pending, ← plainChunks_flatten, plain, remaining]

/-- Two connections that will see the same plaintext, whatever the cut of their sockets. -/
structure SameStream (conn₁ : Connection) (incoming₁ : Incoming) (conn₂ : Connection)
    (incoming₂ : Incoming) : Prop where
  codec : conn₁.codec = conn₂.codec
  writeFailed : conn₁.writeFailed = conn₂.writeFailed
  ending : incoming₁.ending = incoming₂.ending
  pending : pending conn₁ incoming₁ = pending conn₂ incoming₂

/-- They read the same packet and still see the same plaintext, or report the same error. -/
theorem SameStream.readPacket {conn₁ conn₂ : Connection} {incoming₁ incoming₂ : Incoming}
    (same : SameStream conn₁ incoming₁ conn₂ incoming₂) :
    (∃ packet conn₁' incoming₁' conn₂' incoming₂',
      readPacket zlib conn₁ incoming₁ = (.ok packet, conn₁', incoming₁') ∧
      readPacket zlib conn₂ incoming₂ = (.ok packet, conn₂', incoming₂') ∧
      SameStream conn₁' incoming₁' conn₂' incoming₂') ∨
    ∃ e, (readPacket zlib conn₁ incoming₁).1 = .error e ∧ (readPacket zlib conn₂ incoming₂).1 = .error e := by
  obtain ⟨codec, writeFailed, ending, pending⟩ := same
  cases usable : conn₂.writeFailed with
  | true =>
    rw [usable] at writeFailed
    exact .inr ⟨_, by rw [Connection.readPacket, checkNotFailed, if_pos writeFailed],
      by rw [Connection.readPacket, checkNotFailed, if_pos usable]⟩
  | false =>
    rw [usable] at writeFailed
    have first := readLoop_follows zlib incoming₁.ending conn₁ incoming₁.chunks
    have second := readLoop_follows zlib incoming₂.ending conn₂ incoming₂.chunks
    simp only [Connection.readPacket, checkNotFailed, writeFailed, usable, Bool.false_eq_true, ↓reduceIte]
    rw [Connection.pending, Connection.pending, ← plainChunks_flatten, ← plainChunks_flatten] at pending
    rw [codec] at first
    obtain ⟨packet, ⟨buf₁, left₁⟩, ⟨buf₂, left₂⟩, pulled₁, pulled₂, remaining⟩ | ⟨e, pulled₁, pulled₂⟩ :=
      (conn₂.codec.decoder zlib).pull_congr pending
    · rw [pulled₁] at first
      rw [pulled₂] at second
      obtain ⟨cipher₁, chunks₁, read₁, rfl⟩ := first
      obtain ⟨cipher₂, chunks₂, read₂, rfl⟩ := second
      rw [read₁, read₂]
      refine .inl ⟨packet, _, _, _, _, rfl, rfl, codec, writeFailed.trans usable.symm, ending, ?_⟩
      simpa only [Connection.pending, ← plainChunks_flatten] using remaining
    · rw [pulled₁] at first
      rw [pulled₂] at second
      cases e with
      | none => exact .inr ⟨incoming₂.ending, ending ▸ first, second⟩
      | some e => exact .inr ⟨.wire e, first, second⟩

end Read

end Connection

end MineRider.Model.Network
