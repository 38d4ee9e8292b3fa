import Mathlib.Logic.Function.Basic
import MineRider.Model.Protocol.StreamCipher

/-! # Two peers over one encrypted link

Client and server each own one `StreamCipher` built from the shared secret. Either may encrypt a
piece of plaintext at any time and put the ciphertext on its wire; either may at any time decrypt
any number of bytes that wait on the wire of the other. The calls of the two directions interleave
freely on the same two objects. The logs record the plaintext handed to `encrypt` and the output
of the peer's `decrypt`.
-/

namespace MineRider.Soundness.CipherLink

open List Model.Protocol StreamCipher
open Function (update update_of_ne update_self)

inductive Peer where
  | client
  | server
deriving DecidableEq, Repr

def Peer.other : Peer → Peer
  | .client => .server
  | .server => .client

theorem Peer.other_ne (peer : Peer) : peer.other ≠ peer := by cases peer <;> decide

@[simp] theorem Peer.other_other (peer : Peer) : peer.other.other = peer := by cases peer <;> rfl

/-- The wire and the two logs of a peer belong to the traffic that this peer sends. -/
structure Link where
  cipher : Peer → StreamCipher
  wire : Peer → Bytes
  sent : Peer → Bytes
  received : Peer → Bytes

inductive Call where
  /-- `peer` encrypts `plain` and sends the result. -/
  | encrypt (peer : Peer) (plain : Bytes)
  /-- `peer` decrypts at most `count` bytes of what the other one has sent. -/
  | decrypt (peer : Peer) (count : ℕ)
deriving DecidableEq, Repr

def Link.start (blockCipher : Block → Block → Block) (secret : Block) : Link where
  cipher _ := .new blockCipher secret
  wire _ := []
  sent _ := []
  received _ := []

def Link.step (link : Link) : Call → Link
  | .encrypt peer plain =>
    let (frame, cipher) := (link.cipher peer).encrypt plain
    { link with
      cipher := update link.cipher peer cipher
      wire := update link.wire peer (link.wire peer ++ frame)
      sent := update link.sent peer (link.sent peer ++ plain) }
  | .decrypt peer count =>
    let source := peer.other
    let (plain, cipher) := (link.cipher peer).decrypt ((link.wire source).take count)
    { link with
      cipher := update link.cipher peer cipher
      wire := update link.wire source ((link.wire source).drop count)
      received := update link.received source (link.received source ++ plain) }

def Link.run (link : Link) (calls : List Call) : Link := calls.foldl Link.step link

/-- The receiver, after decrypting what is still on the wire, will be in step with the sender, and
will then have obtained exactly what was sent. -/
structure Delivers (link : Link) (peer : Peer) : Prop where
  inStep : StreamCipher.InStep (link.cipher peer)
    ((link.cipher peer.other).decrypt (link.wire peer)).2
  content : link.received peer ++ ((link.cipher peer.other).decrypt (link.wire peer)).1 = link.sent peer
  length : (link.received peer).length + (link.wire peer).length = (link.sent peer).length

theorem Delivers.start (blockCipher : Block → Block → Block) (secret : Block) (peer : Peer) :
    Delivers (Link.start blockCipher secret) peer where
  inStep := .new blockCipher secret
  content := rfl
  length := rfl

section Step

variable {link : Link} {peer : Peer}

section

variable (delivers : Delivers link peer)

include delivers

/-- The sender's own encryption extends the wire by bytes that decrypt to the new plaintext. -/
theorem Delivers.encrypt (plain : Bytes) :
    Delivers (link.step (.encrypt peer plain)) peer := by
  have other : peer.other ≠ peer := peer.other_ne
  obtain ⟨output, inStep⟩ := delivers.inStep.decrypt_encrypt plain
  have content := delivers.content
  have length := delivers.length
  constructor
  · simpa only [Link.step, update_self, update_of_ne other, decrypt_append] using inStep
  · simp only [Link.step, update_self, update_of_ne other, decrypt_append, output]
    rw [← append_assoc, content]
  · simp only [Link.step, update_self, length_append, encrypt_length]
    omega

/-- Decrypting a part of the wire moves its plaintext to the log. -/
theorem Delivers.decrypt (count : ℕ) :
    Delivers (link.step (.decrypt peer.other count)) peer := by
  have other : peer ≠ peer.other := peer.other_ne.symm
  have cut := decrypt_append (link.cipher peer.other)
    ((link.wire peer).take count) ((link.wire peer).drop count)
  rw [take_append_drop] at cut
  have inStep := delivers.inStep
  have content := delivers.content
  have length := delivers.length
  rw [cut] at inStep content
  constructor
  · simpa only [Link.step, Peer.other_other, update_self, update_of_ne other]
      using inStep
  · simpa only [Link.step, Peer.other_other, update_self, append_assoc] using content
  · simp only [Link.step, Peer.other_other, update_self, length_append, decrypt_length, length_take, length_drop]
    omega

/-- Encryption by the receiving peer only moves that peer's other register. -/
theorem Delivers.encrypt_other (plain : Bytes) :
    Delivers (link.step (.encrypt peer.other plain)) peer := by
  have other : peer ≠ peer.other := peer.other_ne.symm
  have inStep := delivers.inStep.encrypt_receiver plain
  constructor
  · simpa only [Link.step, update_self, update_of_ne other] using inStep
  · simpa only [Link.step, update_self, update_of_ne other, encrypt_decrypt_fst] using delivers.content
  · simpa only [Link.step, update_of_ne other] using delivers.length

/-- Decryption by the sending peer only moves that peer's other register. -/
theorem Delivers.decrypt_other (count : ℕ) :
    Delivers (link.step (.decrypt peer count)) peer := by
  have other : peer.other ≠ peer := peer.other_ne
  have inStep := delivers.inStep.decrypt_sender ((link.wire peer.other).take count)
  constructor
  · simpa only [Link.step, update_self, update_of_ne other, update_of_ne other.symm] using inStep
  · simpa only [Link.step, update_of_ne other, update_of_ne other.symm]
      using delivers.content
  · simpa only [Link.step, update_of_ne other.symm] using delivers.length

end

theorem Peer.eq_other_of_ne {caller peer : Peer} (ne : caller ≠ peer) : caller = peer.other := by
  cases caller <;> cases peer <;> first | rfl | contradiction

theorem Delivers.step (delivers : Delivers link peer) (call : Call) : Delivers (link.step call) peer := by
  rcases call with ⟨caller, plain⟩ | ⟨caller, count⟩
  · by_cases own : caller = peer
    · exact own ▸ (own ▸ delivers).encrypt plain
    · exact Peer.eq_other_of_ne own ▸ delivers.encrypt_other plain
  · by_cases own : caller = peer
    · exact own ▸ (own ▸ delivers).decrypt_other count
    · exact Peer.eq_other_of_ne own ▸ delivers.decrypt count

end Step

theorem Delivers.run {link : Link} {peer : Peer} (delivers : Delivers link peer) (calls : List Call) :
    Delivers (link.run calls) peer := by
  apply List.foldlRecOn (motive := fun link => Delivers link peer) calls Link.step delivers
  intro link before call _
  exact before.step call

/-- In both directions, under any calls in any order, the peer has decrypted exactly the plaintext
sent so far up to the bytes still on the wire, and those decrypt to exactly what is missing. -/
theorem peer_decrypts_plaintext (blockCipher : Block → Block → Block) (secret : Block)
    (calls : List Call) (peer : Peer) :
    let link := (Link.start blockCipher secret).run calls
    link.received peer ++ ((link.cipher peer.other).decrypt (link.wire peer)).1 = link.sent peer ∧
      (link.received peer).length + (link.wire peer).length = (link.sent peer).length := by
  have delivers := (Delivers.start blockCipher secret peer).run calls
  exact ⟨delivers.content, delivers.length⟩

end MineRider.Soundness.CipherLink
