import MineRider.Machine.Feedback
import MineRider.Model.Protocol.Buffer

/-! # The connection's CFB8 stream cipher

One `StreamCipher` serves both directions of a connection with one keyed block function and a
separate 16-byte shift register for each direction. The block function is a parameter: the mode
only ever encrypts blocks, and nothing below depends on which function that is.
-/

namespace MineRider.Model.Protocol

open Machine

abbrev Block := Vector UInt8 16

structure StreamCipher where
  aes : Block → Block
  encIv : Block
  decIv : Block

namespace StreamCipher

/-- Key and both initial registers are the shared secret. -/
def new (blockCipher : Block → Block → Block) (sharedSecret : Block) : StreamCipher where
  aes := blockCipher sharedSecret
  encIv := sharedSecret
  decIv := sharedSecret

/-- `iv.copy_within(1.., 0)` followed by `iv[15] = c`. -/
def shiftIn (iv : Block) (c : UInt8) : Block :=
  Vector.ofFn fun i => if inside : i.val + 1 < 16 then iv[i.val + 1] else c

/-- One byte of either loop: the key byte is the first byte of the encrypted register, and the
ciphertext byte enters the register. -/
def cfb8 (aes : Block → Block) : FeedbackMode Block UInt8 where
  key iv := (aes iv)[0]
  mix byte k := byte ^^^ k
  shift := shiftIn
  mix_mix byte k := by rw [UInt8.xor_assoc, UInt8.xor_self, UInt8.xor_zero]

/-- Encrypts `data` in place, advancing the encryption register only. -/
def encrypt (cipher : StreamCipher) (data : Bytes) : Bytes × StreamCipher :=
  let (out, iv) := (cfb8 cipher.aes).encrypt cipher.encIv data
  (out, { cipher with encIv := iv })

/-- Decrypts `data` in place, advancing the decryption register only. -/
def decrypt (cipher : StreamCipher) (data : Bytes) : Bytes × StreamCipher :=
  let (out, iv) := (cfb8 cipher.aes).decrypt cipher.decIv data
  (out, { cipher with decIv := iv })

/-- The output of `decrypt` does not depend on the encryption register. -/
@[simp] theorem encrypt_decrypt_fst (cipher : StreamCipher) (plain data : Bytes) :
    ((cipher.encrypt plain).2.decrypt data).1 = (cipher.decrypt data).1 := rfl

theorem decrypt_append (cipher : StreamCipher) (first second : Bytes) :
    cipher.decrypt (first ++ second) =
      ((cipher.decrypt first).1 ++ ((cipher.decrypt first).2.decrypt second).1,
        ((cipher.decrypt first).2.decrypt second).2) := by
  simp only [decrypt, FeedbackMode.decrypt_append]

theorem encrypt_append (cipher : StreamCipher) (first second : Bytes) :
    cipher.encrypt (first ++ second) =
      ((cipher.encrypt first).1 ++ ((cipher.encrypt first).2.encrypt second).1,
        ((cipher.encrypt first).2.encrypt second).2) := by
  simp only [encrypt, FeedbackMode.encrypt_append]

@[simp] theorem decrypt_length (cipher : StreamCipher) (data : Bytes) :
    (cipher.decrypt data).1.length = data.length := (cfb8 cipher.aes).decrypt_length _ _

@[simp] theorem encrypt_length (cipher : StreamCipher) (data : Bytes) :
    (cipher.encrypt data).1.length = data.length := (cfb8 cipher.aes).encrypt_length _ _

/-- `sender` and `receiver` are in step when what one will encrypt next the other can decrypt. -/
structure InStep (sender receiver : StreamCipher) : Prop where
  aes : receiver.aes = sender.aes
  register : receiver.decIv = sender.encIv

theorem InStep.new (blockCipher : Block → Block → Block) (sharedSecret : Block) :
    InStep (new blockCipher sharedSecret) (new blockCipher sharedSecret) := ⟨rfl, rfl⟩

variable {sender receiver : StreamCipher}

/-- Ciphers in step transport one message, and are in step afterwards. -/
theorem InStep.decrypt_encrypt (inStep : InStep sender receiver)
    (data : Bytes) : (receiver.decrypt (sender.encrypt data).1).1 = data ∧
      InStep (sender.encrypt data).2 (receiver.decrypt (sender.encrypt data).1).2 := by
  have transport := (cfb8 sender.aes).decrypt_encrypt sender.encIv data
  rw [← inStep.register] at transport
  constructor
  · simp only [decrypt, encrypt, inStep.aes]
    rw [← inStep.register, transport]
  · refine ⟨inStep.aes, ?_⟩
    simp only [decrypt, encrypt, inStep.aes]
    rw [← inStep.register, transport]

/-- Sending by the receiver does not disturb what it is about to decrypt. -/
theorem InStep.encrypt_receiver {data : Bytes} (inStep : InStep sender (receiver.decrypt data).2) (plain : Bytes) :
    InStep sender ((receiver.encrypt plain).2.decrypt data).2 := ⟨inStep.aes, inStep.register⟩

/-- Decrypting by the sender does not disturb what it sends next. -/
theorem InStep.decrypt_sender (inStep : InStep sender receiver)
    (data : Bytes) : InStep (sender.decrypt data).2 receiver := ⟨inStep.aes, inStep.register⟩

end StreamCipher

end MineRider.Model.Protocol
