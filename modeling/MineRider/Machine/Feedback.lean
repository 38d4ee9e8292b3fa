import Mathlib.Data.List.Basic

/-! # Ciphertext-feedback stream ciphers

Each symbol is mixed with a key symbol drawn from a register, and the ciphertext symbol is shifted
into that register. Because both ends shift in the ciphertext, the two registers stay equal after
the same ciphertext, however it was cut into calls. No property of the key function is needed
beyond mixing being its own inverse.
-/

namespace MineRider.Machine

/-- The parts of a feedback cipher: key symbol of a register, mixing, and the register shift. -/
structure FeedbackMode (ρ β : Type) where
  key : ρ → β
  mix : β → β → β
  shift : ρ → β → ρ
  mix_mix : ∀ symbol k, mix (mix symbol k) k = symbol

namespace FeedbackMode

variable {ρ β : Type} (mode : FeedbackMode ρ β)

def encrypt : ρ → List β → List β × ρ
  | register, [] => ([], register)
  | register, plain :: rest =>
    let cipher := mode.mix plain (mode.key register)
    let (out, final) := encrypt (mode.shift register cipher) rest
    (cipher :: out, final)

def decrypt : ρ → List β → List β × ρ
  | register, [] => ([], register)
  | register, cipher :: rest =>
    let plain := mode.mix cipher (mode.key register)
    let (out, final) := decrypt (mode.shift register cipher) rest
    (plain :: out, final)

theorem encrypt_append (register : ρ) (first second : List β) :
    mode.encrypt register (first ++ second) =
      ((mode.encrypt register first).1 ++ (mode.encrypt (mode.encrypt register first).2 second).1,
        (mode.encrypt (mode.encrypt register first).2 second).2) := by
  induction first generalizing register with
  | nil => rfl
  | cons plain rest ih =>
    simp only [List.cons_append, encrypt]
    rw [ih]

theorem decrypt_append (register : ρ) (first second : List β) :
    mode.decrypt register (first ++ second) =
      ((mode.decrypt register first).1 ++ (mode.decrypt (mode.decrypt register first).2 second).1,
        (mode.decrypt (mode.decrypt register first).2 second).2) := by
  induction first generalizing register with
  | nil => rfl
  | cons cipher rest ih =>
    simp only [List.cons_append, decrypt]
    rw [ih]

@[simp] theorem encrypt_length (register : ρ) (plain : List β) :
    (mode.encrypt register plain).1.length = plain.length := by
  induction plain generalizing register with
  | nil => rfl
  | cons symbol rest ih => simp only [encrypt, List.length_cons, ih]

@[simp] theorem decrypt_length (register : ρ) (cipher : List β) :
    (mode.decrypt register cipher).1.length = cipher.length := by
  induction cipher generalizing register with
  | nil => rfl
  | cons symbol rest ih => simp only [decrypt, List.length_cons, ih]

/-- From equal registers, decryption returns the plaintext and the registers are equal again. -/
theorem decrypt_encrypt (register : ρ) (plain : List β) :
    mode.decrypt register (mode.encrypt register plain).1 = (plain, (mode.encrypt register plain).2) := by
  induction plain generalizing register with
  | nil => rfl
  | cons symbol rest ih =>
    simp only [encrypt, decrypt]
    rw [ih, mode.mix_mix]

end FeedbackMode

end MineRider.Machine
