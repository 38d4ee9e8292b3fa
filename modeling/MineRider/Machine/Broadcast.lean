import Mathlib.Data.Nat.Notation

/-! # A receiver of a bounded broadcast channel

The channel never makes its sender wait. A receiver that has fallen behind by more than the capacity
loses its oldest values; its next receive reports that and returns no value.
-/

namespace MineRider.Machine

open List

structure Receiver (ε : Type) where
  /-- What was sent and has not been received, oldest first. -/
  buffer : List ε
  lagged : Bool
deriving DecidableEq, Repr

namespace Receiver

variable {ε : Type}

def new : Receiver ε := ⟨[], false⟩

def send (capacity : ℕ) (receiver : Receiver ε) (value : ε) : Receiver ε :=
  if receiver.buffer.length < capacity then { receiver with buffer := receiver.buffer ++ [value] }
  else ⟨receiver.buffer.tail ++ [value], true⟩

def sendAll (capacity : ℕ) (receiver : Receiver ε) (values : List ε) : Receiver ε :=
  values.foldl (send capacity) receiver

def recv (receiver : Receiver ε) : Option ε × Receiver ε :=
  if receiver.lagged then (none, { receiver with lagged := false })
  else
    match receiver.buffer with
    | [] => (none, receiver)
    | value :: rest => (some value, { receiver with buffer := rest })

/-- Nothing is lost while the capacity suffices. -/
theorem sendAll_of_fits {capacity : ℕ} (receiver : Receiver ε) (values : List ε)
    (fits : receiver.buffer.length + values.length ≤ capacity) :
    receiver.sendAll capacity values = { receiver with buffer := receiver.buffer ++ values } := by
  induction values generalizing receiver with
  | nil => simp [sendAll]
  | cons value rest ih =>
    have room : receiver.buffer.length < capacity := by
      rw [length_cons] at fits
      omega
    have sent : receiver.send capacity value = { receiver with buffer := receiver.buffer ++ [value] } := by
      rw [send, if_pos room]
    have left : (receiver.buffer ++ [value]).length + rest.length ≤ capacity := by
      rw [length_append, length_singleton]
      rw [length_cons] at fits
      omega
    rw [sendAll, foldl_cons, sent]
    have next := ih { receiver with buffer := receiver.buffer ++ [value] } left
    rw [sendAll] at next
    rw [next, append_assoc, singleton_append]

end Receiver

end MineRider.Machine
