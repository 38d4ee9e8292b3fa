/-! # Guarded runs of a deterministic machine

A run is the list of inputs that a machine takes, one after the other. `Along` says that every input
was allowed in the state that took it.
-/

namespace MineRider.Machine

variable {σ ι : Type}

/-- Every input of the run is allowed in the state that it meets. -/
def Along (step : σ → ι → σ) (allowed : σ → ι → Prop) : σ → List ι → Prop
  | _, [] => True
  | s, input :: rest => allowed s input ∧ Along step allowed (step s input) rest

instance Along.decide (step : σ → ι → σ) (allowed : σ → ι → Prop) [∀ s input, Decidable (allowed s input)] :
    ∀ s inputs, Decidable (Along step allowed s inputs)
  | _, [] => .isTrue trivial
  | s, input :: rest =>
    have := Along.decide step allowed (step s input) rest
    inferInstanceAs (Decidable (allowed s input ∧ Along step allowed (step s input) rest))

theorem along_append {step : σ → ι → σ} {allowed : σ → ι → Prop} {s : σ} {first second : List ι} :
    Along step allowed s (first ++ second) ↔
      Along step allowed s first ∧ Along step allowed (first.foldl step s) second := by
  induction first generalizing s with
  | nil => simp [Along]
  | cons input rest ih =>
    rw [List.cons_append, Along, Along, ih, List.foldl_cons, and_assoc]

theorem along_concat {step : σ → ι → σ} {allowed : σ → ι → Prop} {s : σ} {inputs : List ι} {input : ι} :
    Along step allowed s (inputs ++ [input]) ↔ Along step allowed s inputs ∧ allowed (inputs.foldl step s) input := by
  rw [along_append, Along, Along, and_true]

/-- What every allowed step keeps holds at the end of every allowed run. -/
theorem Along.invariant {step : σ → ι → σ} {allowed : σ → ι → Prop} {inv : σ → Prop}
    (kept : ∀ s input, inv s → allowed s input → inv (step s input)) {s : σ} {inputs : List ι}
    (along : Along step allowed s inputs) (initially : inv s) : inv (inputs.foldl step s) := by
  induction inputs generalizing s with
  | nil => exact initially
  | cons input rest ih => exact ih along.2 (kept s input initially along.1)

end MineRider.Machine
