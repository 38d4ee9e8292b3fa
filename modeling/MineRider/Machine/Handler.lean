import Mathlib.Order.Defs.Unbundled

/-! # Handlers that change a state and may fail

A handler returns a result or an error, and in both cases a state: what it has changed before it failed stays
changed. A handler stays `Within` a relation if every run of it, successful or not, relates the state before to the
state after. For a preorder this is closed under sequencing, so that a handler need only be looked into for what it
changes. Two preorders serve most purposes: to agree on a view of the state, and to keep an invariant.
-/

namespace MineRider.Machine

def Handler (σ ε α : Type) : Type := σ → Except ε α × σ

namespace Handler

variable {σ ε α γ : Type}

def pure (a : α) : Handler σ ε α := fun s => (.ok a, s)

def bind (m : Handler σ ε α) (f : α → Handler σ ε γ) : Handler σ ε γ := fun s =>
  match m s with
  | (.ok a, s) => f a s
  | (.error error, s) => (.error error, s)

instance : Monad (Handler σ ε) where
  pure := pure
  bind := bind

def get : Handler σ ε σ := fun s => (.ok s, s)

def modify (f : σ → σ) : Handler σ ε Unit := fun s => (.ok (), f s)

def fail (error : ε) : Handler σ ε α := fun s => (.error error, s)

/-- Runs a handler and returns what it would have failed with. -/
def attempt {δ : Type} (m : Handler σ ε α) : Handler σ δ (Except ε α) := fun s => (.ok (m s).1, (m s).2)

/-- Runs a handler if a condition holds. -/
def guarded (condition : Bool) (m : Handler σ ε Unit) : Handler σ ε Unit := if condition then m else pure ()

/-- Runs a handler on each element, up to the first failure. -/
def forEach {β : Type} : List β → (β → Handler σ ε Unit) → Handler σ ε Unit
  | [], _ => pure ()
  | b :: bs, f => bind (f b) fun _ => forEach bs f

section Running

variable {m : Handler σ ε α} {f : α → Handler σ ε γ} {s next : σ}

theorem bind_ok {a : α} (first : m s = (.ok a, next)) : (m >>= f) s = f a next := by
  change bind m f s = _
  rw [bind, first]

theorem bind_error {error : ε} (first : m s = (.error error, next)) : (m >>= f) s = (.error error, next) := by
  change bind m f s = _
  rw [bind, first]

/-- A sequence that succeeds has two successful parts. -/
theorem bind_eq_ok {c : γ} (success : (m >>= f) s = (.ok c, next)) :
    ∃ a middle, m s = (.ok a, middle) ∧ f a middle = (.ok c, next) := by
  change bind m f s = _ at success
  rw [bind] at success
  split at success
  · rename_i a middle first
    exact ⟨a, middle, first, success⟩
  · cases success

@[simp] theorem get_bind (f : σ → Handler σ ε γ) (s : σ) : (get >>= f) s = f s s := rfl

@[simp] theorem modify_bind (g : σ → σ) (f : Unit → Handler σ ε γ) (s : σ) : (modify g >>= f) s = f () (g s) := rfl

end Running

section Relating

variable {R : σ → σ → Prop}

/-- Every run relates the state before to the state after. -/
def Within (R : σ → σ → Prop) (m : Handler σ ε α) : Prop := ∀ s, R s (m s).2

variable {m : Handler σ ε α} {f : α → Handler σ ε γ}

theorem Within.modify {g : σ → σ} (related : ∀ s, R s (g s)) : Within R (modify g : Handler σ ε Unit) := related

theorem Within.ite {condition : Prop} [Decidable condition] {other : Handler σ ε α} (yes : Within R m)
    (no : Within R other) : Within R (if condition then m else other) := by
  split
  · exact yes
  · exact no

/-- What follows a look at the state need only be related for the state that it sees. -/
theorem Within.get_bind {f : σ → Handler σ ε γ} (each : ∀ s, R s (f s s).2) : Within R (get >>= f) := each

/-- Every result has the property. -/
def Returns (P : α → Prop) (m : Handler σ ε α) : Prop := ∀ s a next, m s = (.ok a, next) → P a

theorem Within.attempt {δ : Type} (within : Within R m) : Within R (m.attempt : Handler σ δ (Except ε α)) := within

variable [IsPreorder σ R]

theorem Within.pure (a : α) : Within R (Pure.pure a : Handler σ ε α) := fun s => refl s

theorem Within.fail (error : ε) : Within R (fail error : Handler σ ε α) := fun s => refl s

theorem Within.get : Within R (get : Handler σ ε σ) := fun s => refl s

theorem Within.bind_returns {P : α → Prop} (first : Within R m) (returns : Returns P m)
    (second : ∀ a, P a → Within R (f a)) : Within R (m >>= f) := by
  intro s
  cases ran : m s with
  | mk result next =>
    have related : R s next := by
      have start := first s
      rwa [ran] at start
    cases result with
    | ok a =>
      rw [bind_ok ran]
      exact IsTrans.trans _ _ _ related (second a (returns s a next ran) next)
    | error error =>
      rw [bind_error ran]
      exact related

theorem Within.bind (first : Within R m) (second : ∀ a, Within R (f a)) : Within R (m >>= f) :=
  first.bind_returns (fun _ _ _ _ => trivial) fun a _ => second a

theorem Within.guarded {condition : Bool} {m : Handler σ ε Unit} (within : condition = true → Within R m) :
    Within R (guarded condition m) := by
  cases condition with
  | false => exact Within.pure ()
  | true => exact within rfl

theorem Within.forEach {β : Type} {bs : List β} {f : β → Handler σ ε Unit} (each : ∀ b ∈ bs, Within R (f b)) :
    Within R (forEach bs f) := by
  induction bs with
  | nil => exact Within.pure ()
  | cons b bs ih =>
    refine Within.bind (each b (List.mem_cons_self ..)) fun _ => ?_
    exact ih fun other member => each other (List.mem_cons_of_mem b member)

end Relating

section Preorders

variable {β : Type}

/-- Two states look the same. -/
def Agree (view : σ → β) (s next : σ) : Prop := view next = view s

instance (view : σ → β) : IsPreorder σ (Agree view) where
  refl _ := rfl
  trans _ _ _ first second := second.trans first

/-- What is true before is true after. -/
def Keep (inv : σ → Prop) (s next : σ) : Prop := inv s → inv next

instance (inv : σ → Prop) : IsPreorder σ (Keep inv) where
  refl _ := id
  trans _ _ _ first second := second ∘ first

/-- No run changes the view. -/
abbrev Leaves (view : σ → β) (m : Handler σ ε α) : Prop := Within (Agree view) m

/-- A view that is computed from a view. -/
theorem Leaves.map {view : σ → β} {m : Handler σ ε α} {δ : Type} (project : β → δ) (left : Leaves view m) :
    Leaves (fun s => project (view s)) m :=
  fun s => congrArg project (left s)

end Preorders

end Handler

end MineRider.Machine
