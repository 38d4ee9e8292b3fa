import Mathlib.Data.Nat.Notation
import Mathlib.Logic.Function.Basic
import Mathlib.Order.Defs.Unbundled

/-! # Programs over dynamically checked cells

A program works on a state whose parts sit in cells. A cell hands out any number of shared guards or
one exclusive guard; asking for a guard while a conflicting one is alive is an error that names the
cell. Guards live for a lexical scope, so the guards that are alive are an environment of the program
and not part of its state.

`Spec` is total: from the precondition the program finishes without a conflict, and the postcondition
holds. `Within` is partial: every run that finishes relates the state before to the state after, whatever
guards are alive. `Runs` is both: its rules follow the constructs of the language, and a program finishes
if it is safe. What a program does is then proved once, whether it is known to be safe or not.
-/

namespace MineRider.Machine

/-- What is alive on one cell. -/
inductive Guard where
  | free
  | reading
  | writing
deriving DecidableEq, Repr

/-- A program over cells `ι` and state `σ`; it fails with the cell of a conflicting request. -/
def Borrow (ι σ α : Type) : Type := (ι → Guard) → σ → Except ι (α × σ)

namespace Borrow

variable {ι σ α β : Type}

instance : Monad (Borrow ι σ) where
  pure a := fun _ s => .ok (a, s)
  bind m f := fun held s =>
    match m held s with
    | .error c => .error c
    | .ok (a, s) => f a held s

def get : Borrow ι σ σ := fun _ s => .ok (s, s)

def modify (f : σ → σ) : Borrow ι σ Unit := fun _ s => .ok ((), f s)

section Guards

variable [DecidableEq ι]

/-- The scope of a shared guard. -/
def withRef (c : ι) (body : Borrow ι σ α) : Borrow ι σ α := fun held s =>
  if held c = .writing then .error c else body (Function.update held c .reading) s

/-- The scope of an exclusive guard. -/
def withMut (c : ι) (body : Borrow ι σ α) : Borrow ι σ α := fun held s =>
  if held c = .free then body (Function.update held c .writing) s else .error c

end Guards

def forEach (body : β → Borrow ι σ Unit) : List β → Borrow ι σ Unit
  | [] => pure ()
  | x :: rest => do
    body x
    forEach body rest

theorem bind_of_ok {held : ι → Guard} {s s' : σ} {m : Borrow ι σ β} {b : β} (f : β → Borrow ι σ α)
    (ran : m held s = .ok (b, s')) : (m >>= f) held s = f b held s' := by
  simp only [Bind.bind, ran]

/-- Under the guards `held`, `program` finishes and takes `pre` to `post`. -/
def Spec (held : ι → Guard) (pre : σ → Prop) (program : Borrow ι σ α) (post : α → σ → Prop) : Prop :=
  ∀ s, pre s → ∃ a s', program held s = .ok (a, s') ∧ post a s'

namespace Spec

variable {held : ι → Guard} {pre : σ → Prop} {post : α → σ → Prop}

theorem pure {a : α} (now : ∀ s, pre s → post a s) : Spec held pre (Pure.pure a) post :=
  fun s before => ⟨a, s, rfl, now s before⟩

theorem bind {m : Borrow ι σ β} {f : β → Borrow ι σ α} {mid : β → σ → Prop} (first : Spec held pre m mid)
    (next : ∀ b, Spec held (mid b) (f b) post) : Spec held pre (m >>= f) post := by
  intro s before
  obtain ⟨b, s₁, ran, between⟩ := first s before
  obtain ⟨a, s₂, ran', after⟩ := next b s₁ between
  exact ⟨a, s₂, (bind_of_ok f ran).trans ran', after⟩

theorem weaken {pre' : σ → Prop} {post' : α → σ → Prop} {m : Borrow ι σ α} (spec : Spec held pre' m post')
    (before : ∀ s, pre s → pre' s) (after : ∀ a s, post' a s → post a s) : Spec held pre m post := by
  intro s holds
  obtain ⟨a, s', ran, done⟩ := spec s (before s holds)
  exact ⟨a, s', ran, after a s' done⟩

theorem get {f : σ → Borrow ι σ α} (next : ∀ now, Spec held (fun s => pre s ∧ s = now) (f now) post) :
    Spec held pre (Borrow.get >>= f) post := by
  intro s before
  exact next s s ⟨before, rfl⟩

theorem modify {f : σ → σ} {post : Unit → σ → Prop} (after : ∀ s, pre s → post () (f s)) :
    Spec held pre (Borrow.modify f) post :=
  fun s before => ⟨(), f s, rfl, after s before⟩

theorem withRef [DecidableEq ι] {c : ι} {body : Borrow ι σ α} (available : held c ≠ .writing)
    (inside : Spec (Function.update held c .reading) pre body post) :
    Spec held pre (Borrow.withRef c body) post := by
  intro s before
  rw [Borrow.withRef, if_neg available]
  exact inside s before

theorem withMut [DecidableEq ι] {c : ι} {body : Borrow ι σ α} (available : held c = .free)
    (inside : Spec (Function.update held c .writing) pre body post) :
    Spec held pre (Borrow.withMut c body) post := by
  intro s before
  rw [Borrow.withMut, if_pos available]
  exact inside s before

/-- A loop over a list, with an invariant that sees what is left of it. -/
theorem forEach (inv : List β → σ → Prop) {body : β → Borrow ι σ Unit}
    (turn : ∀ x rest, Spec held (inv (x :: rest)) (body x) fun _ => inv rest) (xs : List β) :
    Spec held (inv xs) (Borrow.forEach body xs) fun _ => inv [] := by
  induction xs with
  | nil => exact pure fun _ now => now
  | cons x rest ih => exact bind (turn x rest) fun _ => ih

end Spec

/-- The program finishes and keeps the invariant. -/
def Keeps (held : ι → Guard) (inv : σ → Prop) (program : Borrow ι σ α) : Prop :=
  Spec held inv program fun _ => inv

section Within

/-- Every run that finishes relates the state before to the state after. -/
def Within (R : σ → σ → Prop) (program : Borrow ι σ α) : Prop :=
  ∀ held s a s', program held s = .ok (a, s') → R s s'

variable {held : ι → Guard} {s s' : σ} {a : α}

theorem bind_eq_ok {m : Borrow ι σ β} {f : β → Borrow ι σ α} (ran : (m >>= f) held s = .ok (a, s')) :
    ∃ b middle, m held s = .ok (b, middle) ∧ f b held middle = .ok (a, s') := by
  cases first : m held s with
  | error c => simp only [Bind.bind, first, reduceCtorEq] at ran
  | ok result => exact ⟨result.1, result.2, rfl, by simpa only [Bind.bind, first] using ran⟩

theorem withRef_eq_ok [DecidableEq ι] {c : ι} {body : Borrow ι σ α}
    (ran : withRef c body held s = .ok (a, s')) : body (Function.update held c .reading) s = .ok (a, s') := by
  rw [withRef] at ran
  split at ran
  · cases ran
  · exact ran

theorem withMut_eq_ok [DecidableEq ι] {c : ι} {body : Borrow ι σ α}
    (ran : withMut c body held s = .ok (a, s')) : body (Function.update held c .writing) s = .ok (a, s') := by
  rw [withMut] at ran
  split at ran
  · exact ran
  · cases ran

end Within

section Runs

/-- Every run that finishes relates the state before to the state after, and a safe program finishes. -/
def Runs (safe : Prop) (held : ι → Guard) (R : σ → σ → Prop) (program : Borrow ι σ α) : Prop :=
  ∀ s, match program held s with
    | .ok (_, s') => R s s'
    | .error _ => ¬safe

/-- What holds before holds after. -/
def Preserves (inv : σ → Prop) (s s' : σ) : Prop := inv s → inv s'

instance (inv : σ → Prop) : IsPreorder σ (Preserves inv) where
  refl _ holds := holds
  trans _ _ _ first second holds := second (first holds)

namespace Runs

variable {safe : Prop} {held : ι → Guard} {R : σ → σ → Prop}

variable {program : Borrow ι σ α}

theorem keeps {inv : σ → Prop} (runs : Runs True held (Preserves inv) program) :
    Keeps held inv program := by
  intro s before
  have after := runs s
  cases ran : program held s with
  | error c =>
    rw [ran] at after
    exact absurd trivial after
  | ok result =>
    rw [ran] at after
    exact ⟨result.1, result.2, rfl, after before⟩

theorem within (runs : ∀ held, Runs False held R program) : Within R program := by
  intro held s a s' ran
  have related := runs held s
  rwa [ran] at related

/-- A program that is judged from every single state. -/
theorem of_spec (spec : ∀ now, Spec held (· = now) program fun _ => R now) :
    Runs safe held R program := by
  intro s
  obtain ⟨a, s', ran, related⟩ := spec s s rfl
  rwa [ran]

theorem modify {f : σ → σ} (related : ∀ s, R s (f s)) : Runs safe held R (Borrow.modify f : Borrow ι σ Unit) :=
  related

theorem withRef [DecidableEq ι] {c : ι} {body : Borrow ι σ α} (available : safe → held c ≠ .writing)
    (inside : Runs safe (Function.update held c .reading) R body) : Runs safe held R (Borrow.withRef c body) := by
  intro s
  by_cases taken : held c = .writing
  · rw [Borrow.withRef, if_pos taken]
    exact fun isSafe => available isSafe taken
  · rw [Borrow.withRef, if_neg taken]
    exact inside s

theorem withMut [DecidableEq ι] {c : ι} {body : Borrow ι σ α} (available : safe → held c = .free)
    (inside : Runs safe (Function.update held c .writing) R body) : Runs safe held R (Borrow.withMut c body) := by
  intro s
  by_cases free : held c = .free
  · rw [Borrow.withMut, if_pos free]
    exact inside s
  · rw [Borrow.withMut, if_neg free]
    exact fun isSafe => free (available isSafe)

theorem ite {condition : Prop} [Decidable condition] {yes no : Borrow ι σ α} (left : Runs safe held R yes)
    (right : Runs safe held R no) : Runs safe held R (if condition then yes else no) := by
  split
  · exact left
  · exact right

variable [IsPreorder σ R]

theorem pure (a : α) : Runs safe held R (Pure.pure a : Borrow ι σ α) := refl

theorem get : Runs safe held R (Borrow.get : Borrow ι σ σ) := refl

theorem bind {m : Borrow ι σ β} {f : β → Borrow ι σ α} (first : Runs safe held R m)
    (next : ∀ b, Runs safe held R (f b)) : Runs safe held R (m >>= f) := by
  intro s
  have before := first s
  cases ran : m held s with
  | error c =>
    rw [ran] at before
    simp only [Bind.bind, ran]
    exact before
  | ok result =>
    rw [ran] at before
    rw [bind_of_ok f ran]
    have after := next result.1 result.2
    cases ran' : f result.1 held result.2 with
    | error c => rwa [ran'] at after
    | ok final =>
      rw [ran'] at after
      exact IsTrans.trans _ _ _ before after

/-- A loop does what each of its turns does. -/
theorem forEach {body : β → Borrow ι σ Unit} (turn : ∀ x, Runs safe held R (body x)) (xs : List β) :
    Runs safe held R (Borrow.forEach body xs) := by
  induction xs with
  | nil => exact pure ()
  | cons x rest ih => exact bind (turn x) fun _ => ih

end Runs

end Runs

end Borrow

end MineRider.Machine
