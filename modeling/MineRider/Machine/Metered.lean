import MineRider.Machine.Reader

/-! # Readers that log what they use

A metered reader returns, next to what a plain reader returns, the log of the uses it made. The log
is kept also when the reader stops with an error, so a bound on it is a bound at every moment of the
run. Erasing the log gives the plain reader back.

`Spends` is the amortised bound: a run that succeeds has consumed at least what it spent, so that
only the parts still open when a run fails can have spent more than they read.
-/

namespace MineRider.Machine

/-- A reader with the log of its uses. -/
def Metered (ω β ε α : Type) := List β → List ω × Except ε (α × List β)

namespace Metered

variable {ω β ε α γ σ : Type}

/-- Continue after a run, behind its log. -/
def andThen (f : α → Metered ω β ε γ) : List ω × Except ε (α × List β) → List ω × Except ε (γ × List β)
  | (log, .error e) => (log, .error e)
  | (log, .ok (a, rest)) => (log ++ (f a rest).1, (f a rest).2)

instance : Monad (Metered ω β ε) where
  pure a := fun input => ([], .ok (a, input))
  bind m f := fun input => andThen f (m input)

/-- A plain reader, which uses nothing that is logged. -/
def ofReader (p : Reader β ε α) : Metered ω β ε α := fun input => ([], p.run input)

/-- Log one use. -/
def record (use : ω) : Metered ω β ε PUnit := fun input => ([use], .ok (⟨⟩, input))

/-- The plain reader below a metered one. -/
def erase (m : Metered ω β ε α) : Reader β ε α := fun input => (m input).2

/-- `Reader.collect` for metered readers. -/
def collect (p : σ → Metered ω β ε (α × σ)) : ℕ → σ → Metered ω β ε (List α × σ)
  | 0, s => pure ([], s)
  | count + 1, s => do
      let head ← p s
      let tail ← collect p count head.2
      pure (head.1 :: tail.1, tail.2)

/-- `Reader.untilNone` for metered readers. -/
def untilNone (step : σ → Metered ω β ε (Option α × σ)) (stuck : ε) : ℕ → σ → Metered ω β ε (List α × σ)
  | 0, _ => ofReader (throw stuck)
  | fuel + 1, s => do
      let head ← step s
      match head.1 with
      | none => pure ([], head.2)
      | some a => do
          let tail ← untilNone step stuck fuel head.2
          pure (a :: tail.1, tail.2)

section Erase

theorem bind_of_ok {m : Metered ω β ε α} {f : α → Metered ω β ε γ} {input rest : List β} {a : α}
    (first : (m input).2 = .ok (a, rest)) :
    (m >>= f) input = ((m input).1 ++ (f a rest).1, (f a rest).2) := by
  change andThen f (m input) = _
  cases ran : m input with
  | mk log result =>
    rw [ran] at first
    subst first
    rfl

theorem bind_of_error {m : Metered ω β ε α} {f : α → Metered ω β ε γ} {input : List β} {e : ε}
    (first : (m input).2 = .error e) : (m >>= f) input = ((m input).1, .error e) := by
  change andThen f (m input) = _
  cases ran : m input with
  | mk log result =>
    rw [ran] at first
    subst first
    rfl

@[simp] theorem erase_pure (a : α) : erase (pure a : Metered ω β ε α) = pure a := rfl

@[simp] theorem erase_ofReader (p : Reader β ε α) : erase (ofReader p : Metered ω β ε α) = p := rfl

@[simp] theorem erase_record (use : ω) : erase (record use : Metered ω β ε PUnit) = pure ⟨⟩ := rfl

@[simp] theorem erase_bind (m : Metered ω β ε α) (f : α → Metered ω β ε γ) :
    erase (m >>= f) = erase m >>= fun a => erase (f a) := by
  funext input
  change ((m >>= f) input).2 = (erase m >>= fun a => erase (f a)).run input
  cases first : (m input).2 with
  | error e =>
    rw [bind_of_error first]
    exact (Reader.run_bind_of_error (p := erase m) first).symm
  | ok result =>
    obtain ⟨a, rest⟩ := result
    rw [bind_of_ok first]
    exact (Reader.run_bind_of_ok (p := erase m) (f := fun a => erase (f a)) first).symm

theorem erase_ite {condition : Prop} [Decidable condition] (left right : Metered ω β ε α) :
    erase (if condition then left else right) = if condition then erase left else erase right := by
  split_ifs <;> rfl

@[simp] theorem erase_collect (p : σ → Metered ω β ε (α × σ)) (count : ℕ) (s : σ) :
    erase (collect p count s) = Reader.collect (fun s => erase (p s)) count s := by
  induction count generalizing s with
  | zero => rfl
  | succ count ih => simp only [collect, Reader.collect, erase_bind, ih, erase_pure]

@[simp] theorem erase_untilNone (step : σ → Metered ω β ε (Option α × σ)) (stuck : ε) (fuel : ℕ) (s : σ) :
    erase (untilNone step stuck fuel s) = Reader.untilNone (fun s => erase (step s)) stuck fuel s := by
  induction fuel generalizing s with
  | zero => rfl
  | succ fuel ih =>
    rw [untilNone, Reader.untilNone, erase_bind]
    congr 1
    funext head
    obtain ⟨item, middle⟩ := head
    cases item with
    | none => rfl
    | some a => simp only [erase_bind, ih, erase_pure]

end Erase

section Logs

/-- Every logged use satisfies `allowed`. -/
def Logs (allowed : ω → Prop) (m : Metered ω β ε α) : Prop := ∀ input, ∀ use ∈ (m input).1, allowed use

variable {allowed : ω → Prop}

theorem Logs.pure (a : α) : Logs allowed (Pure.pure a : Metered ω β ε α) := by
  rintro input use ⟨⟩

theorem Logs.ofReader (p : Reader β ε α) : Logs allowed (Metered.ofReader p : Metered ω β ε α) := by
  rintro input use ⟨⟩

theorem Logs.record {use : ω} (allows : allowed use) :
    Logs allowed (Metered.record use : Metered ω β ε PUnit) := by
  intro input other member
  rw [List.mem_singleton.mp member]
  exact allows

theorem Logs.bind {m : Metered ω β ε α} {f : α → Metered ω β ε γ} (left : Logs allowed m)
    (right : ∀ a, Logs allowed (f a)) : Logs allowed (m >>= f) := by
  intro input use member
  cases first : (m input).2 with
  | error e =>
    rw [bind_of_error first] at member
    exact left input use member
  | ok result =>
    rw [bind_of_ok first] at member
    obtain before | after := List.mem_append.mp member
    · exact left input use before
    · exact right _ _ use after

theorem Logs.collect {p : σ → Metered ω β ε (α × σ)} (each : ∀ s, Logs allowed (p s)) (count : ℕ) (s : σ) :
    Logs allowed (Metered.collect p count s) := by
  induction count generalizing s with
  | zero => exact .pure _
  | succ count ih => exact (each s).bind fun head => (ih head.2).bind fun _ => .pure _

theorem Logs.untilNone {step : σ → Metered ω β ε (Option α × σ)} (stuck : ε)
    (each : ∀ s, Logs allowed (step s)) (fuel : ℕ) (s : σ) :
    Logs allowed (Metered.untilNone step stuck fuel s) := by
  induction fuel generalizing s with
  | zero => exact .ofReader _
  | succ fuel ih =>
    refine (each s).bind ?_
    rintro ⟨item, middle⟩
    cases item with
    | none => exact .pure _
    | some a => exact (ih middle).bind fun _ => .pure _

end Logs

section Spends

variable (cost : ω → ℕ)

/-- What a log cost in total. -/
def spent : List ω → ℕ
  | [] => 0
  | use :: rest => cost use + spent rest

variable {cost}

theorem spent_append (left right : List ω) : spent cost (left ++ right) = spent cost left + spent cost right := by
  induction left with
  | nil => exact (Nat.zero_add _).symm
  | cons use rest ih => rw [List.cons_append, spent, spent, ih, Nat.add_assoc]

/-- What was spent up to some moment is at most what was spent in all. -/
theorem spent_le_of_prior {prior log : List ω} (before : prior <+: log) : spent cost prior ≤ spent cost log := by
  obtain ⟨later, rfl⟩ := before
  rw [spent_append]
  exact Nat.le_add_right _ _

variable (cost)

/-- On `input`, a run that succeeds consumed `least` tokens more than it spent, and one that fails
spent at most `factor` times the input. -/
structure Spends (factor least : ℕ) (m : Metered ω β ε α) (input : List β) : Prop where
  done : ∀ a rest, (m input).2 = .ok (a, rest) → spent cost (m input).1 + least + rest.length ≤ input.length
  failed : ∀ e, (m input).2 = .error e → spent cost (m input).1 ≤ factor * input.length

variable {cost} {factor least : ℕ} {input : List β}

variable {m : Metered ω β ε α}

theorem Spends.total (spends : Spends cost factor least m input) (positive : 1 ≤ factor) :
    spent cost (m input).1 ≤ factor * input.length := by
  cases result : (m input).2 with
  | error e => exact spends.failed e result
  | ok pair =>
    have consumed := spends.done pair.1 pair.2 result
    calc spent cost (m input).1 ≤ 1 * input.length := by omega
      _ ≤ factor * input.length := Nat.mul_le_mul_right _ positive

theorem Spends.mono (spends : Spends cost factor least m input) {factor' least' : ℕ}
    (larger : factor ≤ factor') (fewer : least' ≤ least) : Spends cost factor' least' m input where
  done a rest success := by
    have consumed := spends.done a rest success
    omega
  failed e failure := Nat.le_trans (spends.failed e failure) (Nat.mul_le_mul_right _ larger)

theorem Spends.pure (factor : ℕ) (a : α) (input : List β) :
    Spends cost factor 0 (Pure.pure a : Metered ω β ε α) input where
  done b rest success := by
    cases success
    exact Nat.le_of_eq (Nat.zero_add _)
  failed e failure := by cases failure

/-- A plain reader spends nothing. -/
theorem Spends.ofReader {p : Reader β ε α} (factor : ℕ)
    (consumes : ∀ a rest, p.run input = .ok (a, rest) → least + rest.length ≤ input.length) :
    Spends cost factor least (Metered.ofReader p) input where
  done a rest success := by
    have consumed := consumes a rest success
    rwa [show spent cost ((Metered.ofReader p : Metered ω β ε α) input).1 = 0 from rfl, Nat.zero_add]
  failed _ _ := Nat.zero_le _

section

variable {f : α → Metered ω β ε γ} (positive : 1 ≤ factor) (left : Spends cost factor least m input)

include positive left

/-- What the first part spent it had consumed, and the second part only sees the rest. -/
theorem Spends.bind {more : ℕ} (right : ∀ a rest, (m input).2 = .ok (a, rest) → Spends cost factor more (f a) rest) :
    Spends cost factor (least + more) (m >>= f) input := by
  cases first : (m input).2 with
  | error e =>
    refine ⟨fun c rest success => ?_, fun _ _ => ?_⟩
    · rw [bind_of_error first] at success
      cases success
    · rw [bind_of_error first]
      exact left.failed e first
  | ok result =>
    obtain ⟨a, middle⟩ := result
    have consumed := left.done a middle first
    have next := right a middle first
    refine ⟨fun c rest success => ?_, fun e failure => ?_⟩
    · rw [bind_of_ok first] at success ⊢
      have later := next.done c rest success
      rw [spent_append]
      omega
    · rw [bind_of_ok first] at failure ⊢
      have later := next.failed e failure
      have scaled : input.length - middle.length ≤ factor * (input.length - middle.length) :=
        Nat.le_mul_of_pos_left _ positive
      have split : factor * input.length =
          factor * (input.length - middle.length) + factor * middle.length := by
        rw [← Nat.mul_add, Nat.sub_add_cancel (by omega)]
      rw [spent_append]
      omega

/-- What the first part read is read, whatever follows it. -/
theorem Spends.followed (right : ∀ a rest, (m input).2 = .ok (a, rest) → Spends cost factor 0 (f a) rest) :
    Spends cost factor least (m >>= f) input :=
  left.bind positive right

end

/-- A use paid for by what follows it: until that is read, it adds the input once more. -/
theorem Spends.reserve {use : ω} {f : PUnit → Metered ω β ε α} (within : cost use ≤ input.length)
    (body : Spends cost factor (cost use + least) (f ⟨⟩) input) :
    Spends cost (factor + 1) least (record use >>= f) input := by
  have log : ((record use >>= f) input).1 = use :: (f ⟨⟩ input).1 := rfl
  refine ⟨fun a rest success => ?_, fun e failure => ?_⟩
  · have consumed := body.done a rest success
    rw [log, spent]
    omega
  · have open_ := body.failed e failure
    rw [log, spent, Nat.add_mul, Nat.one_mul]
    omega

/-- A use that costs nothing. -/
theorem Spends.free {use : ω} {f : PUnit → Metered ω β ε α} (nothing : cost use = 0)
    (body : Spends cost factor least (f ⟨⟩) input) : Spends cost factor least (record use >>= f) input := by
  have same : spent cost ((record use >>= f) input).1 = spent cost (f ⟨⟩ input).1 := by
    change spent cost (use :: (f ⟨⟩ input).1) = _
    rw [spent, nothing, Nat.zero_add]
  refine ⟨fun a rest success => ?_, fun e failure => ?_⟩
  · rw [same]
    exact body.done a rest success
  · rw [same]
    exact body.failed e failure

/-- A use paid for by what was read before it. -/
theorem Spends.record_after {use : ω} {result : α → γ} (before : Spends cost factor (cost use + least) m input) :
    Spends cost factor least (m >>= fun a => record use >>= fun _ => Pure.pure (result a)) input := by
  cases first : (m input).2 with
  | error e =>
    refine ⟨fun c rest success => ?_, fun _ _ => ?_⟩
    · rw [bind_of_error first] at success
      cases success
    · rw [bind_of_error first]
      exact before.failed e first
  | ok pair =>
    obtain ⟨a, middle⟩ := pair
    have consumed := before.done a middle first
    refine ⟨fun c rest success => ?_, fun e failure => ?_⟩
    · rw [bind_of_ok first] at success ⊢
      cases success
      rw [spent_append]
      change spent cost (m input).1 + (cost use + 0) + least + middle.length ≤ _
      omega
    · rw [bind_of_ok first] at failure
      cases failure

theorem Spends.collect {p : σ → Metered ω β ε (α × σ)} (positive : 1 ≤ factor)
    (each : ∀ s input, Spends cost factor 1 (p s) input) (count : ℕ) (s : σ) (input : List β) :
    Spends cost factor count (Metered.collect p count s) input := by
  induction count generalizing s input with
  | zero => exact .pure _ _ _
  | succ count ih =>
    have step := (each s input).bind positive fun head rest _ =>
      (ih head.2 rest).bind positive fun tail _ _ => .pure _ (head.1 :: tail.1, tail.2) _
    exact step.mono (Nat.le_refl _) (by omega)

theorem Spends.untilNone {step : σ → Metered ω β ε (Option α × σ)} {stuck : ε} (positive : 1 ≤ factor)
    (each : ∀ s input, Spends cost factor 1 (step s) input) (fuel : ℕ) (s : σ) (input : List β) :
    Spends cost factor 1 (Metered.untilNone step stuck fuel s) input := by
  induction fuel generalizing s input with
  | zero =>
    refine .ofReader _ ?_
    rintro a rest ⟨⟩
  | succ fuel ih =>
    refine (each s input).followed positive ?_
    rintro ⟨item, middle⟩ rest -
    cases item with
    | none => exact .pure _ _ _
    | some a =>
      have tail := (ih middle rest).followed positive fun tail _ _ => .pure _ (a :: tail.1, tail.2) _
      exact tail.mono (Nat.le_refl _) (Nat.zero_le _)

end Spends

end Metered

end MineRider.Machine
