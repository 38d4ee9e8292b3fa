import Mathlib.Data.List.Basic

/-! # Readers over a token list and the grammar they accept

A reader consumes a prefix of its tokens or stops with an error. `Reads p used a` is the forward
law: in front of every suffix, `p` consumes exactly `used` and returns `a`. `Sound p grammar` is
the converse: whatever `p` consumed is derived by `grammar` for the value it returned. Both laws
compose through `bind`, so a decoder is verified field by field.
-/

namespace MineRider.Machine

open List

/-- A reader returns a value and the unread tokens, or an error. -/
abbrev Reader (β ε α : Type) := StateT (List β) (Except ε) α

namespace Reader

variable {β ε α γ : Type}

@[simp] theorem run_pure (a : α) (input : List β) :
    (pure a : Reader β ε α).run input = .ok (a, input) := rfl

@[simp] theorem run_get (input : List β) :
    (get : Reader β ε (List β)).run input = .ok (input, input) := rfl

variable {p : Reader β ε α} {f : α → Reader β ε γ} {input rest : List β} {a : α}

theorem run_bind_of_ok (first : p.run input = .ok (a, rest)) : (p >>= f).run input = (f a).run rest := by
  rw [StateT.run_bind, first]
  rfl

theorem run_bind_of_error {input : List β} {e : ε}
    (first : p.run input = .error e) : (p >>= f).run input = .error e := by
  rw [StateT.run_bind, first]
  rfl

/-- A sequence succeeds only through a successful first part. -/
theorem run_bind_eq_ok {c : γ} :
    (p >>= f).run input = .ok (c, rest) ↔
      ∃ a middle, p.run input = .ok (a, middle) ∧ (f a).run middle = .ok (c, rest) := by
  constructor
  · intro success
    cases first : p.run input with
    | error e =>
      rw [run_bind_of_error first] at success
      contradiction
    | ok result =>
      obtain ⟨a, middle⟩ := result
      rw [run_bind_of_ok first] at success
      exact ⟨a, middle, rfl, success⟩
  · rintro ⟨a, middle, first, second⟩
    rw [run_bind_of_ok first, second]

theorem run_map_eq_ok {f : α → γ} {c : γ}
    (success : (f <$> p).run input = .ok (c, rest)) : ∃ a, p.run input = .ok (a, rest) ∧ c = f a := by
  rw [map_eq_pure_bind] at success
  obtain ⟨a, middle, first, done⟩ := run_bind_eq_ok.mp success
  cases done
  exact ⟨a, first, rfl⟩

/-- The value a reader returns, without the unread tokens. -/
def eval (p : Reader β ε α) (input : List β) : Except ε α := (p.run input).map Prod.fst

theorem eval_of_run (success : p.run input = .ok (a, rest)) : eval p input = .ok a := by
  rw [eval, success]
  rfl

/-- The forward law: `p` consumes exactly `used`, whatever follows it. -/
def Reads (p : Reader β ε α) (used : List β) (a : α) : Prop :=
  ∀ suffix, p.run (used ++ suffix) = .ok (a, suffix)

theorem Reads.pure (a : α) : Reads (Pure.pure a : Reader β ε α) [] a := fun _ => rfl

theorem Reads.bind {first second : List β} {c : γ}
    (left : Reads p first a) (right : Reads (f a) second c) : Reads (p >>= f) (first ++ second) c := by
  intro suffix
  rw [append_assoc, run_bind_of_ok (left _), right]

variable {used : List β}

/-- Reading the last field of a record only changes the returned value. -/
theorem Reads.map (left : Reads p used a) (f : α → γ) :
    Reads (p >>= fun a => Pure.pure (f a)) used (f a) := by
  intro suffix
  rw [run_bind_of_ok (left suffix), run_pure]

theorem Reads.unique {a b : α} (left : Reads p used a) (right : Reads p used b) :
    a = b := by
  have same := (left []).symm.trans (right [])
  cases same
  rfl

/-- The converse law: every accepted prefix is derived by the grammar. -/
def Sound (p : Reader β ε α) (grammar : List β → α → Prop) : Prop :=
  ∀ input a rest, p.run input = .ok (a, rest) → ∃ used, input = used ++ rest ∧ grammar used a

theorem Sound.pure (a : α) : Sound (Pure.pure a : Reader β ε α) (fun used b => used = [] ∧ b = a) := by
  intro input b rest success
  cases success
  exact ⟨[], rfl, rfl, rfl⟩

variable {grammar : List β → α → Prop}

theorem Sound.bind {next : α → List β → γ → Prop} (left : Sound p grammar)
    (right : ∀ used a, grammar used a → Sound (f a) (next a)) :
    Sound (p >>= f) (fun used c =>
      ∃ first second a, used = first ++ second ∧ grammar first a ∧ next a second c) := by
  intro input c rest success
  obtain ⟨a, middle, first, second⟩ := run_bind_eq_ok.mp success
  obtain ⟨used, rfl, derived⟩ := left _ _ _ first
  obtain ⟨used', rfl, derived'⟩ := right used a derived _ _ _ second
  exact ⟨used ++ used', (append_assoc ..).symm, used, used', a, rfl, derived, derived'⟩

theorem Sound.throw (e : ε) (grammar : List β → α → Prop) :
    Sound (MonadExcept.throw e : Reader β ε α) grammar := by
  intro input a rest success
  cases success

theorem Sound.mono {grammar weaker : List β → α → Prop} (left : Sound p grammar)
    (implied : ∀ used a, grammar used a → weaker used a) : Sound p weaker := by
  intro input a rest success
  obtain ⟨used, split, derived⟩ := left _ _ _ success
  exact ⟨used, split, implied _ _ derived⟩

theorem Sound.map (left : Sound p grammar) (f : α → γ) :
    Sound (p >>= fun a => Pure.pure (f a)) (fun used c => ∃ a, c = f a ∧ grammar used a) := by
  intro input c rest success
  obtain ⟨a, middle, first, done⟩ := run_bind_eq_ok.mp success
  cases done
  obtain ⟨used, split, derived⟩ := left _ _ _ first
  exact ⟨used, split, a, rfl, derived⟩

/-- A sound reader never lengthens its input. -/
theorem Sound.length_le (left : Sound p grammar) (success : p.run input = .ok (a, rest)) :
    rest.length ≤ input.length := by
  obtain ⟨used, rfl, _⟩ := left _ _ _ success
  simp

/-- Run one reader a fixed number of times. -/
def times (p : Reader β ε α) : ℕ → Reader β ε (List α)
  | 0 => pure []
  | count + 1 => do
      let a ← p
      let rest ← times p count
      pure (a :: rest)

theorem Reads.times {encode : α → List β} (items : List α) (each : ∀ a ∈ items, Reads p (encode a) a) :
    Reads (Reader.times p items.length) (items.flatMap encode) items := by
  induction items with
  | nil => exact .pure []
  | cons a rest ih =>
    exact (each a mem_cons_self).bind
      ((ih (fun b member => each b (mem_cons_of_mem _ member))).map (a :: ·))

theorem Sound.times {encode : α → List β} (each : Sound p (fun used a => used = encode a)) (count : ℕ) :
    Sound (Reader.times p count) (fun used items => items.length = count ∧ used = items.flatMap encode) := by
  induction count with
  | zero =>
    refine (Sound.pure []).mono ?_
    rintro used items ⟨rfl, rfl⟩
    exact ⟨rfl, rfl⟩
  | succ count ih =>
    have step := each.bind (fun used a _ => ih.bind (fun _ rest _ => Sound.pure (a :: rest)))
    refine step.mono ?_
    rintro used items ⟨_, _, a, rfl, rfl, _, _, rest, rfl, ⟨rfl, rfl⟩, rfl, rfl⟩
    exact ⟨rfl, by simp⟩

variable {σ : Type}

/-- Run a reader a fixed number of times while threading a budget through the runs. -/
def collect (p : σ → Reader β ε (α × σ)) : ℕ → σ → Reader β ε (List α × σ)
  | 0, s => pure ([], s)
  | count + 1, s => do
      let head ← p s
      let tail ← collect p count head.2
      pure (head.1 :: tail.1, tail.2)

/-- Consecutive forward reads, each starting from the budget its predecessor left. -/
inductive ReadsSeq (p : σ → Reader β ε (α × σ)) : σ → List β → List α → σ → Prop
  | nil (s : σ) : ReadsSeq p s [] [] s
  | cons {s middle final : σ} {used rest : List β} {a : α} {items : List α}
      (head : Reads (p s) used (a, middle)) (tail : ReadsSeq p middle rest items final) :
      ReadsSeq p s (used ++ rest) (a :: items) final

theorem ReadsSeq.collect {p : σ → Reader β ε (α × σ)} {s final : σ} {items : List α}
    (seq : ReadsSeq p s used items final) :
    Reads (Reader.collect p items.length s) used (items, final) := by
  induction seq with
  | nil s => exact .pure _
  | @cons s middle final used rest a items head _ ih =>
    exact head.bind (ih.map (fun tail => (a :: tail.1, tail.2)))

/-- The tokens of a list are the concatenated tokens of its elements. -/
def Concat (grammar : List β → α → Prop) (used : List β) (items : List α) : Prop :=
  ∃ pieces, used = pieces.flatten ∧ List.Forall₂ grammar pieces items

theorem Sound.collect {p : σ → Reader β ε (α × σ)}
    (each : ∀ s, Sound (p s) (fun used result => grammar used result.1)) (count : ℕ) (s : σ) :
    Sound (Reader.collect p count s)
      (fun used result => result.1.length = count ∧ Concat grammar used result.1) := by
  induction count generalizing s with
  | zero =>
    refine (Sound.pure _).mono ?_
    rintro used result ⟨rfl, rfl⟩
    exact ⟨rfl, [], rfl, .nil⟩
  | succ count ih =>
    have step := (each s).bind (fun used head _ =>
      (ih head.2).bind (fun _ tail _ => Sound.pure (head.1 :: tail.1, tail.2)))
    refine step.mono ?_
    rintro used result ⟨first, _, head, rfl, derived, _, _, tail, rfl, ⟨length, pieces, rfl, all⟩, rfl, rfl⟩
    exact ⟨by simp [length], first :: pieces, by simp, .cons derived all⟩

section Until

/-- Run a reader until it returns no item. An iteration that consumes nothing could repeat forever;
`fuel` bounds the iterations and `stuck` is reported when they run out. -/
def untilNone (step : σ → Reader β ε (Option α × σ)) (stuck : ε) : ℕ → σ → Reader β ε (List α × σ)
  | 0, _ => throw stuck
  | fuel + 1, s => do
      let head ← step s
      match head.1 with
      | none => pure ([], head.2)
      | some a => do
          let tail ← untilNone step stuck fuel head.2
          pure (a :: tail.1, tail.2)

variable {step : σ → Reader β ε (Option α × σ)} {stuck : ε}

variable {fuel : ℕ}

theorem untilNone_of_none {s final : σ} {input rest : List β} (last : (step s).run input = .ok ((none, final), rest)) :
    (untilNone step stuck (fuel + 1) s).run input = .ok (([], final), rest) := by
  rw [untilNone, run_bind_of_ok last]
  rfl

theorem untilNone_of_some {s middle : σ} {input rest : List β} {a : α}
    (head : (step s).run input = .ok ((some a, middle), rest)) :
    (untilNone step stuck (fuel + 1) s).run input =
      (untilNone step stuck fuel middle >>= fun tail => pure (a :: tail.1, tail.2)).run rest := by
  rw [untilNone, run_bind_of_ok head]

/-- When every iteration consumes a token, fuel beyond the input length changes nothing, so the
loop stops by itself and never reports `stuck`. -/
theorem untilNone_fuel
    (consumes : ∀ s input head rest, (step s).run input = .ok (head, rest) → rest.length < input.length)
    (more : ℕ) {s : σ} {input : List β} (enough : input.length < fuel) :
    (untilNone step stuck (fuel + more) s).run input = (untilNone step stuck fuel s).run input := by
  induction fuel generalizing s input with
  | zero => exact absurd enough (Nat.not_lt_zero _)
  | succ fuel ih =>
    rw [Nat.succ_add]
    cases first : (step s).run input with
    | error e => rw [untilNone, untilNone, run_bind_of_error first, run_bind_of_error first]
    | ok result =>
      obtain ⟨⟨item, middle⟩, rest⟩ := result
      cases item with
      | none => rw [untilNone_of_none first, untilNone_of_none first]
      | some a =>
        have shorter := consumes _ _ _ _ first
        rw [untilNone_of_some first, untilNone_of_some first, StateT.run_bind, StateT.run_bind, ih (by omega)]

/-- Consecutive forward reads that end with a read of no item. -/
inductive ReadsUntil (step : σ → Reader β ε (Option α × σ)) : σ → List β → List α → σ → Prop
  | stop {s final : σ} {used : List β} (last : Reads (step s) used (none, final)) :
      ReadsUntil step s used [] final
  | more {s middle final : σ} {used rest : List β} {a : α} {items : List α}
      (head : Reads (step s) used (some a, middle)) (tail : ReadsUntil step middle rest items final) :
      ReadsUntil step s (used ++ rest) (a :: items) final

theorem ReadsUntil.untilNone {s final : σ} {used : List β} {items : List α}
    (reads : ReadsUntil step s used items final) (enough : items.length < fuel) :
    Reads (Reader.untilNone step stuck fuel s) used (items, final) := by
  induction reads generalizing fuel with
  | stop last =>
    cases fuel with
    | zero => exact absurd enough (Nat.not_lt_zero _)
    | succ fuel => exact fun suffix => untilNone_of_none (last suffix)
  | @more s middle final used rest a items head _ ih =>
    cases fuel with
    | zero => exact absurd enough (Nat.not_lt_zero _)
    | succ fuel =>
      have tail := (ih (Nat.lt_of_succ_lt_succ enough)).map (fun tail => (a :: tail.1, tail.2))
      intro suffix
      rw [append_assoc, untilNone_of_some (head _), tail]

/-- The tokens of a terminated list: those of its items, then the terminator. -/
theorem Sound.untilNone (item : List β → α → Prop) (last : List β → Prop)
    (some_ : ∀ s input a middle rest, (step s).run input = .ok ((some a, middle), rest) →
      ∃ used, input = used ++ rest ∧ item used a)
    (none_ : ∀ s input middle rest, (step s).run input = .ok ((none, middle), rest) →
      ∃ used, input = used ++ rest ∧ last used) (fuel : ℕ) (s : σ) :
    Sound (Reader.untilNone step stuck fuel s)
      (fun used result => ∃ body final, used = body ++ final ∧ Concat item body result.1 ∧ last final) := by
  induction fuel generalizing s with
  | zero => exact .throw _ _
  | succ fuel ih =>
    intro input result rest success
    obtain ⟨⟨head, middle⟩, between, first, later⟩ := run_bind_eq_ok.mp success
    cases head with
    | none =>
      cases later
      obtain ⟨used, rfl, derived⟩ := none_ _ _ _ _ first
      exact ⟨used, rfl, [], used, rfl, ⟨[], rfl, .nil⟩, derived⟩
    | some a =>
      obtain ⟨tail, _, second, done⟩ := run_bind_eq_ok.mp later
      cases done
      obtain ⟨used, rfl, derived⟩ := some_ _ _ _ _ _ first
      obtain ⟨_, rfl, body, final, rfl, ⟨pieces, rfl, all⟩, ends⟩ := ih _ _ _ _ second
      exact ⟨used ++ (pieces.flatten ++ final), by simp only [append_assoc],
        used ++ pieces.flatten, final, by simp only [append_assoc],
        ⟨used :: pieces, rfl, .cons derived all⟩, ends⟩

end Until

end Reader

end MineRider.Machine
