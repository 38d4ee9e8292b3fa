import Mathlib.Data.List.Basic

/-! # Dialogues over a duplex stream

A dialogue writes to a peer and reads what the peer sends, until it returns or fails. The incoming side is the list
of chunks that the reads return, however the stream is cut, followed by the way in which it ends; the outgoing side
takes some number of writes before it refuses one. Everything written and read is logged, an attempted write
whether or not it is taken.

`Reads` is the forward law: in front of every suffix, with enough writes taken, the dialogue consumes exactly the
given tokens. `Sound` is the converse. `Keeps` is a triple over the log: what is said is allowed by what was said
before, also where the dialogue fails.
-/

namespace MineRider.Machine.Duplex

open List

variable {β φ : Type}

/-- The tokens of one read; a read of none is how the end of the stream shows. -/
abbrev Chunk (β : Type) := {tokens : List β // tokens ≠ []}

/-- What the chunks deliver in all. -/
def pending (chunks : List (Chunk β)) : List β := (chunks.map Subtype.val).flatten

/-- Fill a buffer from the chunks, and leave what it has no room for. -/
def fill : ℕ → List (Chunk β) → Option (List β) × List (Chunk β)
  | 0, chunks => (some [], chunks)
  | _ + 1, [] => (none, [])
  | n + 1, chunk :: rest =>
    match chunk.val.drop (n + 1) with
    | first :: left => (some (chunk.val.take (n + 1)), ⟨first :: left, cons_ne_nil first left⟩ :: rest)
    | [] =>
      match fill (n + 1 - chunk.val.length) rest with
      | (some tokens, left) => (some (chunk.val ++ tokens), left)
      | (none, left) => (none, left)

section Fill

@[simp] theorem pending_cons (chunk : Chunk β) (rest : List (Chunk β)) :
    pending (chunk :: rest) = chunk.val ++ pending rest := rfl

/-- How the stream is cut does not show. -/
theorem fill_of_le {n : ℕ} {chunks : List (Chunk β)} (enough : n ≤ (pending chunks).length) :
    ∃ left, fill n chunks = (some ((pending chunks).take n), left) ∧ pending left = (pending chunks).drop n := by
  induction chunks generalizing n with
  | nil =>
    cases n with
    | zero => exact ⟨[], rfl, rfl⟩
    | succ n => simp [pending] at enough
  | cons chunk rest ih =>
    cases n with
    | zero => exact ⟨chunk :: rest, rfl, rfl⟩
    | succ n =>
      cases leftover : chunk.val.drop (n + 1) with
      | cons first left =>
        have long : n + 1 ≤ chunk.val.length := by
          have positive : 0 < (chunk.val.drop (n + 1)).length := by simp [leftover]
          rw [length_drop] at positive
          omega
        refine ⟨⟨first :: left, cons_ne_nil first left⟩ :: rest, ?_, ?_⟩
        · simp only [fill, leftover, pending_cons, take_append_of_le_length long]
        · rw [pending_cons, pending_cons, drop_append_of_le_length long, leftover]
      | nil =>
        have short : chunk.val.length ≤ n + 1 := drop_eq_nil_iff.mp leftover
        have later : n + 1 - chunk.val.length ≤ (pending rest).length := by
          rw [pending_cons, length_append] at enough
          omega
        obtain ⟨left, filled, same⟩ := ih later
        refine ⟨left, ?_, ?_⟩
        · simp only [fill, leftover, filled, pending_cons, take_append, take_of_length_le short]
        · rw [same, pending_cons, drop_append, leftover, nil_append]

theorem fill_of_lt {n : ℕ} {chunks : List (Chunk β)} (short : (pending chunks).length < n) :
    fill n chunks = (none, []) := by
  induction chunks generalizing n with
  | nil =>
    cases n with
    | zero => exact absurd short (Nat.not_lt_zero _)
    | succ n => rfl
  | cons chunk rest ih =>
    rw [pending_cons, length_append] at short
    cases n with
    | zero => exact absurd short (Nat.not_lt_zero _)
    | succ n =>
      have leftover : chunk.val.drop (n + 1) = [] := drop_eq_nil_iff.mpr (by omega)
      simp only [fill, leftover, ih (n := n + 1 - chunk.val.length) (by omega)]

/-- A filled buffer has the first tokens of the stream. -/
theorem fill_eq_some {n : ℕ} {chunks left : List (Chunk β)} {tokens : List β}
    (filled : fill n chunks = (some tokens, left)) :
    tokens.length = n ∧ pending chunks = tokens ++ pending left := by
  by_cases enough : n ≤ (pending chunks).length
  · obtain ⟨rest, expected, same⟩ := fill_of_le enough
    rw [expected] at filled
    cases filled
    exact ⟨length_take_of_le enough, by rw [same, take_append_drop]⟩
  · rw [fill_of_lt (Nat.lt_of_not_le enough)] at filled
    cases filled

end Fill

/-- How a stream ends. -/
inductive Ending where
  | closed
  | timedOut
  | failed (source : String)
deriving DecidableEq, Repr

/-- One thing that was said, with the phase in which it was. -/
inductive Traffic (β φ : Type) where
  | wrote (phase : φ) (tokens : List β)
  | read (phase : φ) (tokens : List β)
deriving DecidableEq, Repr

structure Wire (β φ : Type) where
  chunks : List (Chunk β)
  ending : Ending
  writes : ℕ
  refusal : Ending
  log : List (Traffic β φ)

def Dialogue (β φ ε α : Type) := Wire β φ → Except ε α × Wire β φ

namespace Dialogue

variable {ε α γ : Type}

/-- Returning says nothing. -/
def pure (a : α) : Dialogue β φ ε α := fun wire => (.ok a, wire)

def fail (error : ε) : Dialogue β φ ε α := fun wire => (.error error, wire)

def bind (m : Dialogue β φ ε α) (f : α → Dialogue β φ ε γ) : Dialogue β φ ε γ := fun wire =>
  match m wire with
  | (.ok a, next) => f a next
  | (.error error, next) => (.error error, next)

instance : Monad (Dialogue β φ ε) where
  pure := Dialogue.pure
  bind := Dialogue.bind

def writeAll (refused : Ending → ε) (phase : φ) (tokens : List β) : Dialogue β φ ε Unit := fun wire =>
  match wire.writes with
  | 0 => (.error (refused wire.refusal), { wire with log := wire.log ++ [.wrote phase tokens] })
  | left + 1 => (.ok (), { wire with writes := left, log := wire.log ++ [.wrote phase tokens] })

/-- Read exactly so many tokens. -/
def readExact (ended : Ending → ε) (phase : φ) (count : ℕ) : Dialogue β φ ε (List β) := fun wire =>
  match fill count wire.chunks with
  | (some tokens, left) => (.ok tokens, { wire with chunks := left, log := wire.log ++ [.read phase tokens] })
  | (none, left) => (.error (ended wire.ending), { wire with chunks := left })

variable {m : Dialogue β φ ε α} {f : α → Dialogue β φ ε γ} {wire next : Wire β φ}

theorem bind_ok {a : α} (first : m wire = (.ok a, next)) : (m >>= f) wire = f a next := by
  change Dialogue.bind m f wire = f a next
  rw [Dialogue.bind, first]

theorem bind_error {error : ε} (first : m wire = (.error error, next)) : (m >>= f) wire = (.error error, next) := by
  change Dialogue.bind m f wire = (.error error, next)
  rw [Dialogue.bind, first]

/-- A sequence succeeds only through a successful first part. -/
theorem bind_eq_ok {c : γ} (success : (m >>= f) wire = (.ok c, next)) :
    ∃ a middle, m wire = (.ok a, middle) ∧ f a middle = (.ok c, next) := by
  cases first : m wire with
  | mk result middle =>
    cases result with
    | error error =>
      rw [bind_error first] at success
      cases success
    | ok a => exact ⟨a, middle, rfl, (bind_ok first).symm.trans success⟩

section Forward

/-- In front of every suffix, `m` consumes exactly `used`, with so many writes, and returns `a`. -/
def Reads (m : Dialogue β φ ε α) (used : List β) (writes : ℕ) (a : α) : Prop :=
  ∀ wire rest, pending wire.chunks = used ++ rest → writes ≤ wire.writes →
    ∃ next, m wire = (.ok a, next) ∧ pending next.chunks = rest ∧ wire.writes = writes + next.writes

theorem Reads.pure (a : α) : Reads (Pure.pure a : Dialogue β φ ε α) [] 0 a :=
  fun wire _ split _ => ⟨wire, rfl, split, (Nat.zero_add _).symm⟩

theorem Reads.bind {first second used : List β} {i j writes : ℕ} {a : α} {c : γ} (left : Reads m first i a)
    (right : Reads (f a) second j c) (whole : used = first ++ second) (total : writes = i + j) :
    Reads (m >>= f) used writes c := by
  intro wire rest split enough
  obtain ⟨middle, started, read, spent⟩ :=
    left wire (second ++ rest) (by rw [split, whole, append_assoc]) (by omega)
  obtain ⟨next, finished, done, spentMore⟩ := right middle rest read (by omega)
  exact ⟨next, (bind_ok started).trans finished, done, by omega⟩

theorem reads_writeAll (refused : Ending → ε) (phase : φ) (tokens : List β) :
    Reads (writeAll refused phase tokens) [] 1 () := by
  intro wire rest split enough
  obtain ⟨left, spent⟩ := Nat.exists_eq_add_of_le' enough
  refine ⟨{ wire with writes := left, log := wire.log ++ [.wrote phase tokens] }, ?_, split,
    spent.trans (Nat.add_comm left 1)⟩
  simp only [writeAll, spent]

theorem reads_readExact (ended : Ending → ε) (phase : φ) {tokens : List β} {count : ℕ}
    (length : tokens.length = count) : Reads (readExact ended phase count) tokens 0 tokens := by
  intro wire rest split _
  have enough : tokens.length ≤ (pending wire.chunks).length := by simp [split]
  obtain ⟨left, filled, same⟩ := fill_of_le enough
  rw [split, take_left, length] at filled
  rw [split, drop_left] at same
  refine ⟨{ wire with chunks := left, log := wire.log ++ [.read phase tokens] }, ?_, same, (Nat.zero_add _).symm⟩
  simp only [readExact, filled]

end Forward

section Converse

/-- Whatever `m` consumed, and the writes it made, are derived by the grammar for the value it returned. -/
def Sound (m : Dialogue β φ ε α) (grammar : List β → ℕ → α → Prop) : Prop :=
  ∀ wire next a, m wire = (.ok a, next) → ∃ used writes, grammar used writes a ∧
    pending wire.chunks = used ++ pending next.chunks ∧ wire.writes = writes + next.writes

theorem Sound.pure (a : α) :
    Sound (Pure.pure a : Dialogue β φ ε α) fun used writes b => used = [] ∧ writes = 0 ∧ b = a := by
  intro wire next b success
  cases success
  exact ⟨[], 0, ⟨rfl, rfl, rfl⟩, rfl, (Nat.zero_add _).symm⟩

theorem Sound.fail (error : ε) (grammar : List β → ℕ → α → Prop) : Sound (fail error : Dialogue β φ ε α) grammar := by
  intro wire next a success
  cases success

theorem Sound.bind {grammar : List β → ℕ → α → Prop} {goal : List β → ℕ → γ → Prop} (left : Sound m grammar)
    (right : ∀ first i a, grammar first i a → Sound (f a) fun second j c => goal (first ++ second) (i + j) c) :
    Sound (m >>= f) goal := by
  intro wire next c success
  obtain ⟨a, middle, started, finished⟩ := bind_eq_ok success
  obtain ⟨first, i, derived, split, spent⟩ := left _ _ _ started
  obtain ⟨second, j, reached, splitMore, spentMore⟩ := right first i a derived _ _ _ finished
  refine ⟨first ++ second, i + j, reached, ?_, by omega⟩
  rw [split, splitMore, append_assoc]

theorem Sound.mono {grammar weaker : List β → ℕ → α → Prop} (left : Sound m grammar)
    (implied : ∀ used writes a, grammar used writes a → weaker used writes a) : Sound m weaker := by
  intro wire next a success
  obtain ⟨used, writes, derived, split, spent⟩ := left wire next a success
  exact ⟨used, writes, implied used writes a derived, split, spent⟩

theorem sound_writeAll (refused : Ending → ε) (phase : φ) (tokens : List β) :
    Sound (writeAll refused phase tokens) fun used writes _ => used = [] ∧ writes = 1 := by
  intro wire next a success
  unfold writeAll at success
  split at success
  · cases success
  · rename_i left spent
    cases success
    exact ⟨[], 1, ⟨rfl, rfl⟩, rfl, spent.trans (Nat.add_comm left 1)⟩

theorem sound_readExact (ended : Ending → ε) (phase : φ) (count : ℕ) :
    Sound (readExact ended phase count : Dialogue β φ ε (List β)) fun used writes tokens =>
      used = tokens ∧ writes = 0 ∧ tokens.length = count := by
  intro wire next tokens success
  unfold readExact at success
  split at success
  · rename_i filled
    cases success
    obtain ⟨length, split⟩ := fill_eq_some filled
    exact ⟨tokens, 0, ⟨rfl, rfl, length⟩, split, (Nat.zero_add _).symm⟩
  · cases success

end Converse

section Safety

/-- Everything in the log was allowed by what came before it. -/
def Guarded (allowed : List (Traffic β φ) → Traffic β φ → Prop) (log : List (Traffic β φ)) : Prop :=
  ∀ before entry after, log = before ++ entry :: after → allowed before entry

variable {allowed : List (Traffic β φ) → Traffic β φ → Prop}

theorem guarded_nil : Guarded allowed ([] : List (Traffic β φ)) :=
  fun _ _ _ split => absurd split (by simp)

theorem Guarded.concat {log : List (Traffic β φ)} {entry : Traffic β φ} (guarded : Guarded allowed log)
    (now : allowed log entry) : Guarded allowed (log ++ [entry]) := by
  intro before other after split
  obtain rfl | ⟨rest, final, rfl⟩ := eq_nil_or_concat after
  · obtain ⟨rfl, same⟩ := append_inj' split rfl
    cases same
    exact now
  · rw [concat_eq_append, ← cons_append, ← append_assoc] at split
    exact guarded before other rest (append_inj' split rfl).1

/-- From a guarded log with `before`, `m` leaves a guarded log, and one with `after` if it returns. -/
def Keeps (allowed : List (Traffic β φ) → Traffic β φ → Prop) (before : List (Traffic β φ) → Prop)
    (m : Dialogue β φ ε α) (after : α → List (Traffic β φ) → Prop) : Prop :=
  ∀ wire, Guarded allowed wire.log → before wire.log →
    Guarded allowed (m wire).2.log ∧ ∀ a, (m wire).1 = .ok a → after a (m wire).2.log

variable {before : List (Traffic β φ) → Prop} {after : α → List (Traffic β φ) → Prop}

theorem Keeps.pure {a : α} : Keeps allowed (after a) (Pure.pure a : Dialogue β φ ε α) after := by
  intro wire guarded holds
  refine ⟨guarded, fun b same => ?_⟩
  cases same
  exact holds

theorem Keeps.fail (error : ε) : Keeps allowed before (fail error : Dialogue β φ ε α) after :=
  fun _ guarded _ => ⟨guarded, fun _ same => absurd same (by simp [Dialogue.fail])⟩

theorem Keeps.bind {final : γ → List (Traffic β φ) → Prop} (left : Keeps allowed before m after)
    (right : ∀ a, Keeps allowed (after a) (f a) final) : Keeps allowed before (m >>= f) final := by
  intro wire guarded holds
  obtain ⟨kept, reached⟩ := left wire guarded holds
  cases first : m wire with
  | mk result middle =>
    rw [first] at kept reached
    cases result with
    | error error =>
      rw [bind_error first]
      exact ⟨kept, fun _ same => absurd same (by simp)⟩
    | ok a =>
      rw [bind_ok first]
      exact right a middle kept (reached a rfl)

theorem Keeps.weaken {earlier : List (Traffic β φ) → Prop} {later : α → List (Traffic β φ) → Prop}
    (kept : Keeps allowed before m after) (first : ∀ log, earlier log → before log)
    (last : ∀ a log, after a log → later a log) : Keeps allowed earlier m later := by
  intro wire guarded holds
  obtain ⟨said, reached⟩ := kept wire guarded (first _ holds)
  exact ⟨said, fun a same => last a _ (reached a same)⟩

/-- A fact about the log's past that does not mention it is a plain hypothesis. -/
theorem Keeps.assume {fact : Prop} (kept : fact → Keeps allowed before m after) :
    Keeps allowed (fun log => fact ∧ before log) m after :=
  fun wire guarded holds => kept holds.1 wire guarded holds.2

theorem keeps_writeAll {refused : Ending → ε} {phase : φ} {tokens : List β}
    (now : ∀ log, before log → allowed log (.wrote phase tokens)) :
    Keeps allowed before (writeAll refused phase tokens) fun _ log =>
      ∃ earlier, before earlier ∧ log = earlier ++ [.wrote phase tokens] := by
  intro wire guarded holds
  have said := guarded.concat (now wire.log holds)
  unfold writeAll
  split
  · exact ⟨said, fun _ same => absurd same (by simp)⟩
  · exact ⟨said, fun _ _ => ⟨wire.log, holds, rfl⟩⟩

theorem keeps_readExact {ended : Ending → ε} {phase : φ} {count : ℕ}
    (now : ∀ log tokens, before log → allowed log (.read phase tokens)) :
    Keeps allowed before (readExact ended phase count : Dialogue β φ ε (List β)) fun tokens log =>
      tokens.length = count ∧ ∃ earlier, before earlier ∧ log = earlier ++ [.read phase tokens] := by
  intro wire guarded holds
  unfold readExact
  split
  · rename_i filled
    refine ⟨guarded.concat (now wire.log _ holds), fun tokens same => ?_⟩
    cases same
    exact ⟨(fill_eq_some filled).1, wire.log, holds, rfl⟩
  · exact ⟨guarded, fun _ same => absurd same (by simp)⟩

end Safety

end Dialogue

end MineRider.Machine.Duplex
