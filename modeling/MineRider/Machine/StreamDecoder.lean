import Mathlib.Data.List.Basic

/-! # Incremental decoders and the way a stream is cut

A decoder looks at the front of its buffer and either asks for more tokens, takes one item, or
fails. When items and failures survive appended tokens, what a reader obtains depends only on the
concatenated stream: `pull` may find a buffer cut anywhere, yet it returns exactly the item, the
failure or the end of input that one attempt at the whole stream would report.
-/

namespace MineRider.Machine

open List

/-- One attempt to decode from the front of a buffer. -/
inductive Attempt (β α ε : Type) where
  | more
  | item (a : α) (rest : List β)
  | fail (e : ε)

/-- A decoder whose decisions are never revised by later tokens. -/
structure StreamDecoder (β α ε : Type) where
  attempt : List β → Attempt β α ε
  item_append : ∀ {buf a rest}, attempt buf = .item a rest →
    ∀ suffix, attempt (buf ++ suffix) = .item a (rest ++ suffix)
  fail_append : ∀ {buf e}, attempt buf = .fail e → ∀ suffix, attempt (buf ++ suffix) = .fail e

namespace StreamDecoder

variable {β α ε : Type} (decoder : StreamDecoder β α ε)

/-- Attempt, and append the next chunk while more tokens are needed. The result keeps the
undecoded buffer and the chunks not yet read; `none` is the end of input. -/
def pull : List β → List (List β) → Except (Option ε) (α × List β × List (List β))
  | buf, [] =>
    match decoder.attempt buf with
    | .item a rest => .ok (a, rest, [])
    | .fail e => .error (some e)
    | .more => .error none
  | buf, chunk :: later =>
    match decoder.attempt buf with
    | .item a rest => .ok (a, rest, chunk :: later)
    | .fail e => .error (some e)
    | .more => pull (buf ++ chunk) later

variable {decoder}

theorem pull_of_item {buf rest : List β} {a : α} (now : decoder.attempt buf = .item a rest)
    (chunks : List (List β)) : decoder.pull buf chunks = .ok (a, rest, chunks) := by
  cases chunks <;> rw [pull, now]

variable {buf : List β}

theorem pull_of_fail {e : ε} (now : decoder.attempt buf = .fail e)
    (chunks : List (List β)) : decoder.pull buf chunks = .error (some e) := by
  cases chunks <;> rw [pull, now]

theorem pull_of_more (now : decoder.attempt buf = .more) (chunk : List β)
    (later : List (List β)) : decoder.pull buf (chunk :: later) = decoder.pull (buf ++ chunk) later := by
  rw [pull, now]

theorem pull_nil (now : decoder.attempt buf = .more) :
    decoder.pull buf [] = .error none := by
  rw [pull, now]

/-- What pulling from some buffer and chunks must produce, judged from one attempt at the whole
stream: its item with exactly the rest of the stream left over, its failure, or the end of input.
The chunks still to be read are some of the original ones. -/
def Agrees (chunks : List (List β)) (pulled : Except (Option ε) (α × List β × List (List β))) :
    Attempt β α ε → Prop
  | .item a rest => ∃ buf' chunks', pulled = .ok (a, buf', chunks') ∧
      buf' ++ chunks'.flatten = rest ∧ chunks' <:+ chunks
  | .fail e => pulled = .error (some e)
  | .more => pulled = .error none

/-- Pulling agrees with one attempt at the whole stream, however the stream is cut. -/
theorem pull_agrees (chunks : List (List β)) (buf : List β) :
    Agrees chunks (decoder.pull buf chunks) (decoder.attempt (buf ++ chunks.flatten)) := by
  induction chunks generalizing buf with
  | nil =>
    rw [flatten_nil, append_nil]
    cases now : decoder.attempt buf with
    | item a rest => exact ⟨rest, [], pull_of_item now _, append_nil _, suffix_rfl⟩
    | fail e => exact pull_of_fail now _
    | more => exact pull_nil now
  | cons chunk later ih =>
    cases now : decoder.attempt buf with
    | item a rest =>
      rw [decoder.item_append now]
      exact ⟨rest, chunk :: later, pull_of_item now _, rfl, suffix_rfl⟩
    | fail e =>
      rw [decoder.fail_append now]
      exact pull_of_fail now _
    | more =>
      rw [pull_of_more now, flatten_cons, ← append_assoc]
      have after := ih (buf ++ chunk)
      cases whole : decoder.attempt (buf ++ chunk ++ later.flatten) with
      | item a rest =>
        rw [whole] at after
        obtain ⟨buf', chunks', pulled, left, suffix⟩ := after
        exact ⟨buf', chunks', pulled, left, suffix.trans (suffix_cons ..)⟩
      | fail e | more => rwa [whole] at after

/-- An item of the whole stream is delivered however the stream is cut. -/
theorem pull_item (chunks : List (List β)) {buf rest : List β} {a : α}
    (whole : decoder.attempt (buf ++ chunks.flatten) = .item a rest) :
    ∃ buf' chunks', decoder.pull buf chunks = .ok (a, buf', chunks') ∧
      buf' ++ chunks'.flatten = rest ∧ chunks' <:+ chunks := by
  have agrees := decoder.pull_agrees chunks buf
  rwa [whole] at agrees

/-- Two cuts of one stream give the same item and leave the same stream, or fail alike. -/
theorem pull_congr (decoder : StreamDecoder β α ε) {buf₁ buf₂ : List β} {chunks₁ chunks₂ : List (List β)}
    (same : buf₁ ++ chunks₁.flatten = buf₂ ++ chunks₂.flatten) :
    (∃ a left₁ left₂, decoder.pull buf₁ chunks₁ = .ok (a, left₁) ∧
      decoder.pull buf₂ chunks₂ = .ok (a, left₂) ∧
      left₁.1 ++ left₁.2.flatten = left₂.1 ++ left₂.2.flatten) ∨
    ∃ e, decoder.pull buf₁ chunks₁ = .error e ∧ decoder.pull buf₂ chunks₂ = .error e := by
  have agrees₁ := decoder.pull_agrees chunks₁ buf₁
  have agrees₂ := decoder.pull_agrees chunks₂ buf₂
  rw [← same] at agrees₂
  cases whole : decoder.attempt (buf₁ ++ chunks₁.flatten) with
  | item a rest =>
    rw [whole] at agrees₁ agrees₂
    obtain ⟨b₁, c₁, pulled₁, left₁, _⟩ := agrees₁
    obtain ⟨b₂, c₂, pulled₂, left₂, _⟩ := agrees₂
    exact .inl ⟨a, (b₁, c₁), (b₂, c₂), pulled₁, pulled₂, left₁.trans left₂.symm⟩
  | fail e =>
    rw [whole] at agrees₁ agrees₂
    exact .inr ⟨some e, agrees₁, agrees₂⟩
  | more =>
    rw [whole] at agrees₁ agrees₂
    exact .inr ⟨none, agrees₁, agrees₂⟩

end StreamDecoder

end MineRider.Machine
