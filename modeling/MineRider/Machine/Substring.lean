import Mathlib.Data.List.Infix

/-! # Texts that are free of a word

Splitting a text at a word leaves pieces without the word, but what stands between the pieces afterwards can complete
it again: a piece, the text put in its place and the next piece need not be free of the word although each of them is.
They are if the word is apart from that text, that is, if no occurrence of the word anywhere can share a position with
it. The same notion serves for texts made of a fixed frame with variable contents, and for texts in which single
characters are replaced by escape sequences.
-/

namespace MineRider.Machine

open List

variable {α : Type}

section Splitting

variable [DecidableEq α] (word : List α)

/-- Splits the rest of a text; the next `skip` characters belong to an occurrence that was found, and `piece` is
what has been read since the last one. -/
def splitFrom : ℕ → List α → List α → List (List α)
  | _, piece, [] => [piece]
  | skip + 1, piece, _ :: rest => splitFrom skip piece rest
  | 0, piece, c :: rest =>
    if word <+: c :: rest then piece :: splitFrom (word.length - 1) [] rest else splitFrom 0 (piece ++ [c]) rest

/-- The pieces of a text between the occurrences of a word, which are searched from the left without overlap. -/
def splitAtWord (text : List α) : List (List α) := splitFrom word 0 [] text

def replaceWord (replacement text : List α) : List α := replacement.intercalate (splitAtWord word text)

end Splitting

/-- The word does not occur in the text. -/
def Free (word text : List α) : Prop := ¬ word <:+: text

/-- No occurrence of the word in a text around `text` shares a position with it. -/
def Apart (word text : List α) : Prop :=
  ∀ before after left right, before ++ word ++ after = left ++ text ++ right →
    before.length + word.length ≤ left.length ∨ left.length + text.length ≤ before.length

section Free

variable {word text other : List α}

theorem Free.of_infix (free : Free word text) (inside : other <:+: text) : Free word other :=
  fun occurs => free (occurs.trans inside)

theorem Free.nil (nonempty : word ≠ []) : Free word [] := fun occurs => nonempty (infix_nil.mp occurs)

section

variable (apart : Apart word text)

include apart

/-- Nothing apart from the word can complete it. -/
theorem Apart.free_append {left right : List α} (before : Free word left)
    (after : Free word right) : Free word (left ++ text ++ right) := by
  rintro ⟨u, v, same⟩
  rcases apart u v left right same with inLeft | inRight
  · have start : left <+: left ++ text ++ right := ⟨text ++ right, by simp⟩
    have occurs : u ++ word <+: left ++ text ++ right := ⟨v, same⟩
    have within := prefix_of_prefix_length_le occurs start (by simpa using inLeft)
    exact before ((suffix_append u word).isInfix.trans within.isInfix)
  · have total := congrArg List.length same
    simp only [length_append] at total
    have ending : right <:+ left ++ text ++ right := ⟨left ++ text, rfl⟩
    have occurs : word ++ v <:+ left ++ text ++ right := ⟨u, by simpa using same⟩
    have within := suffix_of_suffix_length_le occurs ending (by rw [length_append]; omega)
    exact after ((prefix_append word v).isInfix.trans within.isInfix)

theorem Apart.free_left {right : List α} (nonempty : word ≠ []) (after : Free word right) :
    Free word (text ++ right) := by
  simpa using apart.free_append (Free.nil nonempty) after

theorem Apart.free_right {left : List α} (nonempty : word ≠ []) (before : Free word left) :
    Free word (left ++ text) := by
  simpa using apart.free_append before (Free.nil nonempty)

theorem free_intercalate (nonempty : word ≠ []) {pieces : List (List α)}
    (free : ∀ piece ∈ pieces, Free word piece) : Free word (text.intercalate pieces) := by
  induction pieces with
  | nil => simpa using Free.nil nonempty
  | cons piece pieces ih =>
    have here := free piece (mem_cons_self ..)
    have rest := ih fun other member => free other (mem_cons_of_mem _ member)
    cases pieces with
    | nil => simpa using here
    | cons next pieces =>
      rw [intercalate_cons_cons]
      exact apart.free_append here rest

end

theorem mem_of_mem_intercalate {separator : List α} {pieces : List (List α)} {c : α}
    (member : c ∈ separator.intercalate pieces) : c ∈ separator ∨ ∃ piece ∈ pieces, c ∈ piece := by
  induction pieces with
  | nil => simp at member
  | cons piece pieces ih =>
    cases pieces with
    | nil => exact .inr ⟨piece, mem_cons_self .., by simpa using member⟩
    | cons next pieces =>
      rw [intercalate_cons_cons, mem_append, mem_append] at member
      rcases member with (here | between) | later
      · exact .inr ⟨piece, mem_cons_self .., here⟩
      · exact .inl between
      · obtain separating | ⟨other, listed, inside⟩ := ih later
        · exact .inl separating
        · exact .inr ⟨other, mem_cons_of_mem _ listed, inside⟩

/-- A word is apart from a text that has no character of it. -/
theorem apart_of_disjoint (nonempty : word ≠ []) (text_nonempty : text ≠ []) (disjoint : ∀ c ∈ word, c ∉ text) :
    Apart word text := by
  intro before after left right same
  by_contra! overlap
  have wordLength := length_pos_of_ne_nil nonempty
  have textLength := length_pos_of_ne_nil text_nonempty
  -- The first position that both share.
  obtain ⟨i, inWord, inText⟩ : ∃ i, (before.length ≤ i ∧ i < before.length + word.length) ∧
      left.length ≤ i ∧ i < left.length + text.length := ⟨max before.length left.length, by omega, by omega⟩
  have shared : word[i - before.length]? = text[i - left.length]? := by
    have here := congrArg (fun whole => whole[i]?) same
    simp only [append_assoc] at here
    rwa [getElem?_append_right inWord.1, getElem?_append_left (by omega),
      getElem?_append_right inText.1, getElem?_append_left (by omega)] at here
  rw [getElem?_eq_getElem (by omega)] at shared
  exact disjoint _ (getElem_mem _) (mem_of_getElem? shared.symm)

/-- A piece is free of the word if no occurrence was seen to start in it. -/
theorem free_of_unseen (nonempty : word ≠ []) {piece text : List α}
    (unseen : ∀ n < piece.length, ¬ word <+: (piece ++ text).drop n) : Free word piece := by
  rintro ⟨before, after, rfl⟩
  refine unseen before.length ?_ ?_
  · have := length_pos_of_ne_nil nonempty
    simp only [length_append]
    omega
  · simp only [append_assoc, drop_left]
    exact prefix_append word _

end Free

section Splitting

variable [DecidableEq α] {word : List α}

theorem splitFrom_free (nonempty : word ≠ []) (text : List α) (skip : ℕ) (piece : List α)
    (fresh : 0 < skip → piece = []) (unseen : ∀ n < piece.length, ¬ word <+: (piece ++ text).drop n) :
    ∀ found ∈ splitFrom word skip piece text, Free word found := by
  induction text generalizing skip piece with
  | nil =>
    intro found member
    rw [splitFrom, mem_singleton] at member
    exact member ▸ free_of_unseen nonempty unseen
  | cons c rest ih =>
    cases skip with
    | succ skip =>
      obtain rfl := fresh (Nat.succ_pos skip)
      rw [splitFrom]
      exact ih skip [] (fun _ => rfl) (by simp)
    | zero =>
      rw [splitFrom]
      split
      · intro found member
        rcases mem_cons.mp member with rfl | later
        · exact free_of_unseen nonempty unseen
        · exact ih _ [] (fun _ => rfl) (by simp) found later
      · rename_i absent
        refine ih 0 (piece ++ [c]) (fun skipping => absurd skipping (lt_irrefl 0)) fun n inside => ?_
        rw [append_assoc, singleton_append]
        rcases Nat.lt_or_ge n piece.length with earlier | last
        · exact unseen n earlier
        · obtain rfl : n = piece.length := by
            rw [length_append, length_singleton] at inside
            omega
          rwa [drop_left]

theorem splitAtWord_free (nonempty : word ≠ []) (text : List α) : ∀ piece ∈ splitAtWord word text, Free word piece :=
  splitFrom_free nonempty text 0 [] (fun _ => rfl) (by simp)

theorem mem_of_mem_splitFrom (text : List α) {skip : ℕ} {piece found : List α} {c : α}
    (member : found ∈ splitFrom word skip piece text) (inside : c ∈ found) : c ∈ piece ∨ c ∈ text := by
  induction text generalizing skip piece with
  | nil =>
    rw [splitFrom, mem_singleton] at member
    exact .inl (member ▸ inside)
  | cons first rest ih =>
    cases skip with
    | succ skip =>
      rw [splitFrom] at member
      exact (ih member).imp_right (mem_cons_of_mem first)
    | zero =>
      rw [splitFrom] at member
      split at member
      · rcases mem_cons.mp member with rfl | later
        · exact .inl inside
        · exact .inr (mem_cons_of_mem first ((ih later).resolve_left (not_mem_nil)))
      · have known := ih member
        simp only [mem_append, mem_cons] at known ⊢
        tauto

theorem mem_of_mem_replaceWord {replacement text : List α} {c : α} (member : c ∈ replaceWord word replacement text) :
    c ∈ replacement ∨ c ∈ text := by
  obtain separating | ⟨piece, listed, inside⟩ := mem_of_mem_intercalate member
  · exact .inl separating
  · exact .inr ((mem_of_mem_splitFrom text listed inside).resolve_left not_mem_nil)

/-- A word is gone once it is replaced by something apart from it. -/
theorem replaceWord_free (nonempty : word ≠ []) {replacement : List α} (apart : Apart word replacement)
    (text : List α) : Free word (replaceWord word replacement text) :=
  free_intercalate apart nonempty (splitAtWord_free nonempty text)

end Splitting

section Escaping

/-- `escaped` is the text with some characters replaced, each by something apart from the word. -/
inductive Escapes (word : List α) : List α → List α → Prop where
  | nil : Escapes word [] []
  | keep (c : α) {text escaped : List α} (rest : Escapes word text escaped) : Escapes word (c :: text) (c :: escaped)
  | replace (c : α) {text escaped sequence : List α} (apart : Apart word sequence) (rest : Escapes word text escaped) :
    Escapes word (c :: text) (sequence ++ escaped)

theorem Escapes.free {word text escaped : List α} (escapes : Escapes word text escaped) (free : Free word text) :
    Free word escaped := by
  suffices general : ∀ kept, Free word (kept ++ text) → Free word (kept ++ escaped) from general [] free
  clear free
  induction escapes with
  | nil => exact fun _ free => free
  | keep c _ ih =>
    intro kept free
    have := ih (kept ++ [c]) (by simpa using free)
    simpa using this
  | replace c apart _ ih =>
    intro kept free
    rw [← append_assoc]
    refine apart.free_append (free.of_infix (prefix_append _ _).isInfix) ?_
    exact ih [] (free.of_infix ⟨kept ++ [c], [], by simp⟩)

end Escaping

end MineRider.Machine
