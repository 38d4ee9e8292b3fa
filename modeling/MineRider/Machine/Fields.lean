import Mathlib.Data.Nat.Bitwise
import Mathlib.Data.Nat.Notation

/-! # Fields packed into words

A field is a window of bits of a word. Writing a value into an empty window by a bitwise or sets that
field and leaves every field outside the window as it was. A sequence of values is packed with a fixed
number of fields to the word; reading it back gives the sequence.
-/

namespace MineRider.Machine

open List

/-- The `width` bits of `word` from bit `shift` on. -/
def field (word shift width : ℕ) : ℕ := (word >>> shift) % 2 ^ width

section Windows

variable {word value shift other width : ℕ}

theorem testBit_field (word shift width bit : ℕ) :
    (field word shift width).testBit bit = (decide (bit < width) && word.testBit (shift + bit)) := by
  rw [field, Nat.testBit_mod_two_pow, Nat.testBit_shiftRight]

@[simp] theorem field_zero (shift width : ℕ) : field 0 shift width = 0 := by
  simp [field]

/-- A bit of a value beyond its width is not set. -/
theorem testBit_eq_false {bit : ℕ} (fits : value < 2 ^ width) (beyond : width ≤ bit) : value.testBit bit = false :=
  Nat.testBit_lt_two_pow (fits.trans_le (Nat.pow_le_pow_right (by decide) beyond))

theorem field_or_same (fits : value < 2 ^ width) (empty : field word shift width = 0) :
    field (word ||| value <<< shift) shift width = value := by
  apply Nat.eq_of_testBit_eq
  intro bit
  have clear := congrArg (fun n => n.testBit bit) empty
  simp only [testBit_field, Nat.zero_testBit] at clear
  rw [testBit_field, Nat.testBit_or, Nat.testBit_shiftLeft]
  by_cases inside : bit < width
  · simp only [inside, decide_true, Bool.true_and] at clear ⊢
    simp [clear]
  · rw [testBit_eq_false fits (not_lt.mp inside)]
    simp [inside]

theorem field_or_apart (fits : value < 2 ^ width) (apart : shift + width ≤ other ∨ other + width ≤ shift) :
    field (word ||| value <<< shift) other width = field word other width := by
  apply Nat.eq_of_testBit_eq
  intro bit
  rw [testBit_field, testBit_field, Nat.testBit_or, Nat.testBit_shiftLeft]
  by_cases inside : bit < width
  · have outside : (decide (shift ≤ other + bit) && value.testBit (other + bit - shift)) = false := by
      rcases apart with below | above
      · rw [testBit_eq_false fits (by omega), Bool.and_false]
      · have before : ¬ shift ≤ other + bit := by omega
        simp [before]
    rw [outside, Bool.or_false]
  · simp [inside]

end Windows

section Sequences

variable {perWord width : ℕ}

/-- The place of the `i`-th field among words of `perWord` fields each. -/
def readField (perWord width : ℕ) (words : List ℕ) (i : ℕ) : Option ℕ :=
  words[i / perWord]?.map fun word => field word (i % perWord * width) width

/-- Writes the values one after the other, the first at place `i`. -/
def packFrom (perWord width : ℕ) : ℕ → List ℕ → List ℕ → List ℕ
  | _, words, [] => words
  | i, words, value :: rest =>
    packFrom perWord width (i + 1)
      (words.modify (i / perWord) fun word => word ||| value <<< (i % perWord * width)) rest

/-- Two places of one word have windows that do not meet. -/
theorem windows_apart {a b : ℕ} (different : a ≠ b) (width : ℕ) :
    a * width + width ≤ b * width ∨ b * width + width ≤ a * width := by
  rcases Nat.lt_or_gt_of_ne different with before | after
  · left
    rw [← Nat.succ_mul]
    exact Nat.mul_le_mul_right width before
  · right
    rw [← Nat.succ_mul]
    exact Nat.mul_le_mul_right width after

theorem readField_modify {words : List ℕ} {i value : ℕ} (fits : value < 2 ^ width)
    (empty : readField perWord width words i = some 0) (j : ℕ) :
    readField perWord width (words.modify (i / perWord) fun word => word ||| value <<< (i % perWord * width)) j =
      if j = i then some value else readField perWord width words j := by
  unfold readField at empty ⊢
  by_cases same : j = i
  · subst same
    obtain ⟨word, found, zero⟩ := Option.map_eq_some_iff.mp empty
    rw [if_pos rfl, getElem?_modify_eq, found, Option.map_eq_map, Option.map_some, Option.map_some,
      field_or_same fits zero]
  · rw [if_neg same]
    by_cases shared : i / perWord = j / perWord
    · have different : i % perWord ≠ j % perWord := by
        intro equal
        apply same
        rw [← Nat.div_add_mod j perWord, ← Nat.div_add_mod i perWord, shared, equal]
      rw [shared, getElem?_modify_eq]
      cases words[j / perWord]? with
      | none => rfl
      | some word => exact congrArg some (field_or_apart fits (windows_apart different width))
    · rw [getElem?_modify_ne _ _ shared]

/-- Reading back a packed sequence: its places hold the values, and all others what they held before. -/
theorem readField_packFrom {values : List ℕ} (fits : ∀ value ∈ values, value < 2 ^ width) {i : ℕ} {words : List ℕ}
    (empty : ∀ j, i ≤ j → j < i + values.length → readField perWord width words j = some 0) (j : ℕ) :
    readField perWord width (packFrom perWord width i words values) j =
      if i ≤ j ∧ j < i + values.length then values[j - i]? else readField perWord width words j := by
  induction values generalizing i words with
  | nil =>
    have outside : ¬ (i ≤ j ∧ j < i + 0) := by omega
    rw [length_nil, if_neg outside]
    rfl
  | cons value rest ih =>
    have first : readField perWord width words i = some 0 := empty i le_rfl (by simp)
    have written := readField_modify (fits value mem_cons_self) first
    have blank : ∀ k, i + 1 ≤ k → k < i + 1 + rest.length → readField perWord width
        (words.modify (i / perWord) fun word => word ||| value <<< (i % perWord * width)) k = some 0 := by
      intro k above below
      rw [written, if_neg (by omega)]
      exact empty k (by omega) (by rw [length_cons]; omega)
    rw [packFrom, ih (fun other member => fits other (mem_cons_of_mem value member)) blank, written, length_cons]
    by_cases same : j = i
    · subst same
      simp
    · by_cases inside : i ≤ j ∧ j < i + (rest.length + 1)
      · have offset : j - i = (j - (i + 1)) + 1 := by omega
        rw [if_pos inside, if_pos (by omega), offset, getElem?_cons_succ]
      · rw [if_neg inside, if_neg (by omega), if_neg same]

end Sequences

end MineRider.Machine
