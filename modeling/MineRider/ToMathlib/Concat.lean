import Mathlib.Data.List.Defs

/-! # Lists with one more element at the end -/

namespace List

variable {α : Type*} {a b : α} {l : List α} {P : α → Prop}

theorem mem_concat_iff : a ∈ l ++ [b] ↔ a ∈ l ∨ a = b := by
  rw [mem_append, mem_singleton]

theorem forall_mem_concat : (∀ a ∈ l ++ [b], P a) ↔ (∀ a ∈ l, P a) ∧ P b := by
  rw [forall_mem_append, forall_mem_singleton]

end List
