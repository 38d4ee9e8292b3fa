import Mathlib.Data.List.AList

/-! # Retaining part of an association list

Mathlib's association lists have no counterpart of a retain that may also rewrite the values it
keeps. `retainValues` keeps the keys whose value has a new value, and looking up a key commutes
with it. The definition and its lookup law belong beside `AList.replace` upstream.
-/

namespace List

variable {α : Type*} {β : α → Type*}

theorem keys_filterMap_sublist (f : ∀ a, β a → Option (β a)) (l : List (Sigma β)) :
    (l.filterMap fun e => (f e.1 e.2).map (Sigma.mk e.1)).keys.Sublist l.keys := by
  induction l with
  | nil => exact .slnil
  | cons e rest ih =>
    cases kept : f e.1 e.2 with
    | none =>
      rw [filterMap_cons_none (by rw [kept]; rfl), keys_cons]
      exact ih.cons _
    | some b =>
      rw [filterMap_cons_some (by rw [kept]; rfl), keys_cons, keys_cons]
      exact ih.cons_cons _

end List

namespace AList

variable {α : Type*} {β : α → Type*}

/-- Keep the keys whose value is kept, with the value `f` gives them. -/
def retainValues (f : ∀ a, β a → Option (β a)) (s : AList β) : AList β where
  entries := s.entries.filterMap fun e => (f e.1 e.2).map (Sigma.mk e.1)
  nodupKeys := List.Nodup.sublist (List.keys_filterMap_sublist f s.entries) s.nodupKeys

theorem keys_retainValues_sublist (f : ∀ a, β a → Option (β a)) (s : AList β) :
    (s.retainValues f).keys.Sublist s.keys := List.keys_filterMap_sublist f s.entries

variable [DecidableEq α]

theorem lookup_retainValues (f : ∀ a, β a → Option (β a)) (s : AList β) (a : α) :
    (s.retainValues f).lookup a = (s.lookup a).bind (f a) := by
  ext b
  rw [← Option.mem_def, ← Option.mem_def, mem_lookup_iff, Option.mem_bind_iff]
  simp only [retainValues, List.mem_filterMap, Option.map_eq_some_iff]
  constructor
  · rintro ⟨⟨key, value⟩, member, kept, found, same⟩
    cases same
    exact ⟨value, mem_lookup_iff.mpr member, found⟩
  · rintro ⟨value, member, kept⟩
    exact ⟨⟨a, value⟩, mem_lookup_iff.mp member, b, kept, rfl⟩

end AList
