import Mathlib.Data.List.Perm.Basic

/-! # Calls in progress

Calls that run beside each other, kept in the order they were made. A caller is the place of its call, so
new calls go to the end and a call that moves on replaces itself. `Each` is a property of all of them.
-/

namespace MineRider.Machine

open List

variable {α : Type} {calls : List α} {caller : ℕ} {call next : α} {holds : ℕ → α → Prop}

theorem lookup_set (found : calls[caller]? = some call) (next : α) (other : ℕ) :
    (calls.set caller next)[other]? = if other = caller then some next else calls[other]? := by
  have inside : caller < calls.length := (List.getElem?_eq_some_iff.mp found).1
  rw [getElem?_set]
  by_cases same : caller = other
  · rw [if_pos same, if_pos inside, if_pos same.symm]
  · rw [if_neg same, if_neg (Ne.symm same)]

/-- Every call has the property, which may depend on who calls. -/
def Each (holds : ℕ → α → Prop) (calls : List α) : Prop := ∀ caller call, calls[caller]? = some call → holds caller call

theorem Each.nil : Each holds [] := fun _ _ found => absurd found (by simp)

theorem Each.mono {weaker : ℕ → α → Prop} (each : Each holds calls)
    (implies : ∀ caller call, calls[caller]? = some call → holds caller call → weaker caller call) :
    Each weaker calls := fun caller call found => implies caller call found (each caller call found)

/-- Someone calls. -/
theorem Each.snoc (each : Each holds calls) (new : holds calls.length call) : Each holds (calls ++ [call]) := by
  intro other known found
  rcases Nat.lt_trichotomy other calls.length with before | rfl | after
  · rw [getElem?_append_left before] at found
    exact each other known found
  · rw [getElem?_concat_length] at found
    cases found
    exact new
  · rw [getElem?_eq_none (by simpa using Nat.succ_le_of_lt after)] at found
    cases found

/-- A call moves on. -/
theorem Each.set (each : Each holds calls) (found : calls[caller]? = some call) (moved : holds caller next) :
    Each holds (calls.set caller next) := by
  intro other known lookup
  rw [lookup_set found] at lookup
  by_cases same : other = caller
  · rw [if_pos same] at lookup
    cases lookup
    exact same ▸ moved
  · rw [if_neg same] at lookup
    exact each other known lookup

/-- Calls that are lists of steps still to do: one of them changes, and the others stay. -/
theorem flatten_set_perm {todo : List (List α)} {old : List α} (found : todo[caller]? = some old) (new : List α) :
    ∃ others, todo.flatten.Perm (old ++ others) ∧ (todo.set caller new).flatten.Perm (new ++ others) := by
  obtain ⟨inside, rfl⟩ := List.getElem?_eq_some_iff.mp found
  refine ⟨(todo.take caller).flatten ++ (todo.drop (caller + 1)).flatten, ?_, ?_⟩
  · nth_rewrite 1 [← take_append_drop caller todo]
    rw [drop_eq_getElem_cons inside, flatten_append, flatten_cons]
    exact perm_append_comm_assoc _ _ _
  · rw [set_eq_take_append_cons_drop, if_pos inside, flatten_append, flatten_cons]
    exact perm_append_comm_assoc _ _ _

end MineRider.Machine
