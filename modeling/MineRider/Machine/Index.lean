import MineRider.ToMathlib.AListUpdate

/-! # Reverse indexes

A map kept beside a relation, so that the one holder of a key is found without a search: a name and its owner, a
member and its group. The index is exact when it has a key for a holder precisely if the holder has the key. Every
update of the relation then has the update of the index that goes with it.
-/

namespace MineRider.Machine.Index

variable {κ τ : Type*} [DecidableEq κ]

/-- The index finds the holder of every key that is held, and nothing else. -/
def Indexes (index : AList fun _ : κ => τ) (holds : τ → κ → Prop) : Prop :=
  ∀ key holder, index.lookup key = some holder ↔ holds holder key

variable {index : AList fun _ : κ => τ} {holds holdsAfter : τ → κ → Prop}

/-- No key has two holders. -/
theorem Indexes.holder_unique (exact : Indexes index holds) {key : κ} {first second : τ}
    (holdsFirst : holds first key) (holdsSecond : holds second key) : first = second := by
  have found := (exact key first).mpr holdsFirst
  rw [(exact key second).mpr holdsSecond] at found
  exact (Option.some.inj found).symm

theorem indexes_empty (nothing : ∀ holder key, ¬ holds holder key) :
    Indexes (∅ : AList fun _ : κ => τ) holds := by
  intro key holder
  exact ⟨fun found => absurd found (by simp), fun held => absurd held (nothing holder key)⟩

section

variable (exact : Indexes index holds)

include exact

theorem Indexes.congr (same : ∀ holder key, holdsAfter holder key ↔ holds holder key) :
    Indexes index holdsAfter :=
  fun key holder => (exact key holder).trans (same holder key).symm

/-- A key is given to a holder, and taken from whoever had it. -/
theorem Indexes.insert (key : κ) (holder : τ)
    (given : ∀ other name, holdsAfter other name ↔ if name = key then other = holder else holds other name) :
    Indexes (index.insert key holder) holdsAfter := by
  intro name other
  rw [AList.lookup_insert_eq_ite, given]
  split_ifs
  · rw [Option.some.injEq, eq_comm]
  · exact exact name other

/-- A key is taken from its holder. -/
theorem Indexes.erase (key : κ) (taken : ∀ other name, holdsAfter other name ↔ name ≠ key ∧ holds other name) :
    Indexes (index.erase key) holdsAfter := by
  intro name other
  rw [AList.lookup_erase_eq_ite, taken]
  split_ifs with same
  · exact ⟨fun found => absurd found (by simp), fun held => absurd same held.1⟩
  · exact (exact name other).trans (and_iff_right same).symm

/-- A holder loses every key it has. -/
theorem Indexes.dismiss {after : AList fun _ : κ => τ} [DecidableEq τ] (holder : τ)
    (forgotten : ∀ key, after.lookup key = if index.lookup key = some holder then none else index.lookup key)
    (dropped : ∀ other key, holdsAfter other key ↔ other ≠ holder ∧ holds other key) :
    Indexes after holdsAfter := by
  intro key other
  rw [forgotten, dropped, ← exact key other]
  split_ifs with held
  · rw [held, Option.some.injEq]
    exact ⟨fun found => absurd found (by simp), fun held => absurd held.2.symm held.1⟩
  · exact ⟨fun found => ⟨fun same => held (same ▸ found), found⟩, And.right⟩

end

end MineRider.Machine.Index
