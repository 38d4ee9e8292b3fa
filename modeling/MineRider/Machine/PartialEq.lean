import Mathlib.Data.List.Forall2

/-! # Partial equivalences computed by comparisons

A derived comparison is symmetric and transitive but, over floats, not reflexive. The laws are
stated once for a boolean comparison and pass through the ways in which derived comparisons are
built: fields, conjunctions, options and lists. The list laws only ask for the law at the elements
of the first list, so that they serve inductions over nested values.
-/

namespace MineRider.Machine

open List

variable {α β : Type}

/-- A symmetric and transitive comparison. -/
structure PartialEq (eq : α → α → Bool) : Prop where
  symm : ∀ {a b}, eq a b = true → eq b a = true
  trans : ∀ {a b c}, eq a b = true → eq b c = true → eq a c = true

/-- Comparison of optional values. -/
def optionEq (eq : α → α → Bool) : Option α → Option α → Bool
  | none, none => true
  | some a, some b => eq a b
  | _, _ => false

section Lists

variable {eq : α → α → Bool} {xs ys zs : List α}

theorem isEqv_iff_forall₂ : xs.isEqv ys eq = true ↔ List.Forall₂ (fun x y => eq x y = true) xs ys := by
  induction xs generalizing ys with
  | nil => cases ys <;> simp [List.isEqv]
  | cons x xs ih => cases ys <;> simp [List.isEqv, ih]

theorem isEqv_refl (each : ∀ x ∈ xs, eq x x = true) : xs.isEqv xs eq = true :=
  isEqv_iff_forall₂.mpr (forall₂_same.mpr each)

theorem isEqv_symm (each : ∀ x ∈ xs, ∀ y, eq x y = true → eq y x = true) (same : xs.isEqv ys eq = true) :
    ys.isEqv xs eq = true := by
  rw [isEqv_iff_forall₂] at same ⊢
  induction same with
  | nil => exact .nil
  | cons first _ ih =>
    refine .cons (each _ mem_cons_self _ first) (ih ?_)
    exact fun other member => each other (mem_cons_of_mem _ member)

theorem isEqv_trans (each : ∀ x ∈ xs, ∀ y z, eq x y = true → eq y z = true → eq x z = true)
    (first : xs.isEqv ys eq = true) (second : ys.isEqv zs eq = true) : xs.isEqv zs eq = true := by
  rw [isEqv_iff_forall₂] at first second ⊢
  induction first generalizing zs with
  | nil => exact second
  | cons left _ ih =>
    cases second with
    | cons right rest =>
      refine .cons (each _ mem_cons_self _ _ left right) (ih ?_ rest)
      exact fun other member => each other (mem_cons_of_mem _ member)

theorem isEqv_append {xs' ys' : List α} (first : xs.isEqv ys eq = true) (second : xs'.isEqv ys' eq = true) :
    (xs ++ xs').isEqv (ys ++ ys') eq = true := by
  rw [isEqv_iff_forall₂] at first second ⊢
  exact rel_append first second

theorem isEqv_set (same : xs.isEqv ys eq = true) (i : ℕ) {a b : α} (equal : eq a b = true) :
    (xs.set i a).isEqv (ys.set i b) eq = true := by
  rw [isEqv_iff_forall₂] at same ⊢
  induction same generalizing i with
  | nil => exact .nil
  | cons first rest ih =>
    cases i with
    | zero => exact .cons equal rest
    | succ i => exact .cons first (ih i)

theorem isEqv_eraseIdx (same : xs.isEqv ys eq = true) (i : ℕ) :
    (xs.eraseIdx i).isEqv (ys.eraseIdx i) eq = true := by
  rw [isEqv_iff_forall₂] at same ⊢
  induction same generalizing i with
  | nil => exact .nil
  | cons first rest ih =>
    cases i with
    | zero => exact rest
    | succ i => exact .cons first (ih i)

/-- A search that the comparison cannot confuse finds the same place in both lists. -/
theorem findIdx?_of_isEqv {p : α → Bool} (respects : ∀ x y, eq x y = true → p x = p y)
    (same : xs.isEqv ys eq = true) : xs.findIdx? p = ys.findIdx? p := by
  rw [isEqv_iff_forall₂] at same
  induction same with
  | nil => rfl
  | cons first _ ih => rw [findIdx?_cons, findIdx?_cons, respects _ _ first, ih]

end Lists

namespace PartialEq

theorem beq [BEq α] [LawfulBEq α] : PartialEq (fun a b : α => a == b) where
  symm same := by rw [eq_of_beq same]; exact beq_self_eq_true _
  trans first second := by rw [eq_of_beq first]; exact second

variable {eq : α → α → Bool}

theorem comap (law : PartialEq eq) (f : β → α) :
    PartialEq (fun a b => eq (f a) (f b)) where
  symm same := law.symm same
  trans first second := law.trans first second

theorem and {eq eq' : α → α → Bool} (left : PartialEq eq) (right : PartialEq eq') :
    PartialEq (fun a b => eq a b && eq' a b) where
  symm same := by
    rw [Bool.and_eq_true] at same ⊢
    exact ⟨left.symm same.1, right.symm same.2⟩
  trans first second := by
    rw [Bool.and_eq_true] at first second ⊢
    exact ⟨left.trans first.1 second.1, right.trans first.2 second.2⟩

theorem option (law : PartialEq eq) : PartialEq (optionEq eq) where
  symm {a b} same := by
    cases a with
    | none => cases b <;> first | rfl | cases same
    | some a =>
      cases b with
      | none => cases same
      | some b => exact law.symm same
  trans {a b c} first second := by
    cases a with
    | none =>
      cases b with
      | none => exact second
      | some b => cases first
    | some a =>
      cases b with
      | none => cases first
      | some b =>
        cases c with
        | none => cases second
        | some c => exact law.trans first second

theorem list (law : PartialEq eq) : PartialEq (fun xs ys : List α => xs.isEqv ys eq) where
  symm same := isEqv_symm (fun _ _ _ => law.symm) same
  trans first second := isEqv_trans (fun _ _ _ _ => law.trans) first second

end PartialEq

end MineRider.Machine
