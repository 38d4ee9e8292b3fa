import MineRider.Machine.PartialEq
import MineRider.Model.Protocol.Nbt

/-! # Equality of NBT values

The derived equality of the source compares structure and contents, and floats numerically: a NaN
differs from itself and the two zeros agree. It is symmetric and transitive, and reflexive exactly
on the values without a NaN.
-/

namespace MineRider.Model.Protocol.Nbt

open Bool Machine

/-- Induction over a value with the hypothesis at the elements of its lists and compounds. -/
@[elab_as_elim]
theorem induction {motive : Nbt → Prop} (leaf : ∀ value : Nbt, value.tagId ≠ 9 → value.tagId ≠ 10 → motive value)
    (list : ∀ tag items, (∀ item ∈ items, motive item) → motive (.list tag items))
    (compound : ∀ entries, (∀ entry ∈ entries, motive entry.2) → motive (.compound entries))
    (value : Nbt) : motive value := by
  apply @Nbt.rec motive (fun items => ∀ item ∈ items, motive item)
    (fun entries => ∀ entry ∈ entries, motive entry.2) (fun entry => motive entry.2)
  case list => exact list
  case compound => exact compound
  case nil => simp
  case cons =>
    intro head tail first rest item member
    rcases List.mem_cons.mp member with rfl | later
    · exact first
    · exact rest item later
  case nil => simp
  case cons =>
    intro head tail first rest entry member
    rcases List.mem_cons.mp member with rfl | later
    · exact first
    · exact rest entry later
  case mk => exact fun _ _ known => known
  all_goals
    intro v
    exact leaf _ (by simp [tagId]) (by simp [tagId])

section Floats

/-- The bits of a float without its sign. -/
def magnitudeF32 (bits : UInt32) : UInt32 := bits &&& 0x7FFFFFFF
def magnitudeF64 (bits : UInt64) : UInt64 := bits &&& 0x7FFFFFFFFFFFFFFF

def isNanF32 (bits : UInt32) : Bool := 0x7F800000 < magnitudeF32 bits
def isNanF64 (bits : UInt64) : Bool := 0x7FF0000000000000 < magnitudeF64 bits

/-- IEEE equality of two bit patterns: no NaN, and the same bits or two zeros. -/
def eqFloat {β : Type} [BEq β] (isNan isZero : β → Bool) (a b : β) : Bool :=
  !isNan a && !isNan b && (a == b || (isZero a && isZero b))

def eqF32 : UInt32 → UInt32 → Bool := eqFloat isNanF32 (magnitudeF32 · == 0)
def eqF64 : UInt64 → UInt64 → Bool := eqFloat isNanF64 (magnitudeF64 · == 0)

theorem eqFloat_partial {β : Type} [BEq β] [LawfulBEq β] (isNan isZero : β → Bool) :
    PartialEq (eqFloat isNan isZero) where
  symm same := by
    simp only [eqFloat, and_eq_true, or_eq_true, beq_iff_eq] at same ⊢
    exact ⟨⟨same.1.2, same.1.1⟩, same.2.imp Eq.symm And.symm⟩
  trans first second := by
    simp only [eqFloat, and_eq_true, or_eq_true, beq_iff_eq] at first second ⊢
    refine ⟨⟨first.1.1, second.1.2⟩, ?_⟩
    rcases first.2 with rfl | zeros
    · exact second.2
    · rcases second.2 with rfl | zeros'
      · exact .inr zeros
      · exact .inr ⟨zeros.1, zeros'.2⟩

theorem eqF32_partial : PartialEq eqF32 := eqFloat_partial _ _
theorem eqF64_partial : PartialEq eqF64 := eqFloat_partial _ _

end Floats

mutual

/-- The derived `PartialEq` of `Nbt`. -/
def eq : Nbt → Nbt → Bool
  | .byte a, .byte b => a == b
  | .short a, .short b => a == b
  | .int a, .int b => a == b
  | .long a, .long b => a == b
  | .float a, .float b => eqF32 a b
  | .double a, .double b => eqF64 a b
  | .byteArray a, .byteArray b => a == b
  | .string a, .string b => a == b
  | .list tag items, .list tag' items' => tag == tag' && eqItems items items'
  | .compound entries, .compound entries' => eqEntries entries entries'
  | .intArray a, .intArray b => a == b
  | .longArray a, .longArray b => a == b
  | _, _ => false

def eqItems : List Nbt → List Nbt → Bool
  | [], [] => true
  | item :: rest, item' :: rest' => eq item item' && eqItems rest rest'
  | _, _ => false

def eqEntries : List (String × Nbt) → List (String × Nbt) → Bool
  | [], [] => true
  | (name, value) :: rest, (name', value') :: rest' =>
    (name == name' && eq value value') && eqEntries rest rest'
  | _, _ => false

end

/-- Equality of compound entries. -/
def eqEntry (a b : String × Nbt) : Bool := a.1 == b.1 && a.2.eq b.2

theorem eqItems_eq_isEqv (xs ys : List Nbt) : eqItems xs ys = xs.isEqv ys eq := by
  induction xs generalizing ys with
  | nil => cases ys <;> rfl
  | cons x xs ih =>
    cases ys with
    | nil => rfl
    | cons y ys => simp only [eqItems, List.isEqv, ih]

theorem eqEntries_eq_isEqv (xs ys : List (String × Nbt)) : eqEntries xs ys = xs.isEqv ys eqEntry := by
  induction xs generalizing ys with
  | nil => cases ys <;> rfl
  | cons x xs ih =>
    cases ys with
    | nil => rfl
    | cons y ys => simp only [eqEntries, eqEntry, List.isEqv, ih]

mutual

/-- No float of the value is a NaN. -/
def noNan : Nbt → Bool
  | .float bits => !isNanF32 bits
  | .double bits => !isNanF64 bits
  | .list _ items => noNanItems items
  | .compound entries => noNanEntries entries
  | _ => true

def noNanItems : List Nbt → Bool
  | [] => true
  | item :: rest => noNan item && noNanItems rest

def noNanEntries : List (String × Nbt) → Bool
  | [] => true
  | (_, value) :: rest => noNan value && noNanEntries rest

end

theorem noNanItems_iff {items : List Nbt} : noNanItems items = true ↔ ∀ item ∈ items, noNan item = true := by
  induction items with
  | nil => simp [noNanItems]
  | cons item rest ih => simp [noNanItems, ih]

theorem noNanEntries_iff {entries : List (String × Nbt)} :
    noNanEntries entries = true ↔ ∀ entry ∈ entries, noNan entry.2 = true := by
  induction entries with
  | nil => simp [noNanEntries]
  | cons entry rest ih => simp [noNanEntries, ih]

theorem eq_self {value : Nbt} (numeric : noNan value = true) : eq value value = true := by
  induction value using Nbt.induction with
  | leaf value notList notCompound =>
    cases value <;> simp_all [eq, noNan, eqF32, eqF64, eqFloat, tagId]
  | list tag items ih =>
    rw [noNan, noNanItems_iff] at numeric
    rw [eq, eqItems_eq_isEqv, and_eq_true]
    exact ⟨beq_self_eq_true tag, isEqv_refl fun item member => ih item member (numeric item member)⟩
  | compound entries ih =>
    rw [noNan, noNanEntries_iff] at numeric
    rw [eq, eqEntries_eq_isEqv]
    apply isEqv_refl
    intro entry member
    rw [eqEntry, and_eq_true]
    exact ⟨beq_self_eq_true entry.1, ih entry member (numeric entry member)⟩

theorem eq_symm {a b : Nbt} (same : eq a b = true) : eq b a = true := by
  induction a using Nbt.induction generalizing b with
  | leaf a notList notCompound =>
    cases a with
    | float a =>
      cases b with
      | float b => exact eqF32_partial.symm same
      | _ => cases same
    | double a =>
      cases b with
      | double b => exact eqF64_partial.symm same
      | _ => cases same
    | list tag items => exact absurd rfl notList
    | compound entries => exact absurd rfl notCompound
    | _ => cases b <;> first | cases same | exact PartialEq.beq.symm same
  | list tag items ih =>
    cases b with
    | list tag' items' =>
      rw [eq, eqItems_eq_isEqv, and_eq_true] at same ⊢
      exact ⟨PartialEq.beq.symm same.1, isEqv_symm (fun item member _ => ih item member) same.2⟩
    | _ => cases same
  | compound entries ih =>
    cases b with
    | compound entries' =>
      rw [eq, eqEntries_eq_isEqv] at same ⊢
      refine isEqv_symm (fun entry member other both => ?_) same
      rw [eqEntry, and_eq_true] at both ⊢
      exact ⟨PartialEq.beq.symm both.1, ih entry member both.2⟩
    | _ => cases same

theorem eq_trans {a b c : Nbt} (first : eq a b = true) (second : eq b c = true) : eq a c = true := by
  induction a using Nbt.induction generalizing b c with
  | leaf a notList notCompound =>
    cases a with
    | float a =>
      cases b with
      | float b =>
        cases c with
        | float c => exact eqF32_partial.trans first second
        | _ => cases second
      | _ => cases first
    | double a =>
      cases b with
      | double b =>
        cases c with
        | double c => exact eqF64_partial.trans first second
        | _ => cases second
      | _ => cases first
    | list tag items => exact absurd rfl notList
    | compound entries => exact absurd rfl notCompound
    | _ =>
      -- the three values are of one kind, or a comparison fails
      cases b <;> first
        | cases first
        | cases c <;> first | cases second | exact PartialEq.beq.trans first second
  | list tag items ih =>
    cases b with
    | list tag' items' =>
      cases c with
      | list tag'' items'' =>
        rw [eq, eqItems_eq_isEqv, and_eq_true] at first second ⊢
        exact ⟨PartialEq.beq.trans first.1 second.1,
          isEqv_trans (fun item member _ _ => ih item member) first.2 second.2⟩
      | _ => cases second
    | _ => cases first
  | compound entries ih =>
    cases b with
    | compound entries' =>
      cases c with
      | compound entries'' =>
        rw [eq, eqEntries_eq_isEqv] at first second ⊢
        refine isEqv_trans (fun entry member other third left right => ?_) first second
        rw [eqEntry, and_eq_true] at left right ⊢
        exact ⟨PartialEq.beq.trans left.1 right.1, ih entry member left.2 right.2⟩
      | _ => cases second
    | _ => cases first

theorem eq_partial : PartialEq eq := ⟨eq_symm, eq_trans⟩

end MineRider.Model.Protocol.Nbt
