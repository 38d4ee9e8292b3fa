import Mathlib.Data.List.Forall2
import Mathlib.Tactic.IntervalCases
import MineRider.Machine.Fields
import MineRider.Model.Minecraft.Chunk

/-! # Changing one entry of a paletted container

`materialize_and_set` reads all entries of a container, whatever its form, changes one and packs them again
into 64-bit words at the width of the largest. The words are those of the packing library once every shift
is known to stay inside them; reading them back gives every entry, the changed one with its new value.
-/

namespace MineRider.Soundness.Palettes

open List Model.Core Model.Minecraft Machine PalettedContainer

section Words

variable {bits : ℕ}

/-- The bit mask of a width. -/
theorem mask_toNat (positive : 1 ≤ bits) (bounded : bits ≤ 32) :
    ((1 <<< UInt64.ofNat bits) - 1 : UInt64).toNat = 2 ^ bits - 1 := by
  interval_cases bits <;> rfl

private theorem and_mask (positive : 1 ≤ bits) (bounded : bits ≤ 32) (word : UInt64) :
    (word &&& ((1 <<< UInt64.ofNat bits) - 1)).toNat = word.toNat % 2 ^ bits := by
  rw [UInt64.toNat_and, mask_toNat positive bounded, Nat.and_two_pow_sub_one_eq_mod]

private theorem shift_toNat {shift : ℕ} (inside : shift < 64) : (UInt64.ofNat shift).toNat % 64 = shift := by
  rw [UInt64.toNat_ofNat']
  omega

/-- One write of the packing loop. -/
theorem or_shiftLeft_toNat (positive : 1 ≤ bits) (bounded : bits ≤ 32) (word : UInt64) {value : UInt32}
    (fits : value.toNat < 2 ^ bits) {shift : ℕ} (inside : shift + bits ≤ 64) :
    (word ||| ((value.toUInt64 &&& ((1 <<< UInt64.ofNat bits) - 1)) <<< UInt64.ofNat shift)).toNat =
      word.toNat ||| value.toNat <<< shift := by
  have room : value.toNat <<< shift < 2 ^ 64 := by
    rw [Nat.shiftLeft_eq]
    calc value.toNat * 2 ^ shift < 2 ^ bits * 2 ^ shift := Nat.mul_lt_mul_of_pos_right fits (Nat.two_pow_pos shift)
      _ = 2 ^ (bits + shift) := (Nat.pow_add ..).symm
      _ ≤ 2 ^ 64 := Nat.pow_le_pow_right (by decide) (by omega)
  rw [UInt64.toNat_or, UInt64.toNat_shiftLeft, shift_toNat (by omega), and_mask positive bounded,
    UInt32.toNat_toUInt64, Nat.mod_eq_of_lt fits, Nat.mod_eq_of_lt room]

/-- The last field of a word ends inside it. -/
theorem place_inside (positive : 1 ≤ bits) (bounded : bits ≤ 32) (i : ℕ) : i % (64 / bits) * bits + bits ≤ 64 := by
  have some : 0 < 64 / bits := Nat.div_pos (by omega) positive
  have place : i % (64 / bits) + 1 ≤ 64 / bits := Nat.mod_lt i some
  calc i % (64 / bits) * bits + bits = (i % (64 / bits) + 1) * bits := (Nat.succ_mul ..).symm
    _ ≤ 64 / bits * bits := Nat.mul_le_mul_right bits place
    _ ≤ 64 := Nat.div_mul_le_self 64 bits

private theorem map_modify {α β : Type} {f : α → α} {g : β → β} {h : α → β} (same : ∀ a, h (f a) = g (h a))
    (xs : List α) (i : ℕ) : (xs.modify i f).map h = (xs.map h).modify i g := by
  apply ext_getElem?
  intro j
  by_cases hit : i = j
  · subst hit
    simp only [getElem?_map, getElem?_modify_eq, Option.map_eq_map, Option.map_map]
    congr 1
    funext a
    exact same a
  · simp only [getElem?_map, getElem?_modify_ne _ _ hit]

section

variable (positive : 1 ≤ bits) (bounded : bits ≤ 32)

include positive bounded

private theorem packedValue_eq (data : List UInt64) (i : ℕ) :
    packedValue (UInt8.ofNat bits) data i =
      (readField (64 / bits) bits (data.map UInt64.toNat) i).map UInt32.ofNat := by
  have width : (UInt8.ofNat bits).toNat = bits := by
    rw [UInt8.toNat_ofNat']
    omega
  have mask : (if UInt8.ofNat bits = 32 then 0xFFFFFFFF else (1 <<< (UInt8.ofNat bits).toUInt64) - 1 : UInt64) =
      (1 <<< UInt64.ofNat bits) - 1 := by
    interval_cases bits <;> rfl
  unfold packedValue readField
  simp only [width, mask, getElem?_map]
  cases data[i / (64 / bits)]? with
  | none => rfl
  | some long =>
    have place := place_inside positive bounded i
    have value : ((long >>> UInt64.ofNat (i % (64 / bits) * bits)) &&& ((1 <<< UInt64.ofNat bits) - 1)).toNat =
        field long.toNat (i % (64 / bits) * bits) bits := by
      rw [and_mask positive bounded, UInt64.toNat_shiftRight, shift_toNat (by omega), field]
    simp only [Option.map_some, ← value]
    rfl

/-- The packing loop, on the numbers in its words. -/
theorem pack_loop {values : List UInt32}
    (fits : ∀ value ∈ values, value.toNat < 2 ^ bits) (i : ℕ) (data : List UInt64) :
    ((values.zipIdx i).foldl (fun data (value, i) => data.modify (i / (64 / bits))
        (· ||| ((value.toUInt64 &&& ((1 <<< UInt64.ofNat bits) - 1)) <<< UInt64.ofNat (i % (64 / bits) * bits))))
        data).map UInt64.toNat =
      packFrom (64 / bits) bits i (data.map UInt64.toNat) (values.map UInt32.toNat) := by
  induction values generalizing i data with
  | nil => rfl
  | cons value rest ih =>
    have one := fun word => or_shiftLeft_toNat positive bounded word (fits value mem_cons_self)
      (place_inside positive bounded i)
    have write : _ = (data.map UInt64.toNat).modify (i / (64 / bits)) fun word => word ||| value.toNat <<< _ :=
      map_modify one data (i / (64 / bits))
    rw [zipIdx_cons, foldl_cons, ih (fun other member => fits other (mem_cons_of_mem value member)), write]
    rfl

/-- Reading a packed list of values back. -/
theorem packedValue_pack {values : List UInt32}
    (fits : ∀ value ∈ values, value.toNat < 2 ^ bits) {i : ℕ} (inside : i < values.length) :
    packedValue (UInt8.ofNat bits) (pack bits values) i = values[i]? := by
  have perWord : 0 < 64 / bits := Nat.div_pos (by omega) positive
  have enough : values.length ≤ (values.length + 64 / bits - 1) / (64 / bits) * (64 / bits) := by
    have split := Nat.div_add_mod' (values.length + 64 / bits - 1) (64 / bits)
    have rest := Nat.mod_lt (values.length + 64 / bits - 1) perWord
    omega
  have empty : ∀ j, 0 ≤ j → j < 0 + (values.map UInt32.toNat).length → readField (64 / bits) bits
      ((List.replicate ((values.length + 64 / bits - 1) / (64 / bits)) (0 : UInt64)).map UInt64.toNat) j = some 0 := by
    intro j _ below
    rw [length_map, Nat.zero_add] at below
    have room : j / (64 / bits) < (values.length + 64 / bits - 1) / (64 / bits) :=
      (Nat.div_lt_iff_lt_mul perWord).mpr (by omega)
    simp [readField, room]
  have small : ∀ value ∈ values.map UInt32.toNat, value < 2 ^ bits := by
    intro value member
    obtain ⟨source, listed, rfl⟩ := mem_map.mp member
    exact fits source listed
  rw [packedValue_eq positive bounded]
  unfold pack
  rw [pack_loop positive bounded fits, readField_packFrom small empty]
  simp [inside]

end

end Words

section Containers

/-- The entries of a container that are read one after the other, the first failure ending the loop. -/
theorem mapM_ok {α : Type} {f : ℕ → Except MineRiderError α} {indices : List ℕ} {values : List α}
    (read : indices.mapM f = .ok values) : List.Forall₂ (fun i value => f i = .ok value) indices values := by
  induction indices generalizing values with
  | nil =>
    cases read
    exact .nil
  | cons i rest ih =>
    rw [mapM_cons] at read
    cases first : f i with
    | error e =>
      rw [first] at read
      cases read
    | ok value =>
      cases later : rest.mapM f with
      | error e =>
        rw [first, later] at read
        cases read
      | ok others =>
        rw [first, later] at read
        cases read
        exact .cons first (ih later)

private theorem mapM_of_ok {α : Type} {f : ℕ → Except MineRiderError α} {indices : List ℕ}
    (readable : ∀ i ∈ indices, ∃ value, f i = .ok value) : ∃ values, indices.mapM f = .ok values := by
  induction indices with
  | nil => exact ⟨[], rfl⟩
  | cons i rest ih =>
    obtain ⟨value, first⟩ := readable i mem_cons_self
    obtain ⟨others, later⟩ := ih fun j member => readable j (mem_cons_of_mem i member)
    rw [mapM_cons, first, later]
    exact ⟨value :: others, rfl⟩

private theorem bitLength_le (value : UInt32) : bitLength value ≤ 32 := by
  unfold bitLength
  split_ifs with zero
  · exact Nat.zero_le _
  · have nonzero : value.toNat ≠ 0 := fun same => zero (UInt32.toNat_inj.mp same)
    have log := (Nat.log2_lt nonzero).mpr value.toNat_lt
    omega

private theorem lt_two_pow_bitLength (value : UInt32) : value.toNat < 2 ^ bitLength value := by
  unfold bitLength
  split_ifs with zero
  · rw [zero]
    decide
  · exact Nat.lt_log2_self

/-- The running maximum of the loop over the values. -/
theorem le_largest (values : List UInt32) (most : UInt32) :
    most ≤ values.foldl (fun most value => if most < value then value else most) most ∧
      ∀ value ∈ values, value ≤ values.foldl (fun most value => if most < value then value else most) most := by
  induction values generalizing most with
  | nil => exact ⟨UInt32.le_refl most, fun _ member => absurd member not_mem_nil⟩
  | cons first rest ih =>
    obtain ⟨above, each⟩ := ih (if most < first then first else most)
    have both : most ≤ (if most < first then first else most) ∧ first ≤ (if most < first then first else most) := by
      split_ifs with larger
      · exact ⟨UInt32.le_of_lt larger, UInt32.le_refl first⟩
      · exact ⟨UInt32.le_refl most, UInt32.not_lt.mp larger⟩
    refine ⟨UInt32.le_trans both.1 above, ?_⟩
    intro value member
    rcases mem_cons.mp member with rfl | later
    · exact UInt32.le_trans both.2 above
    · exact each value later

/-- One entry as the loop of `materialize_and_set` reads it. -/
def readEntry (container : PalettedContainer) (i : ℕ) : Except MineRiderError UInt32 :=
  match container.get i with
  | some value => .ok value
  | none => .error (.protocol s!"invalid palette value at index {i}")

private theorem readEntry_ok {container : PalettedContainer} {i : ℕ} {value : UInt32} :
    readEntry container i = .ok value ↔ container.get i = some value := by
  unfold readEntry
  cases container.get i with
  | none | some found => simp

/-- The direct form of a list of values, at the width of the largest. -/
def repack (values : List UInt32) : PalettedContainer :=
  let bits := max (bitLength
    (values.foldl (fun most value => if most < value then value else most) 0)) 1
  .direct (UInt8.ofNat bits) (pack bits values)

variable {entries index : ℕ}

private theorem materializeAndSet_eq (container : PalettedContainer) (inside : index < entries)
    (state : UInt32) : container.materializeAndSet entries index state = (do
      let values ← (List.range entries).mapM (readEntry container)
      pure (repack (values.set index state))) := by
  unfold materializeAndSet
  rw [if_neg (not_le.mpr inside)]
  rfl

private theorem repack_get {values : List UInt32} {i : ℕ} (inside : i < values.length) :
    (repack values).get i = values[i]? := by
  obtain ⟨-, below⟩ := le_largest values 0
  have width := bitLength_le (values.foldl (fun most value => if most < value then value else most) 0)
  refine packedValue_pack (le_max_right ..) (max_le width (by decide)) ?_ inside
  intro value member
  calc value.toNat ≤ (values.foldl (fun most value => if most < value then value else most) 0).toNat :=
        UInt32.le_iff_toNat_le.mp (below value member)
    _ < 2 ^ bitLength _ := lt_two_pow_bitLength _
    _ ≤ 2 ^ max (bitLength _) 1 := Nat.pow_le_pow_right (by decide) (le_max_left ..)

/-- The entries of a container after a change of one of them. -/
theorem materializeAndSet_get {container next : PalettedContainer} {state : UInt32}
    (inside : index < entries) (changed : container.materializeAndSet entries index state = .ok next) {i : ℕ}
    (below : i < entries) :
    (container.get i).isSome = true ∧ next.get i = if i = index then some state else container.get i := by
  rw [materializeAndSet_eq container inside] at changed
  cases read : (List.range entries).mapM (readEntry container) with
  | error e =>
    rw [read] at changed
    cases changed
  | ok values =>
    rw [read] at changed
    cases changed
    have each := mapM_ok read
    have length : values.length = entries := by
      rw [← each.length_eq, length_range]
    have entry : container.get i = values[i]? := by
      have at_ := each.get (i := i) (by rw [length_range]; exact below) (by rw [length]; exact below)
      rw [getElem?_eq_getElem (by rw [length]; exact below)]
      simpa using readEntry_ok.mp at_
    have found : (values[i]?).isSome = true := by
      simp [length, below]
    refine ⟨entry ▸ found, ?_⟩
    rw [repack_get (by rw [length_set, length]; exact below), getElem?_set, entry]
    by_cases same : index = i
    · subst same
      simp [length, below]
    · rw [if_neg same, if_neg (Ne.symm same)]

theorem materializeAndSet_ok {container : PalettedContainer} (inside : index < entries)
    (readable : ∀ i < entries, (container.get i).isSome = true) (state : UInt32) :
    ∃ next, container.materializeAndSet entries index state = .ok next := by
  obtain ⟨values, read⟩ : ∃ values, (List.range entries).mapM (readEntry container) = .ok values := by
    apply mapM_of_ok
    intro i member
    obtain ⟨value, found⟩ := Option.isSome_iff_exists.mp (readable i (mem_range.mp member))
    exact ⟨value, readEntry_ok.mpr found⟩
  rw [materializeAndSet_eq container inside, read]
  exact ⟨_, rfl⟩

end Containers

end MineRider.Soundness.Palettes
