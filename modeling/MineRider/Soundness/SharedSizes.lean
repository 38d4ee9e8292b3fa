import MineRider.Soundness.SharedValues

/-! # What a conversion is charged

The budget pays for every value when it has been converted, and the size of a table includes what is in it. A value
at depth `d` is therefore paid for `d + 1` times.
-/

namespace MineRider.Soundness.SharedSizes

open Model.Lua Model.Lua.Conversion SharedValues

section Statement

mutual

/-- The sizes of a value and of all values inside it. -/
def charged : SharedValue → ℕ
  | .array items => chargedItems items + (SharedValue.array items).approxSize
  | .map entries => chargedEntries entries + (SharedValue.map entries).approxSize
  | scalar => scalar.approxSize

def chargedItems : List SharedValue → ℕ
  | [] => 0
  | item :: rest => charged item + chargedItems rest

def chargedEntries : List (String × SharedValue) → ℕ
  | [] => 0
  | (_, value) :: rest => charged value + chargedEntries rest

end

/-- The conversion without a budget. -/
def unmetered (heap : LuaHeap) (asF64 : Int64 → UInt64) : ℕ → LuaValue → Converting SharedValue
  | 0, _ => throw .tooDeep
  | levels + 1, v => convertValue (unmetered heap asF64 levels) heap asF64 v

end Statement

section Spending

/-- The conversion gives the value for a price, and fails where the budget is smaller. -/
def Spends {α : Type} (m : Converting α) (cost : ℕ) (a : α) : Prop :=
  ∀ budget, m.run budget = if cost ≤ budget then .ok (a, budget - cost) else .error .tooLarge

variable {α β : Type} {m : Converting α} {f : α → Converting β} {a : α} {b : β} {cost more : ℕ}

theorem Spends.pure (a : α) : Spends (pure a) 0 a := fun _ => rfl

theorem Spends.bind (first : Spends m cost a) (second : Spends (f a) more b) : Spends (m >>= f) (cost + more) b := by
  intro budget
  rw [StateT.run_bind, first]
  by_cases enough : cost ≤ budget
  · rw [if_pos enough]
    refine (second (budget - cost)).trans ?_
    rw [Nat.sub_sub]
    exact if_congr (Nat.le_sub_iff_add_le' enough) rfl rfl
  · rw [if_neg enough, if_neg (by omega)]
    rfl

theorem Spends.into (first : Spends m cost a) (g : α → β) : Spends (m >>= fun a => Pure.pure (g a)) cost (g a) :=
  first.bind (f := fun a => Pure.pure (g a)) (.pure (g a))

private theorem charge_spends (s : SharedValue) : Spends (charge s) s.approxSize s := by
  intro budget
  rw [charge, StateT.run_bind, StateT.run_get]
  by_cases enough : s.approxSize ≤ budget
  · simp only [pure_bind, if_neg (Nat.not_lt.mpr enough), if_pos enough, min_eq_left enough]
    rfl
  · simp only [pure_bind, if_pos (Nat.lt_of_not_le enough), if_neg enough]
    rfl

end Spending

section Conversion

variable {heap : LuaHeap} {asF64 : Int64 → UInt64} {plain item : LuaValue → Converting SharedValue}

/-- What is converted without a budget is converted for its price. -/
def Pays (plain item : LuaValue → Converting SharedValue) : Prop :=
  ∀ v s budget left, (plain v).run budget = .ok (s, left) → Spends (item v) (charged s) s

private theorem convertItems_spends (pays : Pays plain item) {t : LuaTable} {i count budget left : ℕ}
    {items : List SharedValue} (success : (convertItems plain t i count).run budget = .ok (items, left)) :
    Spends (convertItems item t i count) (chargedItems items) items := by
  induction count generalizing i budget items with
  | zero =>
    cases success
    exact .pure []
  | succ count ih =>
    rw [convertItems] at success ⊢
    cases found : t.get i with
    | none =>
      rw [found] at success
      cases success
    | some v =>
      rw [found] at success
      obtain ⟨first, _, head, after⟩ := converting_bind success
      obtain ⟨others, _, tail, done⟩ := converting_bind after
      cases done
      exact (pays _ _ _ _ head).bind ((ih tail).into _)

private theorem convertEntries_spends (pays : Pays plain item) {pairs : List (LuaValue × LuaValue)}
    {count budget left : ℕ} {entries : List (String × SharedValue)}
    (success : (convertEntries plain count pairs).run budget = .ok (entries, left)) :
    Spends (convertEntries item count pairs) (chargedEntries entries) entries := by
  induction pairs generalizing count budget entries with
  | nil =>
    cases success
    exact .pure []
  | cons pair rest ih =>
    obtain ⟨key, _, text, after⟩ := converting_bind success
    obtain ⟨value, _, head, after⟩ := converting_bind after
    split_ifs at after with full
    · cases after
    · obtain ⟨others, _, tail, done⟩ := converting_bind after
      cases done
      obtain ⟨named, -⟩ := keyText_ok text
      have rest := (pays _ _ _ _ head).bind (f := fun value => do
        let others ← convertEntries item (count + 1) rest
        Pure.pure ((key, value) :: others)) ((ih tail).into _)
      rw [convertEntries, named]
      simp only [if_neg full]
      exact rest

private theorem convertValue_spends (pays : Pays plain item) {v : LuaValue} {s : SharedValue} {budget left : ℕ}
    (success : (convertValue plain heap asF64 v).run budget = .ok (s, left)) :
    Spends (convertValue item heap asF64 v >>= charge) (charged s) s := by
  cases v with
  | table id =>
    rw [convertValue_table, convertTable] at success ⊢
    split_ifs at success ⊢ with dense long
    · cases success
    · obtain ⟨items, loop, rfl⟩ := converting_map success
      exact ((convertItems_spends pays loop).into _).bind (charge_spends _)
    · obtain ⟨entries, loop, rfl⟩ := converting_map success
      exact ((convertEntries_spends pays loop).into _).bind (charge_spends _)
  | string bytes =>
    rw [convertValue_string] at success ⊢
    split at success
    · cases success
    · rename_i short
      cases success
      rw [if_neg short]
      exact charge_spends _
  | number n =>
    rw [convertValue_number] at success ⊢
    split at success
    · rename_i finite
      cases success
      rw [if_pos finite]
      exact charge_spends _
    · cases success
  | nil | boolean _ | integer _ =>
    cases success
    exact charge_spends _
  | function | userData | thread | lightUserData | error | other => cases success

private theorem unmetered_pays (levels : ℕ) :
    Pays (unmetered heap asF64 levels) (Conversion.convert heap asF64 levels) := by
  induction levels with
  | zero =>
    intro v s budget left success
    cases success
  | succ levels ih =>
    intro v s budget left success
    exact convertValue_spends ih success

end Conversion

/-- A value that is converted within the limits on depth, strings, arrays and keys is refused as too large only if it
is too large, exactly if it is, or the sizes of all values inside it are together within the limit. -/
theorem too_large_iff (heap : LuaHeap) (asF64 : Int64 → UInt64) (v : LuaValue) (s : SharedValue)
    (limits : (unmetered heap asF64 (maxDepth + 1) v).run' 0 = .ok s) :
    (luaValueToShared heap asF64 v = .error .tooLarge → maxTotalSize < s.approxSize) ↔
      charged s ≤ maxTotalSize ∨ maxTotalSize < s.approxSize := by
  cases run : (unmetered heap asF64 (maxDepth + 1) v).run 0 with
  | error e =>
    rw [StateT.run'_eq, run] at limits
    cases limits
  | ok result =>
    rw [StateT.run'_eq, run] at limits
    cases limits
    have spends := unmetered_pays _ v _ 0 _ run maxTotalSize
    rw [luaValueToShared, StateT.run'_eq, spends]
    by_cases enough : charged result.1 ≤ maxTotalSize
    · rw [if_pos enough]
      exact iff_of_true (fun refused => by cases refused) (.inl enough)
    · rw [if_neg enough]
      exact ⟨fun large => .inr (large rfl), fun either _ => either.resolve_left enough⟩

theorem nested_value_is_not_too_large :
    (unmetered nestedTables (fun _ => 0) (maxDepth + 1) (.table 0)).run' 0 = .ok nestedValue ∧
    (luaValueToShared nestedTables (fun _ => 0) (.table 0) = .error .tooLarge →
      maxTotalSize < nestedValue.approxSize) :=
  ⟨rfl, (too_large_iff nestedTables (fun _ => 0) (.table 0) nestedValue rfl).mpr (.inl (by decide +kernel))⟩

/-- A string that is as long as it may be. -/
def longString : List UInt8 := List.replicate 4096 97

/-- An array of eight such strings. -/
def eightStrings : LuaHeap := fun _ =>
  ⟨8, (List.range 8).map fun i => (.integer (Int64.ofNat (i + 1)), .string longString),
    fun _ => some (.string longString)⟩

/-- Half of what is allowed is refused as too large. -/
theorem eight_strings_are_refused :
    ∃ s, (unmetered eightStrings (fun _ => 0) (maxDepth + 1) (.table 0)).run' 0 = .ok s ∧
    s.approxSize ≤ maxTotalSize ∧ luaValueToShared eightStrings (fun _ => 0) (.table 0) = .error .tooLarge := by
  have letter : (String.fromUTF8? ⟨#[97]⟩).getD "" = "a" := by decide +kernel
  have single : ∀ n rest, lossyLoop (n + 1) (97 :: rest) = "a" ++ lossyLoop n rest :=
    fun n rest => congrArg (· ++ lossyLoop n rest) letter
  have size : (fromUtf8Lossy longString).utf8ByteSize = 4096 := lossy_replicate single 4096
  have string : unmetered eightStrings (fun _ => 0) maxDepth (.string longString) =
      pure (.str (fromUtf8Lossy longString)) := by
    rw [maxDepth, unmetered, convertValue_string, if_neg (by rw [longString, List.length_replicate]; decide)]
  have run : (unmetered eightStrings (fun _ => 0) (maxDepth + 1) (.table 0)).run 0 =
      .ok (.array (List.replicate 8 (.str (fromUtf8Lossy longString))), 0) := by
    rw [unmetered, convertValue_table, convertTable, if_pos (by decide), if_neg (by decide)]
    simp only [eightStrings, convertItems, string, pure_bind]
    rfl
  have spends := unmetered_pays _ _ _ _ _ run maxTotalSize
  refine ⟨_, by rw [StateT.run'_eq, run]; rfl, ?_, ?_⟩
  · simp [List.replicate, SharedValue.approxSize, approxSizeItems, size, maxTotalSize]
  · rw [luaValueToShared, StateT.run'_eq, spends, if_neg]
    · rfl
    · simp [List.replicate, charged, chargedItems, SharedValue.approxSize, approxSizeItems, size, maxTotalSize]

end MineRider.Soundness.SharedSizes
