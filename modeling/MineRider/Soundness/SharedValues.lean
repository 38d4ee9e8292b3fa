import MineRider.Model.Lua.SharedValue

/-! # Bounds of converted values

A successful conversion mirrors the Lua value level by level, which gives the bounds on depth, arrays, maps and the
total size. The length of a string is checked before its text is made, and a key is not checked at all, so those two
bounds hold only for texts that are short after the conversion.
-/

namespace MineRider.Soundness.SharedValues

open List Model.Lua Model.Lua.Conversion
open Model.Protocol (Bytes)

section Conversions

theorem converting_bind {α γ : Type} {m : Converting α} {f : α → Converting γ} {budget left : ℕ} {c : γ}
    (success : (m >>= f).run budget = .ok (c, left)) :
    ∃ a between, m.run budget = .ok (a, between) ∧ (f a).run between = .ok (c, left) := by
  rw [StateT.run_bind] at success
  cases first : m.run budget with
  | error e =>
    rw [first] at success
    cases success
  | ok result =>
    rw [first] at success
    exact ⟨result.1, result.2, rfl, success⟩

theorem converting_map {α γ : Type} {m : Converting α} {f : α → γ} {budget left : ℕ} {c : γ}
    (success : (f <$> m).run budget = .ok (c, left)) : ∃ a, m.run budget = .ok (a, left) ∧ c = f a := by
  rw [map_eq_pure_bind] at success
  obtain ⟨a, between, first, done⟩ := converting_bind success
  cases done
  exact ⟨a, first, rfl⟩

end Conversions

section Mirror

variable {heap : LuaHeap} {asF64 : Int64 → UInt64}

def Scalar : SharedValue → Prop
  | .nil | .bool _ | .number _ => True
  | _ => False

/-- One level of a conversion; the values a table holds are related by `child`. -/
inductive Mirrors (heap : LuaHeap) (child : LuaValue → SharedValue → Prop) : LuaValue → SharedValue → Prop
  | scalar {v : LuaValue} {s : SharedValue} (noText : ∀ bytes, v ≠ .string bytes) (noTable : ∀ id, v ≠ .table id)
      (plain : Scalar s) : Mirrors heap child v s
  | text (bytes : Bytes) : Mirrors heap child (.string bytes) (.str (fromUtf8Lossy bytes))
  | array {id : ℕ} {values : List LuaValue} {items : List SharedValue} (dense : (heap id).isArray = true)
      (got : (List.range' 1 (heap id).rawLen).map (heap id).get = values.map some)
      (short : (heap id).rawLen ≤ maxArrayLen) (each : List.Forall₂ child values items) :
      Mirrors heap child (.table id) (.array items)
  | map {id : ℕ} {entries : List (String × SharedValue)} (sparse : (heap id).isArray = false)
      (few : entries.length ≤ maxMapKeys)
      (keys : (heap id).pairs.map (fun pair => keyText pair.1) = entries.map (fun entry => .ok entry.1))
      (each : List.Forall₂ child ((heap id).pairs.map Prod.snd) (entries.map Prod.snd)) :
      Mirrors heap child (.table id) (.map entries)

/-- A conversion over at most this many levels. -/
def Converted (heap : LuaHeap) : ℕ → LuaValue → SharedValue → Prop
  | 0 => fun _ _ => False
  | levels + 1 => Mirrors heap (Converted heap levels)

variable {item : LuaValue → Converting SharedValue} {child : LuaValue → SharedValue → Prop}

/-- What an element converts to is related to it, and nothing is added to the budget. -/
def Sound (item : LuaValue → Converting SharedValue) (child : LuaValue → SharedValue → Prop) : Prop :=
  ∀ v s budget left, (item v).run budget = .ok (s, left) → child v s ∧ left ≤ budget

private theorem convertItems_mirrors (sound : Sound item child)
    {t : LuaTable} {i count budget left : ℕ} {items : List SharedValue}
    (success : (convertItems item t i count).run budget = .ok (items, left)) :
    left ≤ budget ∧ ∃ values, (List.range' i count).map t.get = values.map some ∧ List.Forall₂ child values items := by
  induction count generalizing i budget items with
  | zero =>
    cases success
    exact ⟨le_refl _, [], rfl, .nil⟩
  | succ count ih =>
    rw [convertItems] at success
    cases found : t.get i with
    | none =>
      rw [found] at success
      cases success
    | some v =>
      rw [found] at success
      obtain ⟨first, _, head, after⟩ := converting_bind success
      obtain ⟨others, _, tail, done⟩ := converting_bind after
      cases done
      obtain ⟨related, spent⟩ := sound _ _ _ _ head
      obtain ⟨later, values, got, each⟩ := ih tail
      refine ⟨later.trans spent, v :: values, ?_, .cons related each⟩
      rw [range'_succ, map_cons, map_cons, found, got]

theorem keyText_ok {k : LuaValue} {key : String} {budget between : ℕ}
    (text : (keyText k : Converting String).run budget = .ok (key, between)) :
    keyText k = .ok key ∧ between = budget := by
  cases same : keyText k with
  | error e =>
    rw [same] at text
    cases text
  | ok name =>
    rw [same] at text
    cases text
    exact ⟨rfl, rfl⟩

private theorem convertEntries_mirrors (sound : Sound item child)
    {pairs : List (LuaValue × LuaValue)} {count budget left : ℕ} {entries : List (String × SharedValue)}
    (success : (convertEntries item count pairs).run budget = .ok (entries, left)) :
    left ≤ budget ∧ (entries = [] ∨ count + entries.length ≤ maxMapKeys) ∧
    pairs.map (fun pair => keyText pair.1) = entries.map (fun entry => .ok entry.1) ∧
    List.Forall₂ child (pairs.map Prod.snd) (entries.map Prod.snd) := by
  induction pairs generalizing count budget entries with
  | nil =>
    cases success
    exact ⟨le_refl _, .inl rfl, rfl, .nil⟩
  | cons pair rest ih =>
    obtain ⟨key, _, text, after⟩ := converting_bind success
    obtain ⟨value, _, head, after⟩ := converting_bind after
    split_ifs at after with full
    · cases after
    · obtain ⟨others, _, tail, done⟩ := converting_bind after
      cases done
      obtain ⟨related, spent⟩ := sound _ _ _ _ head
      obtain ⟨later, few, keys, each⟩ := ih tail
      obtain ⟨named, rfl⟩ := keyText_ok text
      refine ⟨later.trans spent, .inr ?_, by rw [map_cons, map_cons, named, keys], .cons related each⟩
      rw [length_cons]
      obtain rfl | few := few
      · rw [length_nil]
        omega
      · omega

theorem convertValue_string (bytes : Bytes) : convertValue item heap asF64 (.string bytes) =
    if bytes.length > maxStringLen then throw .stringTooLong else pure (.str (fromUtf8Lossy bytes)) := rfl

theorem convertValue_number (n : UInt64) : convertValue item heap asF64 (.number n) =
    if isFiniteF64 n then pure (.number n) else throw .nonFiniteNumber := rfl

theorem convertValue_table (id : ℕ) : convertValue item heap asF64 (.table id) = convertTable item (heap id) := rfl

private theorem convertValue_mirrors (sound : Sound item child) {v : LuaValue} {s : SharedValue} {budget left : ℕ}
    (success : (convertValue item heap asF64 v).run budget = .ok (s, left)) :
    Mirrors heap child v s ∧ left ≤ budget := by
  cases v with
  | string bytes =>
    rw [convertValue_string] at success
    split at success
    · cases success
    · cases success
      exact ⟨.text bytes, le_refl _⟩
  | number n =>
    rw [convertValue_number] at success
    split at success
    · cases success
      exact ⟨.scalar (by simp) (by simp) trivial, le_refl _⟩
    · cases success
  | table id =>
    rw [convertValue_table, convertTable] at success
    split_ifs at success with dense long
    · cases success
    · obtain ⟨items, loop, rfl⟩ := converting_map success
      obtain ⟨spent, values, got, each⟩ := convertItems_mirrors sound loop
      exact ⟨.array dense got (not_lt.mp long) each, spent⟩
    · obtain ⟨entries, loop, rfl⟩ := converting_map success
      obtain ⟨spent, few, keys, each⟩ := convertEntries_mirrors sound loop
      refine ⟨.map (Bool.not_eq_true _ ▸ dense) ?_ keys each, spent⟩
      obtain rfl | few := few
      · exact Nat.zero_le _
      · omega
  | nil | boolean _ | integer _ =>
    cases success
    exact ⟨.scalar (by simp) (by simp) trivial, le_refl _⟩
  | function | userData | thread | lightUserData | error | other => cases success

private theorem charge_ok {result s : SharedValue} {budget left : ℕ}
    (success : (charge result).run budget = .ok (s, left)) :
    s = result ∧ s.approxSize ≤ budget ∧ left ≤ budget := by
  obtain ⟨_, _, got, after⟩ := converting_bind success
  cases got
  split_ifs at after with large
  · cases after
  · obtain ⟨_, _, stored, done⟩ := converting_bind after
    cases stored
    cases done
    exact ⟨rfl, not_lt.mp large, Nat.sub_le _ _⟩

private theorem convert_converted (levels : ℕ) {v : LuaValue} {s : SharedValue} {budget left : ℕ}
    (success : (convert heap asF64 levels v).run budget = .ok (s, left)) :
    (Converted heap levels v s ∧ left ≤ budget) ∧ s.approxSize ≤ budget := by
  induction levels generalizing v s budget left with
  | zero => cases success
  | succ levels ih =>
    obtain ⟨result, _, value, charged⟩ := converting_bind success
    obtain ⟨rfl, fits, rest⟩ := charge_ok charged
    obtain ⟨mirrors, spent⟩ := convertValue_mirrors (fun v s budget left done => (@ih v s budget left done).1) value
    exact ⟨⟨mirrors, rest.trans spent⟩, fits.trans spent⟩

end Mirror

section Bounds

variable {heap : LuaHeap} {asF64 : Int64 → UInt64}

/-- A value inside a plain value, so many levels down. -/
inductive Node : ℕ → SharedValue → SharedValue → Prop
  | self (s : SharedValue) : Node 0 s s
  | item {depth : ℕ} {items : List SharedValue} {x n : SharedValue} (member : x ∈ items) (inner : Node depth x n) :
      Node (depth + 1) (.array items) n
  | entry {depth : ℕ} {entries : List (String × SharedValue)} {x n : SharedValue}
      (member : x ∈ entries.map Prod.snd) (inner : Node depth x n) : Node (depth + 1) (.map entries) n

/-- A value inside a Lua value: the elements of an array, the values of any other table. -/
inductive Inside (heap : LuaHeap) : LuaValue → LuaValue → Prop
  | self (v : LuaValue) : Inside heap v v
  | item {id : ℕ} {v w : LuaValue} (dense : (heap id).isArray = true)
      (member : some v ∈ (List.range' 1 (heap id).rawLen).map (heap id).get) (inner : Inside heap v w) :
      Inside heap (.table id) w
  | entry {id : ℕ} {v w : LuaValue} (sparse : (heap id).isArray = false)
      (member : v ∈ (heap id).pairs.map Prod.snd) (inner : Inside heap v w) : Inside heap (.table id) w

private theorem related_left {α β : Type} {R : α → β → Prop} {as : List α} {bs : List β} (all : List.Forall₂ R as bs)
    {a : α} (member : a ∈ as) : ∃ b ∈ bs, R a b := by
  induction all with
  | nil => cases member
  | cons head _ ih =>
    obtain rfl | member := mem_cons.mp member
    · exact ⟨_, mem_cons_self, head⟩
    · obtain ⟨b, later, related⟩ := ih member
      exact ⟨b, mem_cons_of_mem _ later, related⟩

/-- Every node of the result is the conversion of a value inside the Lua value. -/
theorem node_converted {depth : ℕ} {s n : SharedValue} (node : Node depth s n) {levels : ℕ} {v : LuaValue}
    (converted : Converted heap levels v s) :
    ∃ left w, levels = left + 1 + depth ∧ Inside heap v w ∧ Mirrors heap (Converted heap left) w n := by
  induction node generalizing levels v with
  | self s =>
    cases levels with
    | zero => exact converted.elim
    | succ left => exact ⟨left, v, rfl, .self v, converted⟩
  | item member _ ih =>
    cases levels with
    | zero => exact converted.elim
    | succ levels =>
      cases converted with
      | scalar _ _ plain => exact plain.elim
      | @array _ values _ dense got _ each =>
        obtain ⟨x, inside, child⟩ := related_left (R := fun b a => Converted heap levels a b) each.flip member
        obtain ⟨left, w, rfl, deeper, mirrors⟩ := ih child
        refine ⟨left, w, rfl, .item dense ?_ deeper, mirrors⟩
        rw [got]
        exact mem_map_of_mem inside
  | entry member _ ih =>
    cases levels with
    | zero => exact converted.elim
    | succ levels =>
      cases converted with
      | scalar _ _ plain => exact plain.elim
      | map sparse _ _ each =>
        obtain ⟨x, inside, child⟩ := related_left (R := fun b a => Converted heap levels a b) each.flip member
        obtain ⟨left, w, rfl, deeper, mirrors⟩ := ih child
        exact ⟨left, w, rfl, .entry sparse inside deeper, mirrors⟩

/-- Every value inside the Lua value has been converted. -/
theorem inside_converted {v w : LuaValue} (inside : Inside heap v w) {levels : ℕ} {s : SharedValue}
    (converted : Converted heap levels v s) :
    ∃ depth n left, Node depth s n ∧ Mirrors heap (Converted heap left) w n := by
  induction inside generalizing levels s with
  | self v =>
    cases levels with
    | zero => exact converted.elim
    | succ left => exact ⟨0, s, left, .self s, converted⟩
  | @item id v w dense member _ ih =>
    cases levels with
    | zero => exact converted.elim
    | succ levels =>
      cases converted with
      | scalar _ noTable _ => exact absurd rfl (noTable id)
      | @array _ values items _ got _ each =>
        rw [got, mem_map_of_injective (Option.some_injective _)] at member
        obtain ⟨x, later, child⟩ := related_left each member
        obtain ⟨depth, n, left, node, mirrors⟩ := ih child
        exact ⟨depth + 1, n, left, .item later node, mirrors⟩
      | map sparse => exact absurd (dense.symm.trans sparse) (by decide)
  | @entry id v w sparse member _ ih =>
    cases levels with
    | zero => exact converted.elim
    | succ levels =>
      cases converted with
      | scalar _ noTable _ => exact absurd rfl (noTable id)
      | array dense => exact absurd (dense.symm.trans sparse) (by decide)
      | map _ _ _ each =>
        obtain ⟨x, later, child⟩ := related_left each member
        obtain ⟨depth, n, left, node, mirrors⟩ := ih child
        exact ⟨depth + 1, n, left, .entry later node, mirrors⟩

/-- The published bounds. -/
structure Respects (s : SharedValue) : Prop where
  depth : ∀ depth n, Node depth s n → depth ≤ maxDepth
  strings : ∀ depth text, Node depth s (.str text) → text.utf8ByteSize ≤ maxStringLen
  arrays : ∀ depth items, Node depth s (.array items) → items.length ≤ maxArrayLen
  maps : ∀ depth entries, Node depth s (.map entries) → entries.length ≤ maxMapKeys
  size : s.approxSize ≤ maxTotalSize

/-- The bound on strings, for the keys of maps. -/
def ShortKeys (s : SharedValue) : Prop :=
  ∀ depth entries, Node depth s (.map entries) → ∀ entry ∈ entries, entry.1.utf8ByteSize ≤ maxStringLen

private theorem accepted_converted {v : LuaValue} {s : SharedValue} (accepted : luaValueToShared heap asF64 v = .ok s) :
    Converted heap (maxDepth + 1) v s ∧ s.approxSize ≤ maxTotalSize := by
  cases run : (convert heap asF64 (maxDepth + 1) v).run maxTotalSize with
  | error e =>
    rw [luaValueToShared, StateT.run'_eq, run] at accepted
    cases accepted
  | ok result =>
    rw [luaValueToShared, StateT.run'_eq, run] at accepted
    cases accepted
    obtain ⟨⟨converted, -⟩, small⟩ := convert_converted _ run
    exact ⟨converted, small⟩

/-- An accepted value respects the bounds exactly if the text of every string inside the Lua value is short, and its
keys are short exactly if the texts of the keys are. -/
theorem shared_value_bounds_iff {v : LuaValue} {s : SharedValue} (accepted : luaValueToShared heap asF64 v = .ok s) :
    (Respects s ↔
      ∀ bytes, Inside heap v (.string bytes) → (fromUtf8Lossy bytes).utf8ByteSize ≤ maxStringLen) ∧
    (ShortKeys s ↔ ∀ id, Inside heap v (.table id) → (heap id).isArray = false →
      ∀ pair ∈ (heap id).pairs, ∀ key, keyText pair.1 = .ok key → key.utf8ByteSize ≤ maxStringLen) := by
  obtain ⟨converted, small⟩ := accepted_converted accepted
  refine ⟨⟨?_, ?_⟩, ⟨?_, ?_⟩⟩
  · intro respects bytes inside
    obtain ⟨depth, n, left, node, mirrors⟩ := inside_converted inside converted
    cases mirrors with
    | scalar noText => exact absurd rfl (noText bytes)
    | text => exact respects.strings depth _ node
  · intro texts
    refine ⟨?_, ?_, ?_, ?_, small⟩
    · intro depth n node
      obtain ⟨left, -, levels, -⟩ := node_converted node converted
      omega
    · intro depth text node
      obtain ⟨left, w, -, inside, mirrors⟩ := node_converted node converted
      cases mirrors with
      | scalar _ _ plain => exact plain.elim
      | text bytes => exact texts bytes inside
    · intro depth items node
      obtain ⟨left, w, -, -, mirrors⟩ := node_converted node converted
      cases mirrors with
      | scalar _ _ plain => exact plain.elim
      | array _ got short each =>
        have size := congrArg List.length got
        rw [length_map, length_map, length_range', each.length_eq] at size
        omega
    · intro depth entries node
      obtain ⟨left, w, -, -, mirrors⟩ := node_converted node converted
      cases mirrors with
      | scalar _ _ plain => exact plain.elim
      | map _ few => exact few
  · intro short id inside sparse pair member key named
    obtain ⟨depth, n, left, node, mirrors⟩ := inside_converted inside converted
    cases mirrors with
    | scalar _ noTable => exact absurd rfl (noTable id)
    | array dense => exact absurd (dense.symm.trans sparse) (by decide)
    | @map _ entries _ _ keys _ =>
      have mapped : Except.ok key ∈ entries.map (fun entry => (.ok entry.1 : Except SharedValueError String)) := by
        rw [← keys, ← named]
        exact mem_map_of_mem member
      obtain ⟨entry, stored, same⟩ := mem_map.mp mapped
      cases same
      exact short depth entries node entry stored
  · intro texts depth entries node entry stored
    obtain ⟨left, w, -, inside, mirrors⟩ := node_converted node converted
    cases mirrors with
    | scalar _ _ plain => exact plain.elim
    | @map id _ sparse _ keys _ =>
      have mapped : (.ok entry.1 : Except SharedValueError String) ∈
          (heap id).pairs.map (fun pair => keyText pair.1) := by
        rw [keys]
        exact mem_map_of_mem stored
      obtain ⟨pair, member, named⟩ := mem_map.mp mapped
      exact texts id inside sparse pair member entry.1 named

end Bounds

section Instances

theorem lossy_replicate {byte : UInt8} {text : String}
    (single : ∀ n rest, lossyLoop (n + 1) (byte :: rest) = text ++ lossyLoop n rest) (n : ℕ) :
    (fromUtf8Lossy (List.replicate n byte)).utf8ByteSize = text.utf8ByteSize * n := by
  rw [fromUtf8Lossy, length_replicate]
  induction n with
  | zero => rfl
  | succ n ih => rw [replicate_succ, single, String.utf8ByteSize_append, ih, Nat.mul_succ, Nat.add_comm]

/-- A byte that is in no character is replaced by three. -/
theorem lossy_invalid (n : ℕ) : (fromUtf8Lossy (List.replicate n 0xff)).utf8ByteSize = 3 * n :=
  lossy_replicate (fun _ _ => rfl : ∀ n rest, lossyLoop (n + 1) (0xff :: rest) = "�" ++ lossyLoop n rest) n

def noTables : LuaHeap := fun _ => ⟨0, [], fun _ => none⟩

private theorem string_accepted {bytes : Bytes} (short : bytes.length ≤ maxStringLen)
    (small : (fromUtf8Lossy bytes).utf8ByteSize + 8 ≤ maxTotalSize) :
    luaValueToShared noTables (fun _ => 0) (.string bytes) = .ok (.str (fromUtf8Lossy bytes)) := by
  have fits : ¬ (SharedValue.str (fromUtf8Lossy bytes)).approxSize > maxTotalSize := by
    exact not_lt.mpr small
  rw [luaValueToShared, Conversion.convert, convertValue_string, if_neg (Nat.not_lt.mpr short), pure_bind, charge,
    StateT.run'_eq]
  simp only [StateT.run_bind, StateT.run_get, pure_bind, if_neg fits, StateT.run_set]
  rfl

/-- A map whose only key leads to an array, which holds a string with an invalid byte. -/
def nestedTables : LuaHeap
  | 0 => ⟨0, [(.string [107], .table 1)], fun _ => none⟩
  | _ => ⟨1, [(.integer 1, .string [104, 0xff])], fun _ => some (.string [104, 0xff])⟩

def nestedValue : SharedValue := .map [(fromUtf8Lossy [107], .array [.str (fromUtf8Lossy [104, 0xff])])]

theorem nested_value_bounds : luaValueToShared nestedTables (fun _ => 0) (.table 0) = .ok nestedValue ∧
    Respects nestedValue ∧ ShortKeys nestedValue := by
  have accepted : luaValueToShared nestedTables (fun _ => 0) (.table 0) = .ok nestedValue := rfl
  obtain ⟨strings, keys⟩ := shared_value_bounds_iff accepted
  refine ⟨accepted, strings.mpr fun bytes inside => ?_, keys.mpr fun id inside sparse pair member key named => ?_⟩
  · cases inside with
    | item dense => cases dense
    | entry sparse member inside =>
      cases mem_singleton.mp member
      cases inside with
      | item dense member inside =>
        cases mem_singleton.mp member
        cases inside
        decide +kernel
      | entry sparse => cases sparse
  · cases id with
    | zero =>
      cases mem_singleton.mp member
      cases named
      decide +kernel
    | succ id => cases sparse

/-- A string of invalid bytes is accepted and three times as long. -/
theorem invalid_string_grows : ∃ text,
    luaValueToShared noTables (fun _ => 0) (.string (List.replicate 4096 0xff)) = .ok (.str text) ∧
      ¬ Respects (.str text) := by
  have size := lossy_invalid 4096
  refine ⟨_, string_accepted length_replicate.le (by rw [size]; decide), ?_⟩
  intro respects
  have short := respects.strings 0 _ (.self _)
  rw [size] at short
  exact absurd short (by decide)

end Instances

end MineRider.Soundness.SharedValues
