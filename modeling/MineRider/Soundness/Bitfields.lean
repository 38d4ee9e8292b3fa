import Mathlib.Algebra.Order.BigOperators.Group.List
import MineRider.Model.Codegen.Bitfield

/-! # Emitted bitfield code reads back what it writes

For every layout of at most 64 bits the emitted expressions compile and are positional packing: a field is put
into its digit, the word is the digits side by side, and each field is read from its own digit again, its sign
extended. A field that does not fit its width is cut down to it on the way.
-/

namespace MineRider.Soundness.Bitfields

open List Machine.Reader Machine.Words Machine.Naming Model.Codegen Model.Protocol FixedInt Expr Value

section Members

/-- The bits of a field on the wire. -/
def digit (m : BitfieldMember) : Value → ℕ
  | .bool b => if b then 1 else 0
  | .int _ v => lowBits m.size.toNat v

/-- The field that bits on the wire stand for. -/
def ofDigit (m : BitfieldMember) (n : ℕ) : Value :=
  match memberTy m.size m.signed with
  | .bool => .bool (n ≠ 0)
  | .int type => .int type (wrap m.signed m.size.toNat n)

/-- Members that the generator can give a type. -/
structure Sized (m : BitfieldMember) : Prop where
  nonempty : 1 ≤ m.size.toNat
  bounded : m.size.toNat ≤ 64
  signed : m.signed = true → m.size.toNat ≤ 63

variable {m : BitfieldMember}

theorem size_eq_one : m.size = 1 ↔ m.size.toNat = 1 := by
  rw [← UInt32.toNat_inj]
  rfl

theorem memberTy_one (single : m.size.toNat = 1) : memberTy m.size m.signed = .bool := by
  rw [memberTy, if_pos (size_eq_one.mpr single)]

/-- The type of a wider member has its sign, and room for it. -/
theorem memberTy_int (several : m.size.toNat ≠ 1) (sized : Sized m) :
    ∃ type, memberTy m.size m.signed = .int type ∧ type.signed = m.signed ∧ m.size.toNat ≤ type.width ∧
      type.width ≤ 64 := by
  have bounded := sized.bounded
  rw [memberTy, if_neg (mt size_eq_one.mp several)]
  simp only [UInt32.le_iff_toNat_le, UInt32.reduceToNat]
  cases m.signed with
  | true =>
    rw [if_pos rfl]
    split_ifs
    all_goals exact ⟨_, rfl, rfl, by simp only [IntType.width]; omega, by decide⟩
  | false =>
    rw [if_neg Bool.false_ne_true]
    split_ifs
    all_goals exact ⟨_, rfl, rfl, by simp only [IntType.width]; omega, by decide⟩

private theorem unsigned_of_full {type : IntType} (sign : type.signed = false) (full : 64 ≤ type.width) :
    type = .u64 := by
  cases type with
  | u64 => rfl
  | i8 | i16 | i32 | i64 => cases sign
  | u8 | u16 | u32 => exact absurd full (by decide)

theorem digit_lt (sized : Sized m) (value : Value) (typed : value.HasType (memberTy m.size m.signed)) :
    digit m value < 2 ^ m.size.toNat := by
  cases value with
  | bool b =>
    have room : 2 ^ 1 ≤ 2 ^ m.size.toNat := Nat.pow_le_pow_right (by decide) sized.nonempty
    rw [digit]
    split_ifs
    · omega
    · omega
  | int type v =>
    have below := Int.emod_lt_of_pos v (two_pow_pos m.size.toNat)
    rw [← lowBits_cast] at below
    exact_mod_cast below

/-- A field as it is read back: cut down to its width. -/
def trimmed (m : BitfieldMember) : Value → Value
  | .bool b => .bool b
  | .int type v => .int type (wrap m.signed m.size.toNat v)

private theorem ofDigit_digit (value : Value) (typed : value.HasType (memberTy m.size m.signed)) :
    ofDigit m (digit m value) = trimmed m value := by
  cases value with
  | bool b =>
    rw [Value.HasType] at typed
    cases b with
    | true | false => simp [ofDigit, typed, digit, trimmed]
  | int type v => simp only [ofDigit, typed.1, digit, wrap_lowBits, trimmed]

private theorem digit_ofDigit (sized : Sized m) {n : ℕ} (small : n < 2 ^ m.size.toNat) : digit m (ofDigit m n) = n := by
  by_cases single : m.size.toNat = 1
  · rw [single] at small
    rw [ofDigit, memberTy_one single]
    obtain rfl | rfl : n = 0 ∨ n = 1 := by omega
    · rfl
    · rfl
  · obtain ⟨type, member, -, -, -⟩ := memberTy_int single sized
    simp only [ofDigit, member, digit, lowBits, wrap_emod]
    exact lowBits_natCast small

/-- Each digit stands for a value of the member's type that fits it. -/
theorem ofDigit_typed (sized : Sized m) (n : ℕ) : (ofDigit m n).HasType (memberTy m.size m.signed) ∧
    trimmed m (ofDigit m n) = ofDigit m n := by
  by_cases single : m.size.toNat = 1
  · simp [ofDigit, memberTy_one single, Value.HasType, trimmed]
  · obtain ⟨type, member, sign, room, -⟩ := memberTy_int single sized
    have fits := wrap_within m.signed m.size.toNat n
    refine ⟨?_, ?_⟩
    · simp only [ofDigit, member]
      refine ⟨rfl, ?_⟩
      rw [sign]
      exact fits.mono sized.nonempty room
    · simp only [ofDigit, member, trimmed, wrap_of_within fits]

end Members

section Expressions

variable {m : BitfieldMember} {env : Var → Option Value} {name : String} {value : Value}

private theorem maskOf_eq (sized : Sized m) : maskOf m.size = 2 ^ m.size.toNat - 1 := by
  rw [maskOf]
  split_ifs with wide
  · have full : m.size.toNat = 64 := le_antisymm sized.bounded (UInt32.le_iff_toNat_le.mp wide)
    rw [full]
  · rfl

private theorem encodeBase_eval (sized : Sized m) (bound : env (.self name) = some value)
    (typed : value.HasType (memberTy m.size m.signed)) :
    (encodeBase m name).eval env = some (.int .u64 (digit m value)) := by
  have field : (var (Var.self name)).eval env = some value := bound
  have bounded := sized.bounded
  by_cases single : m.size.toNat = 1
  · rw [memberTy_one single] at typed
    rw [encodeBase, if_pos (size_eq_one.mpr single), eval_cast field]
    cases value with
    | bool b => cases b <;> rfl
    | int type v => exact absurd typed.1 (by simp)
  · obtain ⟨type, member, sign, room, -⟩ := memberTy_int single sized
    rw [member] at typed
    rw [encodeBase, if_neg (mt size_eq_one.mp single)]
    cases value with
    | bool b => exact absurd typed (by simp [Value.HasType])
    | int type' v =>
      have low := lowBits_cast m.size.toNat v
      cases signed : m.signed with
      | true =>
        have narrow := sized.signed signed
        have small : (2 : ℤ) ^ m.size.toNat ≤ 2 ^ 63 := pow_le_pow_right₀ (by decide) narrow
        have masked : (mask (.cast (.var (.self name)) .i64) (maskOf m.size)).eval env =
            some (.int .i64 (v % 2 ^ m.size.toNat)) := by
          rw [eval_mask (eval_cast field .i64), maskOf_eq sized, Value.cast,
            mask_ones bounded (ones_within small), wrap_emod_of_le (by exact bounded)]
        have fits : Within false 64 (v % 2 ^ m.size.toNat) :=
          within_unsigned.mpr ⟨Int.emod_nonneg _ (two_pow_pos _).ne', by omega⟩
        rw [if_pos rfl, eval_cast masked, Value.cast, digit, low]
        exact congrArg (fun v => some (int .u64 v)) (wrap_of_within fits)
      | false =>
        rw [if_neg Bool.false_ne_true]
        by_cases wide : 64 ≤ m.size
        · have full : m.size.toNat = 64 := le_antisymm bounded (UInt32.le_iff_toNat_le.mp wide)
          obtain ⟨same, fits⟩ := typed
          cases same
          rw [signed] at sign
          rw [full] at room
          obtain rfl := unsigned_of_full sign room
          have whole : v % 2 ^ 64 = v := (wrap_unsigned 64 v).symm.trans (wrap_of_within fits)
          rw [if_pos wide, field, digit, low, full, whole]
        · have small : (2 : ℤ) ^ m.size.toNat ≤ least false 64 + 2 ^ 64 := by
            exact pow_le_pow_right₀ (by decide) bounded
          rw [if_neg wide, eval_mask (eval_cast field .u64), maskOf_eq sized, Value.cast,
            mask_ones bounded (ones_within small), wrap_emod_of_le (by exact bounded), digit, low]

private theorem encodePart_eval (sized : Sized m) (shift : UInt32) (room : m.size.toNat + shift.toNat ≤ 64)
    (bound : env (.self name) = some value) (typed : value.HasType (memberTy m.size m.signed)) :
    (encodePart m name shift).eval env = some (.int .u64 (digit m value * 2 ^ shift.toNat : ℕ)) := by
  have base := encodeBase_eval sized bound typed
  rw [encodePart]
  split_ifs with none
  · subst none
    rw [base, UInt32.toNat_zero, pow_zero, mul_one]
  · have nonempty := sized.nonempty
    have below : digit m value * 2 ^ shift.toNat < 2 ^ 64 := by
      calc digit m value * 2 ^ shift.toNat
          < 2 ^ m.size.toNat * 2 ^ shift.toNat :=
            Nat.mul_lt_mul_of_pos_right (digit_lt sized value typed) (Nat.two_pow_pos _)
        _ = 2 ^ (m.size.toNat + shift.toNat) := (pow_add 2 _ _).symm
        _ ≤ 2 ^ 64 := Nat.pow_le_pow_right (by decide) room
    rw [eval_shl base, shl_natCast below (by omega)]

private theorem decodeShifted_eval (shift : UInt32) (narrow : shift.toNat < 64) {raw : ℕ}
    (bound : env .raw = some (.int .u64 raw)) :
    (decodeShifted shift).eval env = some (.int .u64 (raw / 2 ^ shift.toNat : ℕ)) := by
  have read : (var Var.raw).eval env = some (.int .u64 raw) := bound
  rw [decodeShifted]
  split_ifs with none
  · subst none
    rw [UInt32.toNat_zero, pow_zero, Nat.div_one, read]
  · rw [eval_shr read, Value.shr, if_pos (by exact narrow)]
    rfl

/-- The digit of a member in the word that was read. -/
theorem decodeMasked_eval (sized : Sized m) {shift : UInt32} (room : m.size.toNat + shift.toNat ≤ 64) {raw : ℕ}
    (word : raw < 2 ^ 64) (bound : env .raw = some (.int .u64 raw)) :
    (decodeMasked m shift).eval env = some (.int .u64 (raw / 2 ^ shift.toNat % 2 ^ m.size.toNat : ℕ)) := by
  have nonempty := sized.nonempty
  have shifted := decodeShifted_eval shift (by omega) bound
  rw [decodeMasked]
  split_ifs with wide
  · have full : m.size.toNat = 64 := le_antisymm sized.bounded (UInt32.le_iff_toNat_le.mp wide)
    have below : raw / 2 ^ shift.toNat < 2 ^ 64 := (Nat.div_le_self _ _).trans_lt word
    rw [shifted, full, Nat.mod_eq_of_lt below]
  · have small : (2 : ℤ) ^ m.size.toNat ≤ least false 64 + 2 ^ 64 := by
      exact pow_le_pow_right₀ (by decide) sized.bounded
    rw [eval_mask shifted, maskOf_eq sized, mask_ones sized.bounded (ones_within small)]
    rfl

private theorem castTo_eval {masked : Expr Var} {source type : IntType} {v : ℤ}
    (value : masked.eval env = some (.int source v))
    (fits : Within type.signed type.width v) : (castTo masked (.int type)).eval env = some (.int type v) := by
  rw [castTo, eval_cast value, Value.cast, wrap_of_within fits]

/-- The two shifts extend the sign. -/
theorem double_shift_eval (sized : Sized m) (narrow : m.size.toNat ≤ 63) {masked : Expr Var} {n : ℕ}
    (value : masked.eval env = some (.int .u64 n)) {k : ℕ} (rest : m.size.toNat + k = 64) :
    (shr (.shl (.cast masked .i64) k) k).eval env = some (.int .i64 (wrap true m.size.toNat n)) := by
  have nonempty := sized.nonempty
  have short : k < IntType.i64.width := by
    simp only [IntType.width]
    omega
  have shifted : (shl (.cast masked .i64) k).eval env = some (.int .i64 (wrap true 64 (n * 2 ^ k))) := by
    rw [eval_shl (eval_cast value .i64), Value.cast, Value.shl, if_pos short]
    refine congrArg (fun v => some (int .i64 v)) (wrap_congr ?_)
    rw [Int.mul_emod, wrap_emod, ← Int.mul_emod]
  rw [eval_shr shifted, Value.shr, if_pos short, ← rest, sign_extension nonempty]

private theorem decodeExpr_eval (sized : Sized m) {shift : UInt32} (room : m.size.toNat + shift.toNat ≤ 64) {raw : ℕ}
    (word : raw < 2 ^ 64) (bound : env .raw = some (.int .u64 raw)) :
    (decodeExpr m shift).eval env = some (ofDigit m (raw / 2 ^ shift.toNat % 2 ^ m.size.toNat)) := by
  have masked := decodeMasked_eval sized room word bound
  have small : raw / 2 ^ shift.toNat % 2 ^ m.size.toNat < 2 ^ m.size.toNat := Nat.mod_lt _ (Nat.two_pow_pos _)
  generalize raw / 2 ^ shift.toNat % 2 ^ m.size.toNat = n at masked small ⊢
  by_cases single : m.size.toNat = 1
  · rw [decodeExpr, if_pos (size_eq_one.mpr single), eval_nonzero masked, ofDigit, memberTy_one single, Value.nonzero]
    simp only [Nat.cast_ne_zero]
  · obtain ⟨type, member, sign, fitting, -⟩ := memberTy_int single sized
    have fits : Within type.signed type.width (wrap m.signed m.size.toNat n) := by
      rw [sign]
      exact (wrap_within _ _ _).mono sized.nonempty fitting
    rw [decodeExpr, if_neg (mt size_eq_one.mp single)]
    simp only [ofDigit, member]
    cases signed : m.signed with
    | true =>
      have narrow := sized.signed signed
      have rest : (64 - m.size).toNat = 64 - m.size.toNat :=
        UInt32.toNat_sub_of_le 64 m.size (UInt32.le_iff_toNat_le.mpr sized.bounded)
      have positive : 64 - m.size ≠ 0 := by
        intro none
        rw [none, UInt32.toNat_zero] at rest
        omega
      rw [signed] at member fits
      rw [if_pos rfl, if_neg positive, member]
      exact castTo_eval (double_shift_eval sized narrow masked (by omega)) fits
    | false =>
      have unsigned : wrap false m.size.toNat n = n := by
        rw [wrap_of_within (within_unsigned.mpr ⟨Int.natCast_nonneg n, by exact_mod_cast small⟩)]
      rw [signed] at member fits sign
      rw [unsigned] at fits ⊢
      rw [if_neg Bool.false_ne_true]
      split_ifs with wide
      · have full : 64 ≤ type.width := (UInt32.le_iff_toNat_le.mp wide).trans fitting
        rw [masked, unsigned_of_full sign full]
      · rw [member]
        exact castTo_eval masked fits

end Expressions

section Layouts

def widths (members : List BitfieldMember) : List ℕ := members.map fun m => m.size.toNat

/-- The layouts that the generator is meant for. -/
structure Layout (members : List BitfieldMember) : Prop where
  sized : ∀ m ∈ members, Sized m
  bounded : (widths members).sum ≤ 64

theorem Layout.tail {m : BitfieldMember} {members : List BitfieldMember} (layout : Layout (m :: members)) :
    Layout members := by
  refine ⟨fun m' member => layout.sized m' (mem_cons_of_mem m member), ?_⟩
  have bounded := layout.bounded
  exact (Nat.le_add_left _ _).trans bounded

/-- The shift of the first member is the width of the others. -/
theorem Layout.shift {m : BitfieldMember} {members : List BitfieldMember} {shift : UInt32}
    (start : shift.toNat = (widths (m :: members)).sum) : (shift - m.size).toNat = (widths members).sum := by
  rw [widths, map_cons, sum_cons] at start
  rw [UInt32.toNat_sub_of_le _ _ (UInt32.le_iff_toNat_le.mpr (by omega)), start, widths]
  omega

theorem Layout.split {m : BitfieldMember} {members : List BitfieldMember} {shift : UInt32}
    (start : shift.toNat = (widths (m :: members)).sum) : shift.toNat = m.size.toNat + (shift - m.size).toNat := by
  rw [Layout.shift start, start, widths, map_cons, sum_cons, widths]

/-- The fields of a struct, each under its name. -/
inductive Holds (env : Var → Option Value) : List (BitfieldMember × String) → List Value → Prop where
  | nil : Holds env [] []
  | cons {m : BitfieldMember} {name : String} {value : Value} {named : List (BitfieldMember × String)}
      {values : List Value} (bound : env (.self name) = some value)
      (typed : value.HasType (memberTy m.size m.signed)) (rest : Holds env named values) :
      Holds env ((m, name) :: named) (value :: values)

def digits (members : List BitfieldMember) (values : List Value) : List ℕ := List.zipWith digit members values

theorem pack_cons (m : BitfieldMember) (members : List BitfieldMember) (value : Value) (values : List Value) :
    pack (widths (m :: members)) (digits (m :: members) (value :: values)) =
      digit m value * 2 ^ (widths members).sum + pack (widths members) (digits members values) := rfl

variable {env : Var → Option Value} {named : List (BitfieldMember × String)} {values : List Value}

section

variable (holds : Holds env named values) (layout : Layout (named.map Prod.fst))

include holds layout

theorem Holds.digits : Digits (widths (named.map Prod.fst)) (digits (named.map Prod.fst) values) := by
  induction holds with
  | nil => exact .nil
  | cons bound typed rest ih => exact .cons (digit_lt (layout.sized _ mem_cons_self) _ typed) (ih layout.tail)

/-- Each further part goes into the zeros that the parts before it left. -/
theorem join_eval {shift : UInt32} (start : shift.toNat = (widths (named.map Prod.fst)).sum) {e : Expr Var} {above : ℕ}
    (value : e.eval env = some (.int .u64 (above * 2 ^ shift.toNat : ℕ)))
    (room : (above + 1) * 2 ^ shift.toNat ≤ 2 ^ 64) :
    ((eachMember encodePart shift named).foldl .or e).eval env =
      some (.int .u64 (above * 2 ^ shift.toNat + pack (widths (named.map Prod.fst)) (digits (named.map Prod.fst) values)
        : ℕ)) := by
  induction holds generalizing shift e above with
  | nil => simpa [eachMember, digits, widths, pack] using value
  | @cons m name field named values bound typed rest ih =>
    have sized := layout.sized m mem_cons_self
    have lower := Layout.shift start
    have split : shift.toNat = m.size.toNat + (shift - m.size).toNat := Layout.split start
    have bounded := layout.bounded
    have part := encodePart_eval sized (shift - m.size) (by omega) bound typed
    have small := digit_lt sized field typed
    rw [map_cons, pack_cons, ← lower, eachMember, foldl_cons]
    generalize shift - m.size = shift' at *
    rw [split, pow_add, ← mul_assoc] at value room ⊢
    have inside : digit m field * 2 ^ shift'.toNat < 2 ^ m.size.toNat * 2 ^ shift'.toNat :=
      Nat.mul_lt_mul_of_pos_right small (Nat.two_pow_pos _)
    have fits : (above * 2 ^ m.size.toNat + digit m field + 1) * 2 ^ shift'.toNat ≤ 2 ^ 64 := by
      refine (Nat.mul_le_mul_right _ ?_).trans room
      rw [add_mul above, one_mul]
      omega
    have joined : (or e (encodePart m name shift')).eval env =
        some (.int .u64 ((above * 2 ^ m.size.toNat + digit m field) * 2 ^ shift'.toNat : ℕ)) := by
      rw [add_mul, one_mul, add_mul] at fits
      have positive := Nat.two_pow_pos shift'.toNat
      rw [eval_or value part, add_mul]
      rw [mul_assoc, ← pow_add] at fits ⊢
      refine or_natCast ?_ (by omega)
      rw [pow_add]
      exact inside
    rw [ih layout.tail lower joined fits, add_mul, add_assoc]

/-- The joined parts are the digits side by side. -/
theorem raw_eval (nonempty : named ≠ []) {total : UInt32} (start : total.toNat = (widths (named.map Prod.fst)).sum) :
    ∃ raw, joined (eachMember encodePart total named) = some raw ∧
      raw.eval env =
        some (.int .u64 (pack (widths (named.map Prod.fst)) (digits (named.map Prod.fst) values) : ℕ)) := by
  cases holds with
  | nil => exact absurd rfl nonempty
  | @cons m name field named values bound typed rest =>
    have sized := layout.sized m mem_cons_self
    have lower := Layout.shift start
    have bounded := layout.bounded
    rw [← start, Layout.split start] at bounded
    have part := encodePart_eval sized (total - m.size) bounded bound typed
    have room : (digit m field + 1) * 2 ^ (total - m.size).toNat ≤ 2 ^ 64 := by
      calc (digit m field + 1) * 2 ^ (total - m.size).toNat
          ≤ 2 ^ m.size.toNat * 2 ^ (total - m.size).toNat := Nat.mul_le_mul_right _ (digit_lt sized field typed)
        _ = 2 ^ (m.size.toNat + (total - m.size).toNat) := (pow_add 2 _ _).symm
        _ ≤ 2 ^ 64 := Nat.pow_le_pow_right (by decide) bounded
    refine ⟨_, rfl, ?_⟩
    rw [join_eval rest layout.tail lower part room, map_cons, pack_cons, ← lower]

end

/-- The struct that a word is read as. -/
def readBack (named : List (BitfieldMember × String)) (raw : ℕ) : Record :=
  List.zipWith (fun member n => (member.2, ofDigit member.1 n)) named (unpack (widths (named.map Prod.fst)) raw)

private theorem build_eval (layout : Layout (named.map Prod.fst)) {shift : UInt32}
    (start : shift.toNat = (widths (named.map Prod.fst)).sum) {raw : ℕ} (word : raw < 2 ^ 64) :
    (eachMember (fun m name shift => (name, decodeExpr m shift)) shift named).mapM
      (fun field => do return (field.1, ← field.2.eval (BitfieldCode.ofRaw raw))) = some (readBack named raw) := by
  induction named generalizing shift with
  | nil => rfl
  | cons member named ih =>
    obtain ⟨m, name⟩ := member
    have sized := layout.sized m mem_cons_self
    have lower := Layout.shift start
    have bounded := layout.bounded
    rw [← start, Layout.split start] at bounded
    have bound : BitfieldCode.ofRaw raw .raw = some (.int .u64 raw) := rfl
    have field := decodeExpr_eval sized bounded word bound
    rw [eachMember, mapM_cons, ih layout.tail lower, field, lower]
    rfl

end Layouts

section Names

variable (rustName : String → String) (members : List BitfieldMember)

theorem memberNames_spec : (memberNames rustName members).Nodup ∧
    (memberNames rustName members).length = members.length := by
  induction members using List.reverseRecOn with
  | nil => exact ⟨.nil, rfl⟩
  | append_singleton members m ih =>
    obtain ⟨nodup, length⟩ := ih
    have step : memberNames rustName (members ++ [m]) = memberNames rustName members ++
        [unused (memberNames rustName members) (rustName m.name)] := by
      rw [memberNames, foldl_append]
      rfl
    rw [step]
    refine ⟨?_, ?_⟩
    · rw [← concat_eq_append]
      exact List.Nodup.concat (unused_not_mem _ _) nodup
    · rw [length_append, length_append, length]
      rfl

private theorem lookup_of_mem {record : Record} (distinct : (record.map Prod.fst).Nodup) {name : String} {value : Value}
    (member : (name, value) ∈ record) : record.lookup name = some value := by
  induction record with
  | nil => cases member
  | cons field record ih =>
    obtain ⟨name', value'⟩ := field
    rw [map_cons, nodup_cons] at distinct
    rw [lookup_cons]
    obtain same | later := mem_cons.mp member
    · cases same
      rw [beq_self_eq_true]
    · have other : name ≠ name' := by
        intro same
        exact distinct.1 (mem_map.mpr ⟨_, later, same⟩)
      rw [beq_false_of_ne other]
      exact ih distinct.2 later

end Names

section Wire

private theorem backing_reads (backing : Backing) {n : ℕ} (small : n < 2 ^ backing.type.width) :
    Reads backing.get (backing.put n) n := by
  cases backing with
  | u8 =>
    have read := (u8.get_reads (.ofNat n)).map UInt8.toNat
    rwa [UInt8.toNat_ofNat_of_lt' small] at read
  | u16 =>
    have read := (u16.get_reads (.ofNat n)).map UInt16.toNat
    rwa [UInt16.toNat_ofNat_of_lt' small] at read
  | u32 =>
    have read := (u32.get_reads (.ofNat n)).map UInt32.toNat
    rwa [UInt32.toNat_ofNat_of_lt' small] at read
  | u64 =>
    have read := (u64.get_reads (.ofNat n)).map UInt64.toNat
    rwa [UInt64.toNat_ofNat_of_lt' small] at read

private theorem backing_wide {total : UInt32} (positive : 1 ≤ total.toNat) (bounded : total.toNat ≤ 64) :
    total.toNat ≤ (Backing.ofTotal total).type.width := by
  simp only [Backing.ofTotal, UInt32.le_iff_toNat_le, UInt32.reduceToNat]
  split_ifs
  all_goals
    simp only [Backing.type, IntType.width]
    omega

/-- What `put` is given: the word, cast to the backing integer where that is narrower. -/
theorem written_eval {env : Var → Option Value} {raw : Expr Var} {n : ℕ} {backing : Backing}
    (value : raw.eval env = some (.int .u64 n)) (small : n < 2 ^ backing.type.width) :
    (if backing = .u64 then raw else .cast raw backing.type).eval env = some (.int backing.type n) := by
  split_ifs with wide
  · rw [value, wide]
    rfl
  · have unsigned : backing.type.signed = false := by
      cases backing with
      | u8 | u16 | u32 | u64 => rfl
    have fits : Within backing.type.signed backing.type.width n := by
      rw [unsigned]
      exact within_unsigned.mpr ⟨Int.natCast_nonneg n, by exact_mod_cast small⟩
    rw [eval_cast value, Value.cast, wrap_of_within fits]

end Wire

section RoundTrip

variable {rustName : String → String} {members : List BitfieldMember}

/-- A struct of the emitted type, whose members need not fit their widths. -/
structure Typed (rustName : String → String) (members : List BitfieldMember) (record : Record) : Prop where
  names : record.map Prod.fst = memberNames rustName members
  values : List.Forall₂ (fun (m : BitfieldMember) value => value.HasType (memberTy m.size m.signed)) members
    (record.map Prod.snd)

private theorem holds_of_typed {record : Record} (typed : Typed rustName members record) :
    Holds (BitfieldCode.ofSelf record) (members.zip (memberNames rustName members)) (record.map Prod.snd) := by
  have distinct : (record.map Prod.fst).Nodup := typed.names ▸ (memberNames_spec rustName members).1
  have found : ∀ field ∈ record, BitfieldCode.ofSelf record (.self field.1) = some field.2 :=
    fun field member => lookup_of_mem distinct member
  obtain ⟨names, values⟩ := typed
  rw [← names]
  clear names distinct
  generalize BitfieldCode.ofSelf record = env at found
  induction record generalizing members with
  | nil =>
    obtain rfl := forall₂_nil_right_iff.mp values
    exact .nil
  | cons field record ih =>
    obtain ⟨m, others, typed, rest, rfl⟩ := forall₂_cons_right_iff.mp values
    exact .cons (found field mem_cons_self) typed
      (ih rest fun field member => found field (mem_cons_of_mem _ member))

theorem zip_members (rustName : String → String) (members : List BitfieldMember) :
    (members.zip (memberNames rustName members)).map Prod.fst = members :=
  map_fst_zip (memberNames_spec rustName members).2.ge

private theorem totalSize_toNat (bounded : (widths members).sum ≤ 64) :
    (totalSize members).toNat = (widths members).sum := by
  induction members with
  | nil => rfl
  | cons m members ih =>
    rw [widths, map_cons, sum_cons, ← widths] at bounded ⊢
    have rest := ih (by omega)
    have step : totalSize (m :: members) = m.size + totalSize members := rfl
    rw [step, UInt32.toNat_add, rest, Nat.mod_eq_of_lt (by omega)]

section

variable (layout : Layout members) (nonempty : members ≠ [])

include layout nonempty

theorem Layout.positive : 1 ≤ (widths members).sum := by
  obtain ⟨m, rest, rfl⟩ := exists_cons_of_ne_nil nonempty
  have sized := layout.sized m mem_cons_self
  exact sized.nonempty.trans (Nat.le_add_right _ _)

/-- The emitted `encode` writes the digits of the fields side by side. -/
theorem encode_typed {record : Record}
    (typed : Typed rustName members record) : (emitBitfield rustName members).encode record =
      some ((emitBitfield rustName members).backing.put
        (pack (widths members) (digits members (record.map Prod.snd)))) := by
  have members' := zip_members rustName members
  have total := totalSize_toNat layout.bounded
  have holds := holds_of_typed typed
  generalize zipped : members.zip (memberNames rustName members) = named at members' holds
  have some_named : named ≠ [] := by
    rintro rfl
    exact nonempty members'.symm
  rw [← members'] at layout total
  obtain ⟨raw, parts, value⟩ := raw_eval holds layout some_named total
  have small := pack_lt (holds.digits layout)
  have positive := layout.positive (members'.symm ▸ nonempty)
  have wide := backing_wide (total ▸ positive) (total ▸ layout.bounded)
  rw [members'] at parts value small total wide
  generalize pack (widths members) (digits members (record.map Prod.snd)) = n at value small ⊢
  have word : n < 2 ^ (emitBitfield rustName members).backing.type.width :=
    small.trans_le (Nat.pow_le_pow_right (by decide) (total ▸ wide))
  have code : (emitBitfield rustName members).raw = some raw := by
    rw [← parts, ← zipped]
    rfl
  rw [BitfieldCode.encode, BitfieldCode.written, code, Option.map_some]
  simp only [Option.bind_eq_bind, Option.bind_some]
  rw [written_eval value word]
  simp only [Option.bind_some, Int.toNat_natCast, if_true]

/-- The emitted `decode` reads each field from its own digit. -/
theorem decode_word {n : ℕ} (small : n < 2 ^ (widths members).sum) :
    Reads (emitBitfield rustName members).decode ((emitBitfield rustName members).backing.put n)
      (some (readBack (members.zip (memberNames rustName members)) n)) := by
  have total := totalSize_toNat layout.bounded
  have bounded := layout.bounded
  have wide := backing_wide (total ▸ layout.positive nonempty) (total ▸ bounded)
  have word : n < 2 ^ (emitBitfield rustName members).backing.type.width :=
    small.trans_le (Nat.pow_le_pow_right (by decide) (total ▸ wide))
  have built : (emitBitfield rustName members).build n =
      some (readBack (members.zip (memberNames rustName members)) n) := by
    have members' := zip_members rustName members
    refine build_eval ?_ ?_ (small.trans_le (Nat.pow_le_pow_right (by decide) bounded))
    · rw [members']
      exact layout
    · rw [members']
      exact total
  rw [← built]
  exact (backing_reads _ word).map _

end

/-- Reading back what was written cuts each field down to its width. -/
theorem readBack_pack {named : List (BitfieldMember × String)} {env : Var → Option Value} {values : List Value}
    (holds : Holds env named values) (layout : Layout (named.map Prod.fst)) :
    readBack named (pack (widths (named.map Prod.fst)) (digits (named.map Prod.fst) values)) =
      List.zipWith (fun member value => (member.2, trimmed member.1 value)) named values := by
  rw [readBack, unpack_pack (holds.digits layout)]
  clear layout
  induction holds with
  | nil => rfl
  | cons bound typed rest ih =>
    rw [map_cons, digits, zipWith_cons_cons, zipWith_cons_cons, zipWith_cons_cons, ← digits, ih,
      ofDigit_digit _ typed]

/-- A value that fits its member's width, with its sign where the member is signed. -/
def FitsMember (m : BitfieldMember) : Value → Prop
  | .bool _ => True
  | .int _ v => Within m.signed m.size.toNat v

theorem trimmed_eq_self_iff {m : BitfieldMember} {value : Value} : trimmed m value = value ↔ FitsMember m value := by
  cases value with
  | bool b => simp [trimmed, FitsMember]
  | int type v => rw [trimmed, FitsMember, int.injEq, ← wrap_eq_self_iff, and_iff_right rfl]

structure Fits (rustName : String → String) (members : List BitfieldMember) (record : Record) : Prop
    extends Typed rustName members record where
  within : List.Forall₂ FitsMember members (record.map Prod.snd)

/-- A struct as it is read back. -/
def trimmedRecord (members : List BitfieldMember) (record : Record) : Record :=
  List.zipWith (fun m field => (field.1, trimmed m field.2)) members record

private theorem trimmedRecord_eq (members : List BitfieldMember) (record : Record) :
    List.zipWith (fun member value => (member.2, trimmed member.1 value)) (members.zip (record.map Prod.fst))
      (record.map Prod.snd) = trimmedRecord members record := by
  induction record generalizing members with
  | nil => simp [trimmedRecord]
  | cons field record ih =>
    cases members with
    | nil => rfl
    | cons m members =>
      rw [map_cons, map_cons, zip_cons_cons, zipWith_cons_cons, ih, trimmedRecord, trimmedRecord, zipWith_cons_cons]

private theorem trimmedRecord_of_fits {record : Record}
    (within : List.Forall₂ FitsMember members (record.map Prod.snd)) :
    trimmedRecord members record = record := by
  induction record generalizing members with
  | nil =>
    obtain rfl := forall₂_nil_right_iff.mp within
    rfl
  | cons field record ih =>
    obtain ⟨m, others, fits, rest, rfl⟩ := forall₂_cons_right_iff.mp within
    rw [trimmedRecord, zipWith_cons_cons, ← trimmedRecord, ih rest, trimmed_eq_self_iff.mpr fits]

/-- Any struct is read back as itself with its members cut down to their widths. -/
theorem decode_encode (layout : Layout members) (nonempty : members ≠ []) {record : Record}
    (typed : Typed rustName members record) : ∃ bytes, (emitBitfield rustName members).encode record = some bytes ∧
      Reads (emitBitfield rustName members).decode bytes (some (trimmedRecord members record)) := by
  have members' := zip_members rustName members
  have holds := holds_of_typed typed
  refine ⟨_, encode_typed layout nonempty typed, ?_⟩
  have same := trimmedRecord_eq members record
  rw [typed.names] at same
  rw [← same]
  have small := pack_lt (holds.digits (by rw [members']; exact layout))
  have back := readBack_pack holds (by rw [members']; exact layout)
  rw [members'] at small back
  rw [← back]
  exact decode_word layout nonempty small

theorem readBack_cons (m : BitfieldMember) (name : String) (named : List (BitfieldMember × String)) (n : ℕ) :
    readBack ((m, name) :: named) n =
      (name, ofDigit m (n / 2 ^ (widths (named.map Prod.fst)).sum % 2 ^ m.size.toNat)) :: readBack named n := rfl

private theorem readBack_names (named : List (BitfieldMember × String)) (n : ℕ) :
    (readBack named n).map Prod.fst = named.map Prod.snd := by
  induction named with
  | nil => rfl
  | cons member named ih => rw [readBack_cons member.1 member.2, map_cons, ih, map_cons]

private theorem readBack_values {named : List (BitfieldMember × String)} (layout : Layout (named.map Prod.fst))
    (n : ℕ) :
    List.Forall₂ (fun m value => value.HasType (memberTy m.size m.signed) ∧ FitsMember m value) (named.map Prod.fst)
      ((readBack named n).map Prod.snd) ∧
    digits (named.map Prod.fst) ((readBack named n).map Prod.snd) = unpack (widths (named.map Prod.fst)) n := by
  induction named with
  | nil => exact ⟨.nil, rfl⟩
  | cons member named ih =>
    obtain ⟨m, name⟩ := member
    have sized := layout.sized m mem_cons_self
    obtain ⟨values, same⟩ := ih layout.tail
    obtain ⟨typed, fits⟩ := ofDigit_typed sized (n / 2 ^ (widths (named.map Prod.fst)).sum % 2 ^ m.size.toNat)
    refine ⟨.cons ⟨typed, trimmed_eq_self_iff.mp fits⟩ values, ?_⟩
    rw [readBack_cons, map_cons, map_cons, digits, zipWith_cons_cons, ← digits, same,
      digit_ofDigit sized (Nat.mod_lt _ (Nat.two_pow_pos _))]
    rfl

/-- Every word is read as a struct whose members fit. -/
theorem readBack_fits (rustName : String → String) (layout : Layout members) (n : ℕ) :
    Fits rustName members (readBack (members.zip (memberNames rustName members)) n) ∧
      digits members ((readBack (members.zip (memberNames rustName members)) n).map Prod.snd) =
        unpack (widths members) n := by
  have members' := zip_members rustName members
  have names' := map_snd_zip (memberNames_spec rustName members).2.le
  have names := readBack_names (members.zip (memberNames rustName members)) n
  rw [names'] at names
  rw [← members'] at layout
  obtain ⟨values, same⟩ := readBack_values layout n
  rw [members'] at values same
  refine ⟨⟨⟨names, ?_⟩, ?_⟩, same⟩
  · exact values.imp fun _ _ both => both.1
  · exact values.imp fun _ _ both => both.2

private theorem layout_of_accepted {ctx : String} (accepted : validateBitfield ctx members = .ok ())
    (signed : ∀ m ∈ members, m.signed → m.size ≤ 63) (bounded : (widths members).sum ≤ 64) :
    Layout members ∧ members ≠ [] := by
  rw [validateBitfield] at accepted
  by_cases outside : totalSize members = 0 ∨ totalSize members > 64
  · rw [if_pos outside] at accepted
    cases accepted
  · rw [if_neg outside] at accepted
    cases empty : members.find? (·.size = 0) with
    | some m =>
      rw [empty] at accepted
      cases accepted
    | none =>
      refine ⟨⟨?_, bounded⟩, ?_⟩
      · intro m member
        have positive := find?_eq_none.mp empty m member
        have part : m.size.toNat ≤ (widths members).sum := single_le_sum (by simp) _ (mem_map_of_mem member)
        refine ⟨?_, part.trans bounded, fun negative => UInt32.le_iff_toNat_le.mp (signed m member negative)⟩
        rw [decide_eq_true_eq, ← UInt32.toNat_inj] at positive
        exact Nat.one_le_iff_ne_zero.mpr positive
      · rintro rfl
        exact outside (.inl rfl)

theorem bitfield_round_trip (rustName : String → String) (members : List BitfieldMember) (ctx : String)
    (accepted : validateBitfield ctx members = .ok ()) (signed : ∀ m ∈ members, m.signed → m.size ≤ 63)
    (bounded : (widths members).sum ≤ 64) :
    (∀ record, Fits rustName members record → ∃ bytes,
      (emitBitfield rustName members).encode record = some bytes ∧
        Reads (emitBitfield rustName members).decode bytes (some record)) ∧
    ∀ r < 2 ^ (widths members).sum, ∃ record, Fits rustName members record ∧
      Reads (emitBitfield rustName members).decode ((emitBitfield rustName members).backing.put r) (some record) ∧
      (emitBitfield rustName members).encode record = some ((emitBitfield rustName members).backing.put r) := by
  obtain ⟨layout, nonempty⟩ := layout_of_accepted accepted signed bounded
  refine ⟨?_, ?_⟩
  · intro record fits
    obtain ⟨bytes, written, reads⟩ := decode_encode layout nonempty fits.toTyped
    rw [trimmedRecord_of_fits fits.within] at reads
    exact ⟨bytes, written, reads⟩
  · intro r small
    obtain ⟨fits, same⟩ := readBack_fits rustName layout r
    refine ⟨_, fits, decode_word layout nonempty small, ?_⟩
    rw [encode_typed layout nonempty fits.toTyped, same, pack_unpack, Nat.mod_eq_of_lt small]

/-- A layout with a flag, a signed member and two members of one name. -/
def demoMembers : List BitfieldMember :=
  [⟨"flag", 1, false⟩, ⟨"delta", 5, true⟩, ⟨"part", 3, false⟩, ⟨"part", 4, false⟩]

def demoRecord : Record := [("flag", .bool true), ("delta", .int .i8 (-3)), ("part", .int .u8 6), ("part2", .int .u8 9)]

theorem bitfield_round_trip_demo : ∃ bytes, (emitBitfield id demoMembers).encode demoRecord = some bytes ∧
    Reads (emitBitfield id demoMembers).decode bytes (some demoRecord) := by
  refine (bitfield_round_trip id demoMembers "demo" (by decide) (by decide) (by decide)).1 demoRecord ?_
  refine ⟨⟨by decide, ?_⟩, ?_⟩
  · exact .cons rfl (.cons ⟨rfl, by decide⟩ (.cons ⟨rfl, by decide⟩ (.cons ⟨rfl, by decide⟩ .nil)))
  · exact .cons trivial (.cons (show Within true 5 (-3) by decide)
      (.cons (show Within false 3 6 by decide) (.cons (show Within false 4 9 by decide) .nil)))

example : (emitBitfield id demoMembers).encode demoRecord = some [0x1E, 0xE9] := by decide

end RoundTrip

end MineRider.Soundness.Bitfields
