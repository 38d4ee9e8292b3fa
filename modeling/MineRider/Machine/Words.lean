import Mathlib.Algebra.Order.Ring.Int
import Mathlib.Data.Nat.Bitwise
import Mathlib.Tactic.Linarith
import Mathlib.Tactic.Ring

/-! # Fixed-width integers and expressions over them

A signed or unsigned number of some width is an integer between its bounds, and `wrap` is the number of that
width with the same low bits. Machine integer types are eight such widths. `Expr` are the expressions that pack
and unpack bits: casts, masks, shifts and `|`, over variables of any kind. Evaluation is partial, since an
expression may be ill typed, a mask may not be a literal of its operand's type, and a shift may be too wide.
-/

namespace MineRider.Machine.Words

section Widths

def least (signed : Bool) (width : ℕ) : ℤ := if signed then -2 ^ (width - 1) else 0

/-- The numbers of a width. -/
def Within (signed : Bool) (width : ℕ) (v : ℤ) : Prop := least signed width ≤ v ∧ v < least signed width + 2 ^ width

instance (signed : Bool) (width : ℕ) (v : ℤ) : Decidable (Within signed width v) :=
  inferInstanceAs (Decidable (_ ∧ _))

/-- The number of the width that has the low bits of `v`. -/
def wrap (signed : Bool) (width : ℕ) (v : ℤ) : ℤ := (v - least signed width) % 2 ^ width + least signed width

variable {signed : Bool} {width : ℕ} {v u : ℤ}

theorem two_pow_pos (n : ℕ) : (0 : ℤ) < 2 ^ n := pow_pos (by decide) n

theorem least_nonpos (signed : Bool) (width : ℕ) : least signed width ≤ 0 := by
  rw [least]
  split_ifs
  · linarith [two_pow_pos (width - 1)]
  · exact le_refl 0

theorem wrap_within (signed : Bool) (width : ℕ) (v : ℤ) : Within signed width (wrap signed width v) := by
  refine ⟨?_, ?_⟩
  · rw [wrap]
    omega
  · rw [wrap]
    omega

theorem wrap_of_within (fits : Within signed width v) : wrap signed width v = v := by
  obtain ⟨low, high⟩ := fits
  rw [wrap, Int.emod_eq_of_lt (by omega) (by omega)]
  omega

theorem wrap_eq_self_iff : wrap signed width v = v ↔ Within signed width v := by
  refine ⟨fun same => ?_, wrap_of_within⟩
  rw [← same]
  exact wrap_within signed width v

/-- Wrapping reads the low bits only. -/
theorem wrap_congr (same : v % 2 ^ width = u % 2 ^ width) : wrap signed width v = wrap signed width u := by
  rw [wrap, wrap, Int.sub_emod, same, ← Int.sub_emod]

theorem wrap_emod (signed : Bool) (width : ℕ) (v : ℤ) : wrap signed width v % 2 ^ width = v % 2 ^ width := by
  rw [wrap, Int.emod_add_emod]
  congr 1
  omega

/-- The low bits are those of a wider number. -/
theorem wrap_emod_of_le {narrow : ℕ} (narrower : narrow ≤ width) :
    wrap signed width v % 2 ^ narrow = v % 2 ^ narrow := by
  have divides : (2 : ℤ) ^ narrow ∣ 2 ^ width := pow_dvd_pow 2 narrower
  rw [← Int.emod_emod_of_dvd _ divides, wrap_emod, Int.emod_emod_of_dvd _ divides]

theorem within_unsigned : Within false width v ↔ 0 ≤ v ∧ v < 2 ^ width := by simp [Within, least]

theorem within_signed (nonempty : 1 ≤ width) :
    Within true width v ↔ -2 ^ (width - 1) ≤ v ∧ v < 2 ^ (width - 1) := by
  have halves : (2 : ℤ) ^ width = 2 ^ (width - 1) + 2 ^ (width - 1) := by
    rw [← two_mul, ← pow_succ', Nat.sub_add_cancel nonempty]
  simp only [Within, least, if_true, halves]
  constructor
  all_goals
    rintro ⟨low, high⟩
    exact ⟨low, by linarith⟩

theorem wrap_unsigned (width : ℕ) (v : ℤ) : wrap false width v = v % 2 ^ width := by simp [wrap, least]

/-- A number of a width is one of every width as large. -/
theorem Within.mono {wider : ℕ} (nonempty : 1 ≤ width) (le : width ≤ wider) (fits : Within signed width v) :
    Within signed wider v := by
  cases signed with
  | false =>
    rw [within_unsigned] at fits ⊢
    exact ⟨fits.1, fits.2.trans_le (pow_le_pow_right₀ (by decide) le)⟩
  | true =>
    rw [within_signed nonempty] at fits
    rw [within_signed (nonempty.trans le)]
    have grows : (2 : ℤ) ^ (width - 1) ≤ 2 ^ (wider - 1) := pow_le_pow_right₀ (by decide) (by omega)
    exact ⟨by linarith [fits.1], by linarith [fits.2]⟩

/-- Shifting a number to the top of a wider signed word and back again extends its sign. -/
theorem sign_extension {count : ℕ} (nonempty : 1 ≤ width) :
    wrap true (width + count) (v * 2 ^ count) / 2 ^ count = wrap true width v := by
  have top : (2 : ℤ) ^ (width + count - 1) = 2 ^ (width - 1) * 2 ^ count := by
    rw [← pow_add]
    congr 1
    omega
  have scaled : wrap true (width + count) (v * 2 ^ count) = wrap true width v * 2 ^ count := by
    have shifted : v * 2 ^ count + 2 ^ (width - 1) * 2 ^ count = 2 ^ count * (v + 2 ^ (width - 1)) := by ring
    simp only [wrap, least, if_true, top, sub_neg_eq_add]
    rw [shifted, pow_add, mul_comm (2 ^ width), Int.mul_emod_mul_of_pos _ _ (two_pow_pos count)]
    ring
  rw [scaled, Int.mul_ediv_cancel _ (two_pow_pos count).ne']

end Widths

section Values

inductive IntType where
  | i8
  | i16
  | i32
  | i64
  | u8
  | u16
  | u32
  | u64
deriving DecidableEq, Repr

def IntType.signed : IntType → Bool
  | .i8 | .i16 | .i32 | .i64 => true
  | .u8 | .u16 | .u32 | .u64 => false

def IntType.width : IntType → ℕ
  | .i8 | .u8 => 8
  | .i16 | .u16 => 16
  | .i32 | .u32 => 32
  | .i64 | .u64 => 64

inductive ScalarType where
  | bool
  | int (type : IntType)
deriving DecidableEq, Repr

inductive Value where
  | bool (b : Bool)
  | int (type : IntType) (v : ℤ)
deriving DecidableEq, Repr

def lowBits (width : ℕ) (v : ℤ) : ℕ := (v % 2 ^ width).toNat

namespace Value

/-- A value of the type, within its bounds. -/
def HasType : Value → ScalarType → Prop
  | .bool _, type => type = .bool
  | .int type v, type' => type' = .int type ∧ Within type.signed type.width v

/-- `v as type` -/
def cast (type : IntType) : Value → Value
  | .bool b => .int type (if b then 1 else 0)
  | .int _ v => .int type (wrap type.signed type.width v)

/-- `v & literal` -/
def mask (literal : ℕ) : Value → Option Value
  | .bool _ => none
  | .int type v =>
    if Within type.signed type.width literal then
      some (.int type (wrap type.signed type.width (lowBits type.width v &&& literal : ℕ)))
    else none

/-- `v << count` -/
def shl (count : ℕ) : Value → Option Value
  | .bool _ => none
  | .int type v =>
    if count < type.width then some (.int type (wrap type.signed type.width (v * 2 ^ count))) else none

/-- `v >> count`, which keeps the sign. -/
def shr (count : ℕ) : Value → Option Value
  | .bool _ => none
  | .int type v => if count < type.width then some (.int type (v / 2 ^ count)) else none

/-- `v | u` -/
def or : Value → Value → Option Value
  | .bool a, .bool b => some (.bool (a || b))
  | .int type v, .int type' u =>
    if type = type' then
      some (.int type (wrap type.signed type.width (lowBits type.width v ||| lowBits type.width u : ℕ)))
    else none
  | _, _ => none

/-- `v != 0` -/
def nonzero : Value → Option Value
  | .bool _ => none
  | .int _ v => some (.bool (v ≠ 0))

end Value

theorem lowBits_cast (width : ℕ) (v : ℤ) : (lowBits width v : ℤ) = v % 2 ^ width :=
  Int.toNat_of_nonneg (Int.emod_nonneg _ (two_pow_pos width).ne')

theorem lowBits_natCast {width n : ℕ} (small : n < 2 ^ width) : lowBits width n = n := by
  have low : ((n : ℤ) % 2 ^ width) = n := Int.emod_eq_of_lt (Int.natCast_nonneg n) (by exact_mod_cast small)
  rw [lowBits, low, Int.toNat_natCast]

theorem ones_cast (n : ℕ) : ((2 ^ n - 1 : ℕ) : ℤ) = 2 ^ n - 1 := by
  push_cast [Nat.one_le_two_pow]
  rfl

/-- The type can write a mask of `n` ones. -/
theorem ones_within {type : IntType} {n : ℕ} (room : (2 : ℤ) ^ n ≤ least type.signed type.width + 2 ^ type.width) :
    Within type.signed type.width (2 ^ n - 1 : ℕ) := by
  have positive := two_pow_pos n
  have low := least_nonpos type.signed type.width
  rw [ones_cast]
  exact ⟨by omega, by omega⟩

theorem wrap_lowBits (signed : Bool) (width : ℕ) (v : ℤ) :
    wrap signed width (lowBits width v) = wrap signed width v := by
  apply wrap_congr
  rw [lowBits_cast, Int.emod_emod_of_dvd _ (dvd_refl _)]

/-- A mask of ones that the type can write takes the low bits. -/
theorem Value.mask_ones {type : IntType} {v : ℤ} {n : ℕ} (narrower : n ≤ type.width)
    (literal : Within type.signed type.width (2 ^ n - 1 : ℕ)) :
    (Value.int type v).mask (2 ^ n - 1) = some (.int type (v % 2 ^ n)) := by
  have divides : (2 : ℤ) ^ n ∣ 2 ^ type.width := pow_dvd_pow 2 narrower
  have masked : ((lowBits type.width v &&& (2 ^ n - 1) : ℕ) : ℤ) = v % 2 ^ n := by
    rw [Nat.and_two_pow_sub_one_eq_mod]
    push_cast
    rw [lowBits_cast, Int.emod_emod_of_dvd _ divides]
  have nonneg := Int.emod_nonneg v (two_pow_pos n).ne'
  have fits : Within type.signed type.width (v % 2 ^ n) := by
    refine ⟨(least_nonpos _ _).trans nonneg, ?_⟩
    have top := literal.2
    rw [ones_cast] at top
    omega
  rw [Value.mask, if_pos literal, masked, wrap_of_within fits]

/-- Nothing of an unsigned number is shifted out when there is room for it. -/
theorem Value.shl_natCast {n count : ℕ} (room : n * 2 ^ count < 2 ^ 64) (narrow : count < 64) :
    (Value.int .u64 n).shl count = some (.int .u64 (n * 2 ^ count : ℕ)) := by
  have fits : Within false 64 (n * 2 ^ count : ℕ) := within_unsigned.mpr ⟨by positivity, by exact_mod_cast room⟩
  have kept := wrap_of_within fits
  rw [Value.shl, if_pos (show count < IntType.u64.width from narrow)]
  exact congrArg (fun v => some (Value.int .u64 v)) kept

/-- Joining a number to one that has zeros in its place adds the two. -/
theorem Value.or_natCast {high low count : ℕ} (small : low < 2 ^ count) (room : high * 2 ^ count + low < 2 ^ 64) :
    (Value.int .u64 (high * 2 ^ count : ℕ)).or (.int .u64 low) = some (.int .u64 (high * 2 ^ count + low : ℕ)) := by
  have joined : high * 2 ^ count ||| low = high * 2 ^ count + low := by
    rw [mul_comm, Nat.two_pow_add_eq_or_of_lt small]
  have fits : Within false 64 (high * 2 ^ count + low : ℕ) :=
    within_unsigned.mpr ⟨by positivity, by exact_mod_cast room⟩
  rw [Value.or, if_pos rfl, show IntType.u64.width = 64 from rfl, lowBits_natCast (by omega),
    lowBits_natCast (by omega), joined]
  exact congrArg (fun v => some (Value.int .u64 v)) (wrap_of_within fits)

end Values

section Expressions

inductive Expr (ν : Type) where
  | var (name : ν)
  | cast (e : Expr ν) (type : IntType)
  | mask (e : Expr ν) (literal : ℕ)
  | shl (e : Expr ν) (count : ℕ)
  | shr (e : Expr ν) (count : ℕ)
  | or (left right : Expr ν)
  | nonzero (e : Expr ν)
deriving DecidableEq, Repr

/-- The value of an expression, where it compiles. -/
def Expr.eval {ν : Type} (env : ν → Option Value) : Expr ν → Option Value
  | .var name => env name
  | .cast e type => do return (← e.eval env).cast type
  | .mask e literal => do (← e.eval env).mask literal
  | .shl e count => do (← e.eval env).shl count
  | .shr e count => do (← e.eval env).shr count
  | .or left right => do (← left.eval env).or (← right.eval env)
  | .nonzero e => do (← e.eval env).nonzero

section Evaluation

variable {ν : Type} {env : ν → Option Value} {e e' : Expr ν} {v u : Value}

section

variable (value : e.eval env = some v)

include value

theorem Expr.eval_cast (type : IntType) :
    (Expr.cast e type).eval env = some (v.cast type) := by
  rw [Expr.eval, value]
  rfl

theorem Expr.eval_mask (literal : ℕ) :
    (Expr.mask e literal).eval env = v.mask literal := by
  rw [Expr.eval, value]
  rfl

theorem Expr.eval_shl (count : ℕ) : (Expr.shl e count).eval env = v.shl count := by
  rw [Expr.eval, value]
  rfl

theorem Expr.eval_shr (count : ℕ) : (Expr.shr e count).eval env = v.shr count := by
  rw [Expr.eval, value]
  rfl

end

theorem Expr.eval_or (left : e.eval env = some v) (right : e'.eval env = some u) :
    (Expr.or e e').eval env = v.or u := by
  rw [Expr.eval, left, right]
  rfl

theorem Expr.eval_nonzero (value : e.eval env = some v) : (Expr.nonzero e).eval env = v.nonzero := by
  rw [Expr.eval, value]
  rfl

end Evaluation

end Expressions

section Packing

/-- Digits of the given widths side by side, the first one on top. -/
def pack : List ℕ → List ℕ → ℕ
  | _ :: widths, digit :: digits => digit * 2 ^ widths.sum + pack widths digits
  | _, _ => 0

def unpack : List ℕ → ℕ → List ℕ
  | [], _ => []
  | width :: widths, n => n / 2 ^ widths.sum % 2 ^ width :: unpack widths n

/-- Digits that fit their widths. -/
abbrev Digits : List ℕ → List ℕ → Prop := List.Forall₂ fun width digit => digit < 2 ^ width

variable {widths digits : List ℕ}

theorem pack_lt (fit : Digits widths digits) : pack widths digits < 2 ^ widths.sum := by
  induction fit with
  | nil => simp [pack]
  | @cons width digit widths digits small _ ih =>
    rw [pack, List.sum_cons, pow_add]
    calc digit * 2 ^ widths.sum + pack widths digits
        < (digit + 1) * 2 ^ widths.sum := by rw [add_mul, one_mul]; omega
      _ ≤ 2 ^ width * 2 ^ widths.sum := Nat.mul_le_mul_right _ small

/-- What lies above the digits is not read. -/
theorem unpack_add (widths : List ℕ) (above n : ℕ) :
    unpack widths (above * 2 ^ widths.sum + n) = unpack widths n := by
  induction widths generalizing above with
  | nil => rfl
  | cons width widths ih =>
    have split : above * 2 ^ (width + widths.sum) + n = above * 2 ^ width * 2 ^ widths.sum + n := by
      rw [pow_add, mul_assoc]
    rw [unpack, unpack, List.sum_cons, split, ih, mul_comm (above * 2 ^ width),
      Nat.mul_add_div (Nat.two_pow_pos _), mul_comm above, Nat.mul_add_mod]

theorem unpack_pack (fit : Digits widths digits) : unpack widths (pack widths digits) = digits := by
  induction fit with
  | nil => rfl
  | @cons width digit widths digits small fit ih =>
    have top : (digit * 2 ^ widths.sum + pack widths digits) / 2 ^ widths.sum = digit := by
      rw [mul_comm, Nat.mul_add_div (Nat.two_pow_pos _), Nat.div_eq_of_lt (pack_lt fit), add_zero]
    rw [pack, unpack, unpack_add, ih, top, Nat.mod_eq_of_lt small]

theorem pack_unpack (widths : List ℕ) (n : ℕ) : pack widths (unpack widths n) = n % 2 ^ widths.sum := by
  induction widths with
  | nil => simp [pack, Nat.mod_one]
  | cons width widths ih =>
    rw [unpack, pack, ih, List.sum_cons, add_comm width, pow_add, Nat.mod_mul]
    ring

end Packing

section Checked

/-- A result of 32-bit arithmetic, `none` where it overflows. -/
def checked (v : ℤ) : Option Int32 := if -2 ^ 31 ≤ v ∧ v < 2 ^ 31 then some (Int32.ofInt v) else none

theorem checked_eq_some_iff {v : ℤ} {w : Int32} : checked v = some w ↔ w.toInt = v := by
  rw [checked]
  split_ifs with fits
  · rw [Option.some_inj]
    constructor
    · rintro rfl
      exact Int32.toInt_ofInt_of_le fits.1 fits.2
    · rintro rfl
      exact Int32.ofInt_toInt w
  · refine iff_of_false (by simp) ?_
    rintro rfl
    exact fits ⟨w.le_toInt, w.toInt_lt⟩

theorem checked_isSome {v : ℤ} : (checked v).isSome ↔ -2 ^ 31 ≤ v ∧ v < 2 ^ 31 := by
  rw [checked]
  split_ifs with fits
  · exact iff_of_true rfl fits
  · exact iff_of_false (by simp) fits

end Checked

end MineRider.Machine.Words
