import MineRider.Machine.Naming
import MineRider.Machine.Words
import MineRider.Model.Protocol.Buffer

/-! # The bitfield template of the packet generator

A bitfield description lists members with their widths, the first one in the top bits. The generator emits a
struct with one field a member, and expressions that pack the fields into a word and unpack them again.
`emitBitfield` builds these expressions; running the emitted code is their evaluation, between a record of the
struct and the bytes of the backing integer. Sizes and shifts are the generator's `u32`, which wrap.
-/

namespace MineRider.Model.Codegen

open Machine.Words Machine.Naming Protocol

structure BitfieldMember where
  name : String
  size : UInt32
  signed : Bool
deriving DecidableEq, Repr

section Validation

/-- `CodegenError::Invalid`, the one error of validation. -/
inductive CodegenError where
  | invalid (message : String)
deriving DecidableEq, Repr

def totalSize (members : List BitfieldMember) : UInt32 := members.foldr (fun m total => m.size + total) 0

/-- The bitfield case of `validate_complex`. -/
def validateBitfield (ctx : String) (members : List BitfieldMember) : Except CodegenError Unit := do
  let total := totalSize members
  if total = 0 ∨ total > 64 then
    throw (.invalid s!"{ctx}: bitfield total width {total} bits is out of range 1..=64")
  match members.find? (·.size = 0) with
  | some m =>
    let name := m.name
    throw (.invalid s!"{ctx}: bitfield member `{name}` has size 0")
  | none => pure ()

end Validation

section Template

/-- The unsigned integer that carries a bitfield on the wire. -/
inductive Backing where
  | u8
  | u16
  | u32
  | u64
deriving DecidableEq, Repr

namespace Backing

def type : Backing → IntType
  | .u8 => .u8
  | .u16 => .u16
  | .u32 => .u32
  | .u64 => .u64

def ofTotal (total : UInt32) : Backing :=
  if 1 ≤ total ∧ total ≤ 8 then .u8
  else if 9 ≤ total ∧ total ≤ 16 then .u16
  else if 17 ≤ total ∧ total ≤ 32 then .u32
  else .u64

def put : Backing → ℕ → Bytes
  | .u8, n => FixedInt.u8.put (.ofNat n)
  | .u16, n => FixedInt.u16.put (.ofNat n)
  | .u32, n => FixedInt.u32.put (.ofNat n)
  | .u64, n => FixedInt.u64.put (.ofNat n)

/-- The `get` method, widened to `u64`. -/
def get : Backing → PacketReader ℕ
  | .u8 => do return (← FixedInt.u8.get).toNat
  | .u16 => do return (← FixedInt.u16.get).toNat
  | .u32 => do return (← FixedInt.u32.get).toNat
  | .u64 => do return (← FixedInt.u64.get).toNat

end Backing

def memberTy (size : UInt32) (signed : Bool) : ScalarType :=
  if size = 1 then .bool
  else if signed then
    if 2 ≤ size ∧ size ≤ 8 then .int .i8
    else if 9 ≤ size ∧ size ≤ 16 then .int .i16
    else if 17 ≤ size ∧ size ≤ 32 then .int .i32
    else .int .i64
  else
    if 2 ≤ size ∧ size ≤ 8 then .int .u8
    else if 9 ≤ size ∧ size ≤ 16 then .int .u16
    else if 17 ≤ size ∧ size ≤ 32 then .int .u32
    else .int .u64

/-- What an emitted expression can name. -/
inductive Var where
  | raw
  | self (name : String)
deriving DecidableEq, Repr

def maskOf (size : UInt32) : ℕ := if 64 ≤ size then 2 ^ 64 - 1 else 2 ^ size.toNat - 1

def encodeBase (m : BitfieldMember) (name : String) : Expr Var :=
  if m.size = 1 then .cast (.var (.self name)) .u64
  else if m.signed then .cast (.mask (.cast (.var (.self name)) .i64) (maskOf m.size)) .u64
  else if 64 ≤ m.size then .var (.self name)
  else .mask (.cast (.var (.self name)) .u64) (maskOf m.size)

def encodePart (m : BitfieldMember) (name : String) (shift : UInt32) : Expr Var :=
  if shift = 0 then encodeBase m name else .shl (encodeBase m name) shift.toNat

def decodeShifted (shift : UInt32) : Expr Var := if shift = 0 then .var .raw else .shr (.var .raw) shift.toNat

def decodeMasked (m : BitfieldMember) (shift : UInt32) : Expr Var :=
  if 64 ≤ m.size then decodeShifted shift else .mask (decodeShifted shift) (maskOf m.size)

/-- `masked as type`, for the types that are integers. -/
def castTo (masked : Expr Var) : ScalarType → Expr Var
  | .bool => masked
  | .int type => .cast masked type

def decodeExpr (m : BitfieldMember) (shift : UInt32) : Expr Var :=
  let masked := decodeMasked m shift
  if m.size = 1 then .nonzero masked
  else if m.signed then
    let k := 64 - m.size
    if k = 0 then .cast masked .i64
    else castTo (.shr (.shl (.cast masked .i64) k.toNat) k.toNat) (memberTy m.size true)
  else if 64 ≤ m.size then masked
  else castTo masked (memberTy m.size false)

/-- The loop that both emitted functions share: the shift goes down by each member's size. -/
def eachMember {α : Type} (emit : BitfieldMember → String → UInt32 → α) :
    UInt32 → List (BitfieldMember × String) → List α
  | _, [] => []
  | shift, (m, name) :: rest => emit m name (shift - m.size) :: eachMember emit (shift - m.size) rest

/-- `parts.join(" | ")` -/
def joined : List (Expr Var) → Option (Expr Var)
  | [] => none
  | part :: parts => some (parts.foldl .or part)

/-- The names of the fields: `rustName` is `ident(&snake(..))`, numbered where the name is taken. -/
def memberNames (rustName : String → String) (members : List BitfieldMember) : List String :=
  members.foldl (fun names m => names ++ [unused names (rustName m.name)]) []

/-- The emitted struct and the expressions of its two functions. -/
structure BitfieldCode where
  fields : List (String × ScalarType)
  backing : Backing
  /-- `let raw = ..`, which does not compile where there is nothing to join. -/
  raw : Option (Expr Var)
  exprs : List (String × Expr Var)
deriving DecidableEq, Repr

def emitBitfield (rustName : String → String) (members : List BitfieldMember) : BitfieldCode :=
  let total := totalSize members
  let named := members.zip (memberNames rustName members)
  { fields := named.map fun (m, name) => (name, memberTy m.size m.signed)
    backing := .ofTotal total
    raw := joined (eachMember encodePart total named)
    exprs := eachMember (fun m name shift => (name, decodeExpr m shift)) total named }

end Template

section Emitted

/-- A value of the emitted struct. -/
abbrev Record := List (String × Value)

namespace BitfieldCode

/-- In `encode` an expression sees the struct, in `decode` the word that was read. -/
def ofSelf (record : Record) : Var → Option Value
  | .self name => record.lookup name
  | .raw => none

def ofRaw (raw : ℕ) : Var → Option Value
  | .raw => some (.int .u64 raw)
  | .self _ => none

/-- The argument of `put`; the cast of a `u64` to itself is not emitted. -/
def written (code : BitfieldCode) : Option (Expr Var) :=
  code.raw.map fun raw => if code.backing = .u64 then raw else .cast raw code.backing.type

def encode (code : BitfieldCode) (record : Record) : Option Bytes := do
  match ← (← code.written).eval (ofSelf record) with
  | .int type v => if type = code.backing.type then some (code.backing.put v.toNat) else none
  | .bool _ => none

/-- `Self { .. }` -/
def build (code : BitfieldCode) (raw : ℕ) : Option Record :=
  code.exprs.mapM fun field => do return (field.1, ← field.2.eval (ofRaw raw))

def decode (code : BitfieldCode) : PacketReader (Option Record) := do
  let raw ← code.backing.get
  pure (code.build raw)

end BitfieldCode

end Emitted

end MineRider.Model.Codegen
