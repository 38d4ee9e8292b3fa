import MineRider.Model.Lua.Event

/-! # Values that cross between workers

The conversion of a Lua value into plain data. Tables are shared and may contain themselves, so a Lua value is a
reference into a heap; the depth bound is what ends the recursion, and `levels` counts what is left of it. The
conversion of an integer to a double is external, and so is what indexing a table gives, which may run code.
-/

namespace MineRider.Model.Lua

open Protocol (Bytes)

def maxDepth : ℕ := 8
/-- In bytes. -/
def maxStringLen : ℕ := 4096
def maxArrayLen : ℕ := 256
def maxMapKeys : ℕ := 256
def maxTotalSize : ℕ := 65536

inductive SharedValueError where
  | tooDeep
  | stringTooLong
  | arrayTooLong
  | tooManyKeys
  | tooLarge
  | nonFiniteNumber
  | unsupportedType (name : String)
  | unsupportedKey
deriving DecidableEq, Repr

mutual

def SharedValue.approxSize : SharedValue → ℕ
  | .nil => 1
  | .bool _ => 1
  | .number _ => 8
  | .str s => s.utf8ByteSize + 8
  | .array items => approxSizeItems items + 8
  | .map entries => approxSizeEntries entries + 8

def approxSizeItems : List SharedValue → ℕ
  | [] => 0
  | item :: rest => item.approxSize + approxSizeItems rest

def approxSizeEntries : List (String × SharedValue) → ℕ
  | [] => 0
  | (key, value) :: rest => key.utf8ByteSize + value.approxSize + 8 + approxSizeEntries rest

end

section Lossy

def continuation (b : UInt8) : Bool := b &&& 0xc0 == 0x80

def between (low high b : UInt8) : Bool := low ≤ b && b ≤ high

/-- Whether a second byte can follow the first of a three-byte or a four-byte sequence. -/
def secondOk (first second : UInt8) : Bool :=
  if first == 0xe0 then between 0xa0 0xbf second
  else if first == 0xed then between 0x80 0x9f second
  else if first == 0xf0 then between 0x90 0xbf second
  else if first == 0xf4 then between 0x80 0x8f second
  else continuation second

/-- The bytes of the first character, or those replaced in its place, and whether they are a character. -/
def firstChunk (first : UInt8) (rest : Bytes) : ℕ × Bool :=
  let at_ i := rest[i]?.getD 0
  if first < 0x80 then (1, true)
  else if between 0xc2 0xdf first then if continuation (at_ 0) then (2, true) else (1, false)
  else if between 0xe0 0xef first then
    if ¬ secondOk first (at_ 0) then (1, false)
    else if ¬ continuation (at_ 1) then (2, false)
    else (3, true)
  else if between 0xf0 0xf4 first then
    if ¬ secondOk first (at_ 0) then (1, false)
    else if ¬ continuation (at_ 1) then (2, false)
    else if ¬ continuation (at_ 2) then (3, false)
    else (4, true)
  else (1, false)

/-- A chunk takes at least a byte, so that there are at most as many chunks as bytes. -/
def lossyLoop : ℕ → Bytes → String
  | fuel + 1, first :: rest =>
    let (length, valid) := firstChunk first rest
    let text := if valid then (String.fromUTF8? ⟨((first :: rest).take length).toArray⟩).getD "" else "�"
    text ++ lossyLoop fuel ((first :: rest).drop length)
  | _, _ => ""

/-- `String::from_utf8_lossy` -/
def fromUtf8Lossy (bytes : Bytes) : String := lossyLoop bytes.length bytes

end Lossy

section Lua

/-- A table by its place in the heap, a number as the bits of a double. -/
inductive LuaValue where
  | nil
  | boolean (value : Bool)
  | integer (value : Int64)
  | number (bits : UInt64)
  | string (bytes : Bytes)
  | table (id : ℕ)
  | function
  | userData
  | thread
  | lightUserData
  | error
  /-- What the binding may add. -/
  | other
deriving DecidableEq, Repr

structure LuaTable where
  rawLen : ℕ
  /-- What `pairs` goes through. -/
  pairs : List (LuaValue × LuaValue)
  /-- What indexing with a number gives, `none` if it fails. -/
  get : ℕ → Option LuaValue

abbrev LuaHeap := ℕ → LuaTable

def isFiniteF64 (bits : UInt64) : Bool := bits &&& 0x7ff0000000000000 != 0x7ff0000000000000

def isIndex (len : ℕ) : LuaValue → Bool
  | .integer i => 1 ≤ i && i.toNatClampNeg ≤ len
  | _ => false

/-- A dense sequence from one on. -/
def LuaTable.isArray (t : LuaTable) : Bool :=
  t.rawLen > 0 && t.pairs.all (fun pair => isIndex t.rawLen pair.1) && t.pairs.length == t.rawLen

end Lua

namespace Conversion

def keyText : LuaValue → Except SharedValueError String
  | .string bytes => .ok (fromUtf8Lossy bytes)
  | .integer i => .ok (toString i.toInt)
  | _ => .error .unsupportedKey

/-- The state is the budget that is left. -/
abbrev Converting := StateT ℕ (Except SharedValueError)

variable (item : LuaValue → Converting SharedValue)

/-- The array loop from index `i` on. -/
def convertItems (t : LuaTable) : ℕ → ℕ → Converting (List SharedValue)
  | _, 0 => pure []
  | i, left + 1 =>
    match t.get i with
    | none => throw .unsupportedKey
    | some v => do
      let first ← item v
      let others ← convertItems t (i + 1) left
      pure (first :: others)

/-- The map loop, with the number of entries so far. -/
def convertEntries : ℕ → List (LuaValue × LuaValue) → Converting (List (String × SharedValue))
  | _, [] => pure []
  | count, (k, v) :: rest => do
    let key ← keyText k
    let value ← item v
    if count + 1 > maxMapKeys then throw .tooManyKeys
    else do
      let others ← convertEntries (count + 1) rest
      pure ((key, value) :: others)

def convertTable (t : LuaTable) : Converting SharedValue :=
  if t.isArray then
    if t.rawLen > maxArrayLen then throw .arrayTooLong
    else .array <$> convertItems item t 1 t.rawLen
  else .map <$> convertEntries item 0 t.pairs

def convertValue (heap : LuaHeap) (asF64 : Int64 → UInt64) : LuaValue → Converting SharedValue
  | .nil => pure .nil
  | .boolean b => pure (.bool b)
  | .integer i => pure (.number (asF64 i))
  | .number n => if isFiniteF64 n then pure (.number n) else throw .nonFiniteNumber
  | .string bytes =>
    if bytes.length > maxStringLen then throw .stringTooLong else pure (.str (fromUtf8Lossy bytes))
  | .table id => convertTable item (heap id)
  | .other => throw (.unsupportedType "unrecognized")
  | _ => throw (.unsupportedType "function/userdata/thread")

/-- A converted value is charged to the budget. -/
def charge (result : SharedValue) : Converting SharedValue := do
  let size := result.approxSize
  let budget ← get
  if size > budget then throw .tooLarge
  else do
    set (budget - min size budget)
    pure result

/-- `convert` with `levels` to go; at none the depth exceeds its maximum. -/
def convert (heap : LuaHeap) (asF64 : Int64 → UInt64) : ℕ → LuaValue → Converting SharedValue
  | 0, _ => throw .tooDeep
  | levels + 1, v => do
    let result ← convertValue (convert heap asF64 levels) heap asF64 v
    charge result

def luaValueToShared (heap : LuaHeap) (asF64 : Int64 → UInt64) (v : LuaValue) :
    Except SharedValueError SharedValue :=
  (convert heap asF64 (maxDepth + 1) v).run' maxTotalSize

end Conversion

end MineRider.Model.Lua
