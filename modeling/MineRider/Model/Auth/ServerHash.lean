import Mathlib.Init

/-! # The digest that names a session

A digest is written as the signed hexadecimal number of its bytes.
-/

namespace MineRider.Model.Auth

/-- The bytes complemented, and the carry out of the first one. -/
def twoComplement : List UInt8 → List UInt8 × UInt16
  | [] => ([], 1)
  | byte :: rest =>
    let (rest, carry) := twoComplement rest
    let inverted := (~~~byte).toUInt16
    let sum := inverted + carry
    (sum.toUInt8 :: rest, sum >>> 8)

def twoComplementInPlace (bytes : List UInt8) : List UInt8 := (twoComplement bytes).1

/-- `format!("{b:02x}")` -/
def hexByte (byte : UInt8) : List Char := [Nat.digitChar (byte.toNat / 16), Nat.digitChar (byte.toNat % 16)]

/-- The first byte decides on the sign; there is none of an empty digest. -/
def signedHexDigest (digest : List UInt8) : Option String := do
  let first ← digest.head?
  let negative := first &&& 0x80 != 0
  let magnitude := if negative then twoComplementInPlace digest else digest
  let hex := magnitude.flatMap hexByte
  let trimmed := hex.dropWhile (· == '0')
  let trimmed := if trimmed.isEmpty then ['0'] else trimmed
  some (if negative then "-" ++ String.ofList trimmed else String.ofList trimmed)

end MineRider.Model.Auth
