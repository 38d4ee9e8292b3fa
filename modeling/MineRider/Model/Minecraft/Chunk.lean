import MineRider.Model.Core.Error
import MineRider.Model.Protocol.VarInt

/-! # Chunk sections and paletted containers

A section stores its blocks and biomes in paletted containers: one value, a palette with packed
indices, or packed values. Packed values never cross a 64-bit word. Decoding checks every length
against the number of entries; a block change rewrites the container into its direct form.
-/

namespace MineRider.Model.Minecraft

open Model.Core Model.Protocol Machine Machine.Reader PacketReader

def blocksPerSection : ℕ := 16 * 16 * 16
def biomesPerSection : ℕ := 4 * 4 * 4
def maxPaletteBits : UInt8 := 32

/-- Decoding outside the protocol crate: wire failures become engine errors. -/
abbrev ChunkReader := Reader UInt8 MineRiderError

def wire {α : Type} (p : PacketReader α) : ChunkReader α := fun input =>
  match p.run input with
  | .error e => .error (.wire e)
  | .ok result => .ok result

def nonnegativeVarint (what : String) : ChunkReader UInt32 := do
  let value ← wire readVarint
  if value < 0 then throw (.protocol s!"negative {what}: {value}")
  else pure value.toUInt32

inductive PalettedContainer where
  | single (value : UInt32)
  | indirect (bits : UInt8) (palette : List UInt32) (data : List UInt64)
  | direct (bits : UInt8) (data : List UInt64)
deriving DecidableEq, Repr

/-- The value at `index` of packed `bits`-wide values. -/
def packedValue (bits : UInt8) (data : List UInt64) (index : ℕ) : Option UInt32 := do
  let valuesPerLong := 64 / bits.toNat
  let long ← data[index / valuesPerLong]?
  let shift := (index % valuesPerLong) * bits.toNat
  let mask : UInt64 := if bits = 32 then 0xFFFFFFFF else (1 <<< bits.toUInt64) - 1
  pure ((long >>> UInt64.ofNat shift) &&& mask).toUInt32

namespace PalettedContainer

/-- The palette of an indirect container of `bits`-wide indices. -/
def decodePalette (bits : UInt8) : ChunkReader (List UInt32) := do
  let count ← nonnegativeVarint "palette length"
  if bits ≥ 64 then throw (.protocol "palette bit width overflow")
  else
    let capacity := 2 ^ bits.toNat
    if count = 0 ∨ count.toNat > capacity then
      throw (.protocol s!"palette length {count} outside 1..={capacity} for {bits} bits")
    else times (nonnegativeVarint "palette value") count.toNat

/-- The packed words of a container with the given number of entries. -/
def decodeData (entries : ℕ) (bits : UInt8) : ChunkReader (List UInt64) := do
  let valuesPerLong := 64 / bits.toNat
  if valuesPerLong = 0 then throw (.protocol "paletted container has zero values per long")
  else do
    let expectedLongs := (entries + valuesPerLong - 1) / valuesPerLong
    let longCount ← nonnegativeVarint "palette data length"
    if longCount.toNat ≠ expectedLongs then
      throw (.protocol s!"paletted container has {longCount} longs, expected {expectedLongs}")
    else times (wire getU64) longCount.toNat

def decode (entries : ℕ) (minIndirectBits maxIndirectBits : UInt8) : ChunkReader PalettedContainer := do
  let wireBits ← wire getU8
  if wireBits = 0 then do
    let value ← nonnegativeVarint "single palette value"
    let longCount ← nonnegativeVarint "single palette data length"
    if longCount ≠ 0 then
      throw (.protocol s!"single-valued palette has {longCount} packed longs")
    else pure (.single value)
  else if wireBits > maxPaletteBits then
    throw (.protocol s!"paletted container uses unsupported {wireBits} bits")
  else if wireBits ≤ maxIndirectBits then do
    let bits := if wireBits < minIndirectBits then minIndirectBits else wireBits
    let palette ← decodePalette bits
    let data ← decodeData entries bits
    pure (.indirect bits palette data)
  else do
    let data ← decodeData entries wireBits
    pure (.direct wireBits data)

def get (container : PalettedContainer) (index : ℕ) : Option UInt32 :=
  match container with
  | .single value => some value
  | .indirect bits palette data => do
      let i ← packedValue bits data index
      palette[i.toNat]?
  | .direct bits data => packedValue bits data index

/-- The words that hold `values`, each `bits` wide; the loop of `materialize_and_set`. -/
def pack (bits : ℕ) (values : List UInt32) : List UInt64 :=
  let valuesPerLong := 64 / bits
  let mask : UInt64 := (1 <<< UInt64.ofNat bits) - 1
  values.zipIdx.foldl
    (fun data (value, i) =>
      let shift := (i % valuesPerLong) * bits
      data.modify (i / valuesPerLong) (· ||| ((value.toUInt64 &&& mask) <<< UInt64.ofNat shift)))
    (List.replicate ((values.length + valuesPerLong - 1) / valuesPerLong) 0)

/-- `32 - value.leading_zeros()` -/
def bitLength (value : UInt32) : ℕ := if value = 0 then 0 else Nat.log2 value.toNat + 1

/-- Reads all entries, changes one, and packs them directly at the width of the largest. -/
def materializeAndSet (container : PalettedContainer) (entries index : ℕ) (state : UInt32) :
    Except MineRiderError PalettedContainer :=
  if index ≥ entries then .error (.protocol s!"palette index {index} outside {entries}")
  else do
    let values ← (List.range entries).mapM fun i =>
      match container.get i with
      | some value => Except.ok value
      | none => .error (.protocol s!"invalid palette value at index {i}")
    let values := values.set index state
    let largest := values.foldl (fun most value => if most < value then value else most) 0
    let bits := max (bitLength largest) 1
    pure (.direct (UInt8.ofNat bits) (pack bits values))

end PalettedContainer

structure ChunkSection where
  nonAirBlocks : UInt16
  blockStates : PalettedContainer
  biomes : PalettedContainer
deriving DecidableEq, Repr

def ChunkSection.decode : ChunkReader ChunkSection := do
  let nonAirBlocks ← wire getI16
  if nonAirBlocks < 0 ∨ nonAirBlocks.toNatClampNeg > blocksPerSection then
    throw (.protocol s!"invalid non-air block count {nonAirBlocks}")
  else do
    let blockStates ← PalettedContainer.decode blocksPerSection 4 8
    let biomes ← PalettedContainer.decode biomesPerSection 1 3
    pure ⟨nonAirBlocks.toUInt16, blockStates, biomes⟩

/-- The sections of a chunk's data, which they must fill exactly; `Chunk::decode` without the
position it copies from the packet. -/
def decodeSections (chunkData : Bytes) (sectionCount : ℕ) : Except MineRiderError (List ChunkSection) :=
  match (times ChunkSection.decode sectionCount).run chunkData with
  | .error e => .error e
  | .ok (sections, rest) =>
    if rest ≠ [] then
      .error (.protocol s!"{rest.length} trailing bytes after {sectionCount} chunk sections")
    else .ok sections

end MineRider.Model.Minecraft
