import MineRider.Model.Protocol.Buffer

/-! # zlib compression with exact lengths

The zlib library is a parameter: what its encoder writes for a whole input, and what its decoder
yields when at most a given number of bytes is read from it. `decompress` reads one byte more than
expected, so a stream that inflates to any other length is refused.
-/

namespace MineRider.Model.Protocol

/-- The two library entry points. Compression can stop while writing or while finishing; the
strings are the library's own error texts. -/
structure Zlib where
  deflate : Bytes → Except String (Except String Bytes)
  inflate : Bytes → ℕ → Except String Bytes

/-- A correct library compresses every input, and inflating the result up to `cap` bytes gives
the first `cap` bytes of that input. -/
def Zlib.Lawful (zlib : Zlib) : Prop :=
  ∀ data, ∃ out, zlib.deflate data = .ok (.ok out) ∧ ∀ cap, zlib.inflate out cap = .ok (data.take cap)

/-- The cap of 64 MiB on every inflated size. -/
def maxDecompressed : ℕ := 64 * 1024 * 1024

def compress (zlib : Zlib) (data : Bytes) : Except ProtocolError Bytes :=
  match zlib.deflate data with
  | .error e => .error (.compression s!"zlib deflate failed: {e}")
  | .ok (.error e) => .error (.compression s!"zlib deflate finish failed: {e}")
  | .ok (.ok out) => .ok out

def decompress (zlib : Zlib) (data : Bytes) (expectedLen : ℕ) : Except ProtocolError Bytes :=
  let cap := min (expectedLen + 1) maxDecompressed
  match zlib.inflate data cap with
  | .error e => .error (.compression s!"zlib inflate failed: {e}")
  | .ok out =>
    if out.length ≠ expectedLen then
      .error (.compression
        s!"decompressed length mismatch: expected {expectedLen} bytes, got {out.length}")
    else .ok out

/-- Within the cap, decompressing a compressed input to its own length returns it. -/
theorem Zlib.Lawful.roundtrip {zlib : Zlib} (lawful : zlib.Lawful) (data : Bytes)
    (bound : data.length ≤ maxDecompressed) :
    ∃ out, compress zlib data = .ok out ∧ decompress zlib out data.length = .ok data := by
  obtain ⟨out, deflated, inflated⟩ := lawful data
  refine ⟨out, ?_, ?_⟩
  · rw [compress, deflated]
  · have whole : data.take (min (data.length + 1) maxDecompressed) = data :=
      List.take_of_length_le (le_min (Nat.le_succ _) bound)
    simp only [decompress, inflated, whole, ne_eq, not_true_eq_false, ↓reduceIte]

end MineRider.Model.Protocol
