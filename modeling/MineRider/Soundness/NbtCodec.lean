import MineRider.Model.Protocol.Nbt

/-! # Network NBT reads back what it writes, and writes back what it read

The forward direction follows the value: a well-formed value within the decoder's budgets is
written to bytes that the reader consumes exactly, in front of any suffix. The converse follows
the nesting levels of the reader: whatever it accepted is the one encoding of the value it
returned.
-/

namespace MineRider.Soundness.NbtCodec

open Int32 List Model.Protocol Model.Protocol.Nbt Machine.Reader
open FixedInt (i8 i16 i32 i64 u8 u16 u32 u64)
open PacketReader (readBytes remaining_run readBytes_reads readBytes_sound)
open PacketWriter (putU8 putI32 putU16)

section Measures

mutual

/-- The nodes `read_payload` counts for a value. -/
def count : Nbt → ℕ
  | .list _ items => 1 + countItems items
  | .compound entries => 1 + countEntries entries
  | _ => 1

def countItems : List Nbt → ℕ
  | [] => 0
  | item :: rest => count item + countItems rest

def countEntries : List (String × Nbt) → ℕ
  | [] => 0
  | (_, value) :: rest => count value + countEntries rest

end

mutual

/-- The levels of nesting below a value: none for a scalar, an array or an empty container. -/
def nesting : Nbt → ℕ
  | .list _ items => nestingItems items
  | .compound entries => nestingEntries entries
  | _ => 0

def nestingItems : List Nbt → ℕ
  | [] => 0
  | item :: rest => max (nesting item + 1) (nestingItems rest)

def nestingEntries : List (String × Nbt) → ℕ
  | [] => 0
  | (_, value) :: rest => max (nesting value + 1) (nestingEntries rest)

end

/-- The conditions of the format on a single node. -/
def WellFormedNode : Nbt → Prop
  | .byteArray v => v.length < 2 ^ 31
  | .string v => (stringBytes v).length ≤ 65535
  | .list tag items => ∀ item ∈ items, item.tagId = tag
  | .compound entries => ∀ entry ∈ entries, (stringBytes entry.1).length ≤ 65535
  | .intArray v => v.length < 2 ^ 31
  | .longArray v => v.length < 2 ^ 31
  | _ => True

/-- Strings and names fit their `u16` length, arrays their `i32` length, and lists are homogeneous,
at every node of the value. An empty list may carry any tag. -/
inductive WellFormed : Nbt → Prop
  | leaf {value : Nbt} (node : WellFormedNode value) (notList : value.tagId ≠ 9)
      (notCompound : value.tagId ≠ 10) : WellFormed value
  | list {tag : UInt8} {items : List Nbt} (node : WellFormedNode (.list tag items))
      (all : ∀ item ∈ items, WellFormed item) : WellFormed (.list tag items)
  | compound {entries : List (String × Nbt)} (node : WellFormedNode (.compound entries))
      (all : ∀ entry ∈ entries, WellFormed entry.2) : WellFormed (.compound entries)

end Measures

section Strings

/-- A write succeeds only through a successful first part. -/
theorem write_bind_eq_ok {α γ : Type} {first : Except ProtocolError α} {next : α → Except ProtocolError γ} {c : γ}
    (success : first >>= next = .ok c) : ∃ a, first = .ok a ∧ next a = .ok c := by
  cases first with
  | error e => cases success
  | ok a => exact ⟨a, rfl, success⟩

/-- The bytes of a string decode to it. -/
theorem fromUTF8_stringBytes (s : String) : String.fromUTF8? ⟨(stringBytes s).toArray⟩ = some s := by
  have bytes : (⟨(stringBytes s).toArray⟩ : ByteArray) = s.toByteArray := by simp [stringBytes]
  rw [bytes, String.fromUTF8?, dif_pos s.isValidUTF8]
  rfl

/-- A decoded string has exactly the bytes it was decoded from. -/
theorem stringBytes_of_fromUTF8 {bytes : Bytes} {s : String}
    (decoded : String.fromUTF8? ⟨bytes.toArray⟩ = some s) : stringBytes s = bytes := by
  rw [String.fromUTF8?] at decoded
  split_ifs at decoded with valid
  cases decoded
  simp [stringBytes, String.fromUTF8]

private theorem readNbtString_reads {s : String} (bound : (stringBytes s).length ≤ 65535) :
    Reads readNbtString
      (putU16 (UInt16.ofNat (stringBytes s).length) ++ stringBytes s) s := by
  have length : (UInt16.ofNat (stringBytes s).length).toNat = (stringBytes s).length :=
    UInt16.toNat_ofNat_of_lt' (by simp only [UInt16.size]; omega)
  intro suffix
  have read := readBytes_reads (stringBytes s) suffix
  rw [← length] at read
  rw [readNbtString, append_assoc, run_bind_of_ok (u16.get_reads _ _), run_bind_of_ok read, fromUTF8_stringBytes]
  rfl

theorem readNbtString_sound : Sound readNbtString (fun used s => writeNbtString s = .ok used) := by
  intro input s rest success
  obtain ⟨len, middle, readLen, afterLen⟩ := run_bind_eq_ok.mp success
  obtain ⟨bytes, last, readBytes, afterBytes⟩ := run_bind_eq_ok.mp afterLen
  obtain ⟨_, rfl, rfl⟩ := u16.get_sound _ _ _ readLen
  obtain ⟨bytes, rfl, rfl, length⟩ := readBytes_sound _ _ _ _ readBytes
  cases decoded : String.fromUTF8? ⟨bytes.toArray⟩ with
  | none =>
    rw [decoded] at afterBytes
    cases afterBytes
  | some decodedString =>
    rw [decoded] at afterBytes
    cases afterBytes
    have same := stringBytes_of_fromUTF8 decoded
    refine ⟨putU16 len ++ bytes, (append_assoc ..).symm, ?_⟩
    have bound := len.toNat_lt
    change writeNbtString s = _
    rw [writeNbtString, same, length, if_neg (by omega), UInt16.ofNat_toNat]

end Strings

section Arrays

private theorem ofNat_toNatClampNeg {length : Int32} (notNegative : ¬ length < 0) :
    Int32.ofNat length.toNatClampNeg = length := by
  rw [lt_iff_toInt_lt, not_lt] at notNegative
  apply toInt_inj.mp
  have value : (length.toNatClampNeg : ℤ) = length.toInt := by
    exact Int.toNat_of_nonneg notNegative
  rw [toInt_ofNat_of_lt length.toNatClampNeg_lt, value]

private theorem readLength_run {elemSize length : ℕ} (bound : length < 2 ^ 31) {rest : Bytes}
    (enough : length * elemSize ≤ rest.length) :
    (readLength elemSize).run (putI32 (Int32.ofNat length) ++ rest) = .ok (length, rest) := by
  obtain ⟨notNegative, value⟩ := length_as_i32 bound
  rw [readLength, run_bind_of_ok (i32.get_reads _ _), if_neg notNegative, value,
    run_bind_of_ok (remaining_run rest), if_neg (not_lt.mpr enough)]
  rfl

/-- An accepted length was written as it is read, and the elements it announces are there. -/
theorem readLength_sound {elemSize : ℕ} {input rest : Bytes} {length : ℕ}
    (success : (readLength elemSize).run input = .ok (length, rest)) :
    input = putI32 (Int32.ofNat length) ++ rest ∧ length < 2 ^ 31 := by
  obtain ⟨len, middle, readLen, afterLen⟩ := run_bind_eq_ok.mp success
  obtain ⟨_, rfl, rfl⟩ := i32.get_sound _ _ _ readLen
  split_ifs at afterLen with negative
  · cases afterLen
  · rw [run_bind_of_ok (remaining_run middle)] at afterLen
    dsimp only at afterLen
    split_ifs at afterLen with short
    · cases afterLen
    · cases afterLen
      exact ⟨by rw [ofNat_toNatClampNeg negative], len.toNatClampNeg_lt⟩

/-- An array of fixed-width elements behind its length. -/
theorem readArray_reads {α : Type} (kind : FixedInt α) {v : List α} (bound : v.length < 2 ^ 31) :
    Reads (readLength kind.width >>= times kind.get) (writeArray kind.put v) v := by
  intro suffix
  have size : (v.flatMap kind.put).length = v.length * kind.width := by
    simp [length_flatMap]
  rw [writeArray, append_assoc, run_bind_of_ok (readLength_run bound (by rw [length_append, size]; omega))]
  exact Reads.times v (fun a _ => kind.get_reads a) suffix

private theorem readArray_sound {α : Type} (kind : FixedInt α) :
    Sound (readLength kind.width >>= times kind.get) (fun used v => used = writeArray kind.put v) := by
  intro input v rest success
  obtain ⟨length, middle, readLen, elements⟩ := run_bind_eq_ok.mp success
  obtain ⟨rfl, _⟩ := readLength_sound readLen
  obtain ⟨_, rfl, rfl, rfl⟩ := Sound.times kind.get_sound length _ _ _ elements
  exact ⟨_, (append_assoc ..).symm, rfl⟩

private theorem readByteArray_reads {v : Bytes} (bound : v.length < 2 ^ 31) :
    Reads (readLength 1 >>= readBytes) (putI32 (Int32.ofNat v.length) ++ v) v := by
  intro suffix
  rw [append_assoc, run_bind_of_ok (readLength_run bound (by rw [length_append]; omega))]
  exact readBytes_reads v suffix

private theorem readByteArray_sound : Sound (readLength 1 >>= readBytes)
    (fun used v => used = putI32 (Int32.ofNat v.length) ++ v) := by
  intro input v rest success
  obtain ⟨length, middle, readLen, elements⟩ := run_bind_eq_ok.mp success
  obtain ⟨rfl, _⟩ := readLength_sound readLen
  obtain ⟨v, rfl, rfl, rfl⟩ := readBytes_sound _ _ _ _ elements
  exact ⟨_, (append_assoc ..).symm, rfl⟩

end Arrays

section Forward

private theorem validTag_tagId (value : Nbt) : validTag value.tagId = true := by cases value <;> rfl

private theorem tagId_ne_tagEnd (value : Nbt) : value.tagId ≠ tagEnd := by
  cases value <;> simp [tagId, tagEnd]

private theorem count_pos (value : Nbt) : 0 < count value := by
  cases value <;> simp only [count] <;> omega

private theorem length_le_countItems (items : List Nbt) : items.length ≤ countItems items := by
  induction items with
  | nil => exact le_rfl
  | cons item rest ih =>
    have positive := count_pos item
    simp only [length_cons, countItems]
    omega

/-- `bytes` is the payload of `value`, and a reader with enough levels and nodes left takes exactly
these bytes for it. -/
structure Written (value : Nbt) (bytes : Bytes) : Prop where
  written : value.writePayload = .ok bytes
  nonempty : 0 < bytes.length
  reads : ∀ levels nodes, nesting value < levels → nodes + count value ≤ maxNbtNodes →
    Reads (readPayload levels value.tagId nodes) bytes (value, nodes + count value)

/-- Past the node check, a payload is read by its tag. -/
theorem readPayload_succ {levels nodes : ℕ} (tag : UInt8) (bound : nodes + 1 ≤ maxNbtNodes) :
    readPayload (levels + 1) tag nodes = readTag (readPayload levels) (nodes + 1) tag := by
  rw [readPayload, if_neg (not_lt.mpr bound)]

variable {value : Nbt}

theorem Written.of_readTag {bytes : Bytes} (written : value.writePayload = .ok bytes) (nonempty : 0 < bytes.length)
    (read : ∀ levels nodes, nesting value ≤ levels → nodes + count value ≤ maxNbtNodes →
      Reads (readTag (readPayload levels) (nodes + 1) value.tagId) bytes (value, nodes + count value)) :
    Written value bytes := by
  refine ⟨written, nonempty, ?_⟩
  intro levels nodes deep bound
  have positive := count_pos value
  cases levels with
  | zero => omega
  | succ levels =>
    rw [readPayload_succ _ (by omega)]
    exact read levels nodes (by omega) bound

/-- A scalar, a string or an array is one node, and reading it needs no recursive call. -/
theorem Written.of_leaf {bytes : Bytes} (written : value.writePayload = .ok bytes)
    (nonempty : 0 < bytes.length) (one : count value = 1)
    (read : ∀ payload nodes, Reads (readTag payload nodes value.tagId) bytes (value, nodes)) :
    Written value bytes := by
  apply Written.of_readTag written nonempty
  intro levels nodes _ _
  rw [one]
  exact read _ _

private theorem leaf_written (node : WellFormedNode value) (notList : value.tagId ≠ 9)
    (notCompound : value.tagId ≠ 10) : ∃ bytes, Written value bytes := by
  cases value with
  | byte v => exact ⟨_, .of_leaf rfl (by simp [i8]) rfl fun _ _ => (i8.get_reads v).map _⟩
  | short v => exact ⟨_, .of_leaf rfl (by simp [i16]) rfl fun _ _ => (i16.get_reads v).map _⟩
  | int v => exact ⟨_, .of_leaf rfl (by simp [i32]) rfl fun _ _ => (i32.get_reads v).map _⟩
  | long v => exact ⟨_, .of_leaf rfl (by simp [i64]) rfl fun _ _ => (i64.get_reads v).map _⟩
  | float v => exact ⟨_, .of_leaf rfl (by simp [u32]) rfl fun _ _ => (u32.get_reads v).map _⟩
  | double v => exact ⟨_, .of_leaf rfl (by simp [u64]) rfl fun _ _ => (u64.get_reads v).map _⟩
  | byteArray v =>
    exact ⟨_, .of_leaf rfl (by simp [i32]) rfl fun _ _ => (readByteArray_reads node).map _⟩
  | string v =>
    exact ⟨_, .of_leaf (if_neg (not_lt.mpr node)) (by simp [u16]) rfl
      fun _ _ => (readNbtString_reads node).map _⟩
  | list tag items => exact absurd rfl notList
  | compound entries => exact absurd rfl notCompound
  | intArray v =>
    exact ⟨_, .of_leaf rfl (by simp [writeArray, i32]) rfl
      fun _ _ => (readArray_reads i32 node).map _⟩
  | longArray v =>
    exact ⟨_, .of_leaf rfl (by simp [writeArray, i32]) rfl
      fun _ _ => (readArray_reads i64 node).map _⟩

/-- The elements of a homogeneous list are read one after the other, each with the node count its
predecessor left. -/
theorem items_written {tag : UInt8} {items : List Nbt} (all : ∀ item ∈ items, ∃ bytes, Written item bytes)
    (same : ∀ item ∈ items, item.tagId = tag) :
    ∃ body, writeItems items = .ok body ∧ items.length ≤ body.length ∧
      ∀ levels nodes, nestingItems items ≤ levels → nodes + countItems items ≤ maxNbtNodes →
        ReadsSeq (readPayload levels tag) nodes body items (nodes + countItems items) := by
  induction items with
  | nil => exact ⟨[], rfl, le_rfl, fun _ nodes _ _ => .nil nodes⟩
  | cons item rest ih =>
    obtain ⟨bytes, first⟩ := all item mem_cons_self
    obtain ⟨body, written, length, seq⟩ := ih
      (fun other member => all other (mem_cons_of_mem _ member))
      (fun other member => same other (mem_cons_of_mem _ member))
    refine ⟨bytes ++ body, ?_, ?_, ?_⟩
    · rw [writeItems, first.written, written]
      rfl
    · have nonempty := first.nonempty
      rw [length_cons, length_append]
      omega
    · intro levels nodes deep bound
      simp only [nestingItems, countItems] at deep bound ⊢
      have head := first.reads levels nodes (by omega) (by omega)
      rw [same item mem_cons_self] at head
      rw [← Nat.add_assoc]
      exact .cons head (seq levels _ (by omega) (by omega))

private theorem readList_reads {payload : UInt8 → ℕ → PacketReader (Nbt × ℕ)} {tag : UInt8} {items : List Nbt}
    {nodes final : ℕ} {body : Bytes} (seq : ReadsSeq (payload tag) nodes body items final)
    (bound : items.length < 2 ^ 31) (valid : items ≠ [] → validTag tag = true)
    (enough : items.length ≤ body.length) :
    Reads (readList payload nodes)
      (putU8 tag ++ (putI32 (Int32.ofNat items.length) ++ body))
      (.list tag items, final) := by
  intro suffix
  obtain ⟨notNegative, value⟩ := length_as_i32 bound
  rw [readList, append_assoc, append_assoc, run_bind_of_ok (u8.get_reads _ _),
    run_bind_of_ok (i32.get_reads _ _), if_neg notNegative]
  by_cases empty : items = []
  · subst empty
    cases seq
    rfl
  · have nonzero : Int32.ofNat items.length ≠ 0 := by
      intro zero
      rw [zero] at value
      exact empty (length_eq_zero_iff.mp value.symm)
    rw [if_neg nonzero, if_neg (by simp [valid empty]), run_bind_of_ok (remaining_run _),
      value, if_neg (by rw [length_append]; omega)]
    exact seq.collect.map (fun result => (Nbt.list tag result.1, result.2)) suffix

/-- The entries of a compound, each with its tag and its name, up to the end tag. -/
theorem entries_written {entries : List (String × Nbt)}
    (names : ∀ entry ∈ entries, (stringBytes entry.1).length ≤ 65535)
    (all : ∀ entry ∈ entries, ∃ bytes, Written entry.2 bytes) :
    ∃ body, writeEntries entries = .ok body ∧ entries.length ≤ body.length ∧
      ∀ levels nodes, nestingEntries entries ≤ levels → nodes + countEntries entries ≤ maxNbtNodes →
        ReadsUntil (readEntry (readPayload levels)) nodes (body ++ putU8 tagEnd) entries
          (nodes + countEntries entries) := by
  induction entries with
  | nil =>
    refine ⟨[], rfl, le_rfl, fun levels nodes _ _ => .stop ?_⟩
    intro suffix
    rfl
  | cons entry rest ih =>
    obtain ⟨name, value⟩ := entry
    obtain ⟨bytes, first⟩ := all _ mem_cons_self
    have bound : (stringBytes name).length ≤ 65535 := names _ mem_cons_self
    change Written value bytes at first
    obtain ⟨body, written, length, reads⟩ := ih
      (fun other member => names other (mem_cons_of_mem _ member))
      (fun other member => all other (mem_cons_of_mem _ member))
    have nameWritten : writeNbtString name = .ok
        (putU16 (UInt16.ofNat (stringBytes name).length) ++ stringBytes name) :=
      if_neg (not_lt.mpr bound)
    refine ⟨_, by rw [writeEntries, nameWritten, first.written, written]; rfl, ?_, ?_⟩
    · have nonempty := first.nonempty
      simp only [length_cons, length_append]
      omega
    · intro levels nodes deep budget
      simp only [nestingEntries, countEntries] at deep budget ⊢
      have payload := first.reads levels nodes (by omega) (by omega)
      rw [← Nat.add_assoc, append_assoc]
      refine .more ?_ (reads levels _ (by omega) (by omega))
      intro suffix
      rw [readEntry, append_assoc, run_bind_of_ok (u8.get_reads _ _),
        if_neg (tagId_ne_tagEnd value), if_neg (by simp [validTag_tagId])]
      exact (readNbtString_reads bound).bind (payload.map (fun result => (some (name, result.1), result.2))) suffix

private theorem readEntries_reads {payload : UInt8 → ℕ → PacketReader (Nbt × ℕ)} {entries : List (String × Nbt)}
    {nodes final : ℕ} {used : Bytes} (reads : ReadsUntil (readEntry payload) nodes used entries final)
    (enough : entries.length ≤ used.length) : Reads (readEntries payload nodes) used (entries, final) := by
  intro suffix
  exact reads.untilNone (by rw [length_append]; omega) suffix

/-- A well-formed value is written, and read back from its bytes within the reader's budgets. -/
theorem wellFormed_written (wellFormed : WellFormed value) :
    ∃ bytes, Written value bytes := by
  induction wellFormed with
  | leaf node notList notCompound => exact leaf_written node notList notCompound
  | @list tag items node _ ih =>
    obtain ⟨body, written, length, seq⟩ := items_written ih node
    refine ⟨putU8 tag ++ (putI32 (Int32.ofNat items.length) ++ body),
      .of_readTag ?_ (by simp [u8]) ?_⟩
    · have homogeneous : items.any (fun item => item.tagId ≠ tag) = false := by
        simpa [WellFormedNode] using node
      rw [writePayload, homogeneous, written]
      rfl
    · intro levels nodes deep bound
      simp only [nesting, count] at deep bound ⊢
      have size := length_le_countItems items
      rw [← Nat.add_assoc]
      apply readList_reads (seq levels (nodes + 1) deep (by omega)) _ _ length
      · simp only [maxNbtNodes] at bound
        omega
      · intro nonempty
        obtain ⟨item, rest, rfl⟩ := exists_cons_of_ne_nil nonempty
        rw [← node item mem_cons_self]
        exact validTag_tagId item
  | @compound entries node _ ih =>
    obtain ⟨body, written, length, reads⟩ := entries_written node ih
    refine ⟨body ++ putU8 tagEnd, .of_readTag ?_ (by simp [u8]) ?_⟩
    · rw [writePayload, written]
      rfl
    · intro levels nodes deep bound
      simp only [nesting, count] at deep bound ⊢
      rw [← Nat.add_assoc]
      exact (readEntries_reads (reads levels (nodes + 1) deep (by omega))
        (by rw [length_append]; omega)).map (fun result => (Nbt.compound result.1, result.2))

end Forward

section Converse

/-- The bytes of a payload under a tag. -/
def PayloadBytes (tag : UInt8) (used : Bytes) (value : Nbt) : Prop :=
  value.writePayload = .ok used ∧ value.tagId = tag

/-- A payload reader that only accepts the encodings of values of the requested tag. -/
def Canonical (payload : UInt8 → ℕ → PacketReader (Nbt × ℕ)) : Prop :=
  ∀ tag nodes, Sound (payload tag nodes) (fun used result => PayloadBytes tag used result.1)

/-- The pieces of a list, each the encoding of its element, are the encoding of the elements. -/
theorem writeItems_of_concat {tag : UInt8} {used : Bytes} {items : List Nbt}
    (concat : Concat (PayloadBytes tag) used items) :
    writeItems items = .ok used ∧ ∀ item ∈ items, item.tagId = tag := by
  obtain ⟨pieces, rfl, all⟩ := concat
  induction all with
  | nil => exact ⟨rfl, by simp⟩
  | @cons piece item pieces items head _ ih =>
    obtain ⟨written, same⟩ := head
    obtain ⟨later, rest⟩ := ih
    refine ⟨?_, ?_⟩
    · rw [writeItems, written, later]
      rfl
    · intro other member
      rcases mem_cons.mp member with rfl | inRest
      · exact same
      · exact rest other inRest

private theorem readList_sound {payload : UInt8 → ℕ → PacketReader (Nbt × ℕ)} (canonical : Canonical payload)
    (nodes : ℕ) : Sound (readList payload nodes) (fun used result => PayloadBytes 9 used result.1) := by
  intro input result rest success
  obtain ⟨tag, afterTag, readTag, success₁⟩ := run_bind_eq_ok.mp success
  obtain ⟨length, afterLength, readLength, success₂⟩ := run_bind_eq_ok.mp success₁
  obtain ⟨_, rfl, rfl⟩ := u8.get_sound _ _ _ readTag
  obtain ⟨_, rfl, rfl⟩ := i32.get_sound _ _ _ readLength
  split_ifs at success₂ with negative zero valid
  · cases success₂
  · cases success₂
    subst zero
    exact ⟨putU8 tag ++ putI32 0, (append_assoc ..).symm, rfl, rfl⟩
  · rw [run_bind_of_ok (remaining_run afterLength)] at success₂
    split_ifs at success₂ with short
    · cases success₂
    · obtain ⟨⟨items, final⟩, left, collected, done⟩ := run_bind_eq_ok.mp success₂
      cases done
      obtain ⟨body, rfl, size, concat⟩ :=
        Sound.collect (canonical tag) _ _ _ _ _ collected
      obtain ⟨written, same⟩ := writeItems_of_concat concat
      refine ⟨putU8 tag ++ (putI32 length ++ body), by simp only [append_assoc],
        ?_, rfl⟩
      have homogeneous : items.any (fun item => item.tagId ≠ tag) = false := by simpa using same
      rw [writePayload, homogeneous, written, show items.length = length.toNatClampNeg from size,
        ofNat_toNatClampNeg negative]
      rfl
  · cases success₂

/-- The bytes of one compound entry. -/
def EntryBytes (used : Bytes) (entry : String × Nbt) : Prop :=
  ∃ nameBytes payload, writeNbtString entry.1 = .ok nameBytes ∧ entry.2.writePayload = .ok payload ∧
    used = putU8 entry.2.tagId ++ (nameBytes ++ payload)

theorem writeEntries_of_concat {used : Bytes} {entries : List (String × Nbt)}
    (concat : Concat EntryBytes used entries) : writeEntries entries = .ok used := by
  obtain ⟨pieces, rfl, all⟩ := concat
  induction all with
  | nil => rfl
  | @cons piece entry pieces entries head _ ih =>
    obtain ⟨nameBytes, payload, name, written, rfl⟩ := head
    rw [writeEntries, name, written, ih]
    rfl

section

variable {payload : UInt8 → ℕ → PacketReader (Nbt × ℕ)} (canonical : Canonical payload)

include canonical

/-- One iteration of the compound loop consumed an entry or the end tag. -/
theorem readEntry_sound {nodes : ℕ} {input rest : Bytes} {result : Option (String × Nbt) × ℕ}
    (success : (readEntry payload nodes).run input = .ok (result, rest)) :
    ∃ used, input = used ++ rest ∧ 0 < used.length ∧
      match result.1 with
      | some entry => EntryBytes used entry
      | none => used = putU8 tagEnd := by
  obtain ⟨tag, afterTag, readTag, success₁⟩ := run_bind_eq_ok.mp success
  obtain ⟨_, rfl, rfl⟩ := u8.get_sound _ _ _ readTag
  split_ifs at success₁ with ends valid
  · cases success₁
    exact ⟨putU8 tag, rfl, by simp [u8], by rw [ends]⟩
  · obtain ⟨name, afterName, readName, success₂⟩ := run_bind_eq_ok.mp success₁
    obtain ⟨⟨value, final⟩, left, readValue, done⟩ := run_bind_eq_ok.mp success₂
    cases done
    obtain ⟨nameBytes, rfl, nameWritten⟩ := readNbtString_sound _ _ _ readName
    obtain ⟨payloadBytes, rfl, written, rfl⟩ := canonical _ _ _ _ _ readValue
    exact ⟨_, by simp only [append_assoc], by simp [u8],
      nameBytes, payloadBytes, nameWritten, written, rfl⟩
  · cases success₁

private theorem readEntries_sound (nodes : ℕ) : Sound (readEntries payload nodes) (fun used result =>
      ∃ body, writeEntries result.1 = .ok body ∧ used = body ++ putU8 tagEnd) := by
  intro input result rest success
  obtain ⟨used, split, body, last, rfl, concat, rfl⟩ :=
    Sound.untilNone EntryBytes (fun used => used = putU8 tagEnd)
      (fun _ _ _ _ _ read => by
        obtain ⟨used, split, _, derived⟩ := readEntry_sound canonical read
        exact ⟨used, split, derived⟩)
      (fun _ _ _ _ read => by
        obtain ⟨used, split, _, derived⟩ := readEntry_sound canonical read
        exact ⟨used, split, derived⟩) _ _ _ _ _ success
  exact ⟨_, split, body, writeEntries_of_concat concat, rfl⟩

/-- The bound on the iterations of the compound loop is never what stops it. -/
theorem readEntries_fuel (nodes more : ℕ) (input : Bytes) :
    (untilNone (readEntry payload) (.bufferUnderflow 1 0) (input.length + 1 + more) nodes).run input =
      (readEntries payload nodes).run input := by
  apply untilNone_fuel _ more (Nat.lt_succ_self _)
  intro nodes input head rest read
  obtain ⟨used, rfl, nonempty, _⟩ := readEntry_sound canonical read
  rw [length_append]
  omega

end

/-- A tag whose payload is one value with one encoding. -/
theorem value_sound {α : Type} {p : PacketReader α} {encode : α → Bytes} {value : α → Nbt} {tag : UInt8}
    (sound : Sound p fun used v => used = encode v) (nodes : ℕ)
    (written : ∀ v, PayloadBytes tag (encode v) (value v)) :
    Sound (p >>= fun v => pure (value v, nodes)) (fun used result => PayloadBytes tag used result.1) := by
  refine (sound.map _).mono ?_
  rintro used result ⟨v, rfl, rfl⟩
  exact written v

private theorem readTag_sound {payload : UInt8 → ℕ → PacketReader (Nbt × ℕ)} (canonical : Canonical payload)
    (nodes : ℕ) (tag : UInt8) :
    Sound (readTag payload nodes tag) (fun used result => PayloadBytes tag used result.1) := by
  unfold readTag
  split
  · exact value_sound i8.get_sound nodes fun _ => ⟨rfl, rfl⟩
  · exact value_sound i16.get_sound nodes fun _ => ⟨rfl, rfl⟩
  · exact value_sound i32.get_sound nodes fun _ => ⟨rfl, rfl⟩
  · exact value_sound i64.get_sound nodes fun _ => ⟨rfl, rfl⟩
  · exact value_sound u32.get_sound nodes fun _ => ⟨rfl, rfl⟩
  · exact value_sound u64.get_sound nodes fun _ => ⟨rfl, rfl⟩
  · exact value_sound readByteArray_sound nodes fun _ => ⟨rfl, rfl⟩
  · refine (readNbtString_sound.map _).mono ?_
    rintro used result ⟨v, rfl, written⟩
    exact ⟨written, rfl⟩
  · exact readList_sound canonical nodes
  · refine ((readEntries_sound canonical nodes).map _).mono ?_
    rintro used result ⟨⟨entries, final⟩, rfl, body, written, rfl⟩
    refine ⟨?_, rfl⟩
    rw [writePayload, written]
    rfl
  · exact value_sound (readArray_sound i32) nodes fun _ => ⟨rfl, rfl⟩
  · exact value_sound (readArray_sound i64) nodes fun _ => ⟨rfl, rfl⟩
  · exact .throw _ _

/-- At every nesting level the reader only accepts what the writer produces. -/
theorem readPayload_canonical (levels : ℕ) : Canonical (readPayload levels) := by
  induction levels with
  | zero =>
    intro tag nodes
    rw [readPayload]
    split_ifs
    all_goals exact .throw _ _
  | succ levels ih =>
    intro tag nodes
    rw [readPayload]
    split_ifs
    · exact .throw _ _
    · exact readTag_sound ih _ tag

end Converse

/-- What decoding accepts is what encoding writes. -/
theorem decode_sound : Sound decode (fun used value => encode value = .ok used) := by
  intro input value rest success
  obtain ⟨tag, afterTag, readTag, success₁⟩ := run_bind_eq_ok.mp success
  obtain ⟨_, rfl, rfl⟩ := u8.get_sound _ _ _ readTag
  split_ifs at success₁ with isEnd
  · cases success₁
  · obtain ⟨⟨value, nodes⟩, left, readValue, done⟩ := run_bind_eq_ok.mp success₁
    cases done
    obtain ⟨payload, rfl, written, rfl⟩ := readPayload_canonical _ _ _ _ _ _ readValue
    refine ⟨putU8 value.tagId ++ payload, (append_assoc ..).symm, ?_⟩
    change value.writePayload = _ at written
    rw [encode, written]
    rfl

/-- Encoding and decoding are inverse on the two domains: well-formed values within the decoder's
budgets, in front of any suffix, and the byte strings on which decoding succeeds. -/
theorem nbt_roundtrip :
    (∀ value suffix, WellFormed value → nesting value ≤ maxNbtDepth → count value ≤ maxNbtNodes →
      ∃ bytes, encode value = .ok bytes ∧ decode.run (bytes ++ suffix) = .ok (value, suffix)) ∧
    ∀ input value rest, decode.run input = .ok (value, rest) →
      ∃ used, input = used ++ rest ∧ encode value = .ok used := by
  constructor
  · intro value suffix wellFormed deep bound
    obtain ⟨bytes, written⟩ := wellFormed_written wellFormed
    refine ⟨putU8 value.tagId ++ bytes, ?_, ?_⟩
    · rw [encode, written.written]
      rfl
    · have read := written.reads (maxNbtDepth + 1) 0 (by omega) (by omega)
      rw [decode, append_assoc, run_bind_of_ok (u8.get_reads _ _), if_neg (tagId_ne_tagEnd value)]
      exact read.map (fun result => result.1) suffix
  · exact decode_sound

/-- A compound with a list of ints and an empty list whose tag is no tag at all, and the bytes of a
compound entry. -/
theorem nbt_roundtrip_demo :
    (∃ bytes, encode (.compound [("a", .list 3 [.int 7, .int (-1)]), ("", .list 200 [])]) = .ok bytes ∧
      decode.run (bytes ++ [9]) = .ok (.compound [("a", .list 3 [.int 7, .int (-1)]), ("", .list 200 [])], [9])) ∧
    ∃ used, [1, 255, 4] = used ++ [4] ∧ encode (.byte (-1)) = .ok used := by
  constructor
  · apply nbt_roundtrip.1
    · have names : WellFormedNode (.compound [("a", .list 3 [.int 7, .int (-1)]), ("", .list 200 [])]) := by
        simp only [WellFormedNode, mem_cons, not_mem_nil, or_false, forall_eq_or_imp, forall_eq]
        decide
      refine .compound names ?_
      simp only [mem_cons, not_mem_nil, or_false, forall_eq_or_imp, forall_eq]
      refine ⟨.list (by simp [WellFormedNode, tagId]) ?_, .list (by simp [WellFormedNode]) (by simp)⟩
      simp only [mem_cons, not_mem_nil, or_false, forall_eq_or_imp, forall_eq]
      exact ⟨.leaf trivial (by decide) (by decide), .leaf trivial (by decide) (by decide)⟩
    · decide
    · decide
  · exact nbt_roundtrip.2 [1, 255, 4] (.byte (-1)) [4] rfl

end MineRider.Soundness.NbtCodec
