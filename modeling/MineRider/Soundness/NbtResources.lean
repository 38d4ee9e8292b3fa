import MineRider.Machine.Metered
import MineRider.Soundness.NbtCodec

/-! # What decoding network NBT can cost

The reader is run with a log of its recursive calls and of the list and array slots it reserves, kept
also for inputs that are later rejected. A finished list or array was paid for by its bytes. Only the
lists still open on the way to the current value have reserved slots for elements that are not read
yet, and each nesting level has at most one of them.
-/

namespace MineRider.Soundness.NbtResources

open Model.Protocol Model.Protocol.Nbt Machine Machine.Metered NbtCodec PacketReader PacketWriter FixedInt
open Machine.Reader (Sound times run_bind_eq_ok run_bind_of_ok)

/-- What the log records. -/
inductive Use where
  /-- `read_payload` is called at this depth -/
  | call (depth : ℕ)
  /-- the call passed the checks of the node count and the depth -/
  | level (depth : ℕ)
  /-- `Vec::with_capacity` or `to_vec` for this many elements -/
  | slots (count : ℕ)
deriving DecidableEq, Repr

/-- The slots a use reserves. -/
def Use.reserved : Use → ℕ
  | .slots count => count
  | _ => 0

/-- The list and array slots reserved along a log. -/
def reservedSlots (log : List Use) : ℕ := spent Use.reserved log

abbrev Meter (α : Type) := Metered Use UInt8 ProtocolError α

section Metered

/-- `readLength 1 >>= readBytes`, copied out with `to_vec`. -/
def meteredBytes : Meter Bytes := do
  let len ← ofReader (readLength 1)
  let bytes ← ofReader (readBytes len)
  record (.slots len)
  pure bytes

/-- An array of fixed-width elements, reserved before they are read. -/
def meteredArray {α : Type} (kind : FixedInt α) : Meter (List α) := do
  let len ← ofReader (readLength kind.width)
  record (.slots len)
  ofReader (times kind.get len)

/-- `readList` with its `Vec::with_capacity`. -/
def meteredList (item : UInt8 → ℕ → Meter (Nbt × ℕ)) (nodes : ℕ) : Meter (Nbt × ℕ) := do
  let elemTag ← ofReader getU8
  let count ← ofReader getI32
  if count < 0 then ofReader (throw (.invalidNbt s!"negative list length {count}"))
  else if count = 0 then pure (.list elemTag [], nodes)
  else if ¬ validTag elemTag then ofReader (throw (.invalidNbt s!"list of invalid tag id {elemTag}"))
  else do
    let remaining ← ofReader remaining
    if count.toNatClampNeg > remaining then
      ofReader (throw (.bufferUnderflow count.toNatClampNeg remaining))
    else do
      record (.slots count.toNatClampNeg)
      let (items, nodes) ← collect (item elemTag) count.toNatClampNeg nodes
      pure (.list elemTag items, nodes)

/-- `readEntry` -/
def meteredEntry (payload : UInt8 → ℕ → Meter (Nbt × ℕ)) (nodes : ℕ) : Meter (Option (String × Nbt) × ℕ) := do
  let entryTag ← ofReader getU8
  if entryTag = tagEnd then pure (none, nodes)
  else if ¬ validTag entryTag then
    ofReader (throw (.invalidNbt s!"compound entry with invalid tag id {entryTag}"))
  else do
    let name ← ofReader readNbtString
    let (value, nodes) ← payload entryTag nodes
    pure (some (name, value), nodes)

/-- `readEntries` -/
def meteredEntries (payload : UInt8 → ℕ → Meter (Nbt × ℕ)) (nodes : ℕ) : Meter (List (String × Nbt) × ℕ) := do
  let remaining ← ofReader remaining
  untilNone (meteredEntry payload) (.bufferUnderflow 1 0) (remaining + 1) nodes

/-- `readTag` -/
def meteredTag (payload : UInt8 → ℕ → Meter (Nbt × ℕ)) (nodes : ℕ) : UInt8 → Meter (Nbt × ℕ)
  | 1 => do return (.byte (← ofReader getI8), nodes)
  | 2 => do return (.short (← ofReader getI16), nodes)
  | 3 => do return (.int (← ofReader getI32), nodes)
  | 4 => do return (.long (← ofReader getI64), nodes)
  | 5 => do return (.float (← ofReader getF32), nodes)
  | 6 => do return (.double (← ofReader getF64), nodes)
  | 7 => do return (.byteArray (← meteredBytes), nodes)
  | 8 => do return (.string (← ofReader readNbtString), nodes)
  | 9 => meteredList payload nodes
  | 10 => do
      let (entries, nodes) ← meteredEntries payload nodes
      return (.compound entries, nodes)
  | 11 => do return (.intArray (← meteredArray .i32), nodes)
  | 12 => do return (.longArray (← meteredArray .i64), nodes)
  | other => ofReader (throw (.invalidNbt s!"invalid tag id {other}"))

/-- `read_payload`, with the `depth` its callers pass down. -/
def meteredPayload (depth : ℕ) : UInt8 → ℕ → Meter (Nbt × ℕ) := fun tag nodes => do
  record (.call depth)
  if nodes + 1 > maxNbtNodes then ofReader (throw (.invalidNbt s!"more than {maxNbtNodes} nodes"))
  else if depth > maxNbtDepth then ofReader (throw (.invalidNbt s!"nesting deeper than {maxNbtDepth}"))
  else do
    record (.level depth)
    meteredTag (meteredPayload (depth + 1)) (nodes + 1) tag
termination_by maxNbtDepth + 1 - depth

/-- `Nbt::decode` with the log of what it uses. -/
def meteredDecode : Meter Nbt := do
  let tag ← ofReader getU8
  if tag = tagEnd then ofReader (throw (.invalidNbt "standalone TAG_End is not a valid root"))
  else do
    let (value, _) ← meteredPayload 0 tag 0
    pure value

end Metered

section Erase

/-! Without its log, the metered reader is the reader. -/

variable {metered : UInt8 → ℕ → Meter (Nbt × ℕ)} {payload : UInt8 → ℕ → PacketReader (Nbt × ℕ)}

private theorem erase_bytes : erase meteredBytes = readLength 1 >>= readBytes := by
  simp only [meteredBytes, erase_bind, erase_ofReader, erase_record, pure_bind, erase_pure, bind_pure]

private theorem erase_array {α : Type} (kind : FixedInt α) :
    erase (meteredArray kind) = readLength kind.width >>= times kind.get := by
  simp only [meteredArray, erase_bind, erase_ofReader, erase_record, pure_bind]

section

variable (same : ∀ tag nodes, erase (metered tag nodes) = payload tag nodes) (nodes : ℕ)

include same nodes

private theorem erase_list : erase (meteredList metered nodes) = readList payload nodes := by
  simp only [meteredList, readList, erase_bind, erase_ite, erase_ofReader, erase_record, pure_bind, erase_pure,
    erase_collect, same]

private theorem erase_entry : erase (meteredEntry metered nodes) = readEntry payload nodes := by
  simp only [meteredEntry, readEntry, erase_bind, erase_ite, erase_ofReader, erase_pure, same]

private theorem erase_entries : erase (meteredEntries metered nodes) = readEntries payload nodes := by
  simp only [meteredEntries, readEntries, erase_bind, erase_ofReader, erase_untilNone, erase_entry same]

private theorem erase_tag (tag : UInt8) : erase (meteredTag metered nodes tag) = readTag payload nodes tag := by
  unfold meteredTag readTag
  split <;>
    simp only [erase_bind, erase_ofReader, erase_pure, erase_bytes, erase_list same, erase_entries same,
      erase_array, getI32, getI64] <;> rfl

end

/-- The depth passed down and the levels left of the reader always make the same sum. -/
theorem erase_payload {depth levels : ℕ} (left : depth + levels = maxNbtDepth + 1) (tag : UInt8) (nodes : ℕ) :
    erase (meteredPayload depth tag nodes) = readPayload levels tag nodes := by
  induction levels generalizing depth tag nodes with
  | zero =>
    have deep : depth > maxNbtDepth := by omega
    simp only [meteredPayload, readPayload, erase_bind, erase_record, pure_bind, erase_ite, erase_ofReader,
      if_pos deep]
  | succ levels ih =>
    have inside : ¬ depth > maxNbtDepth := by omega
    have next : depth + 1 + levels = maxNbtDepth + 1 := by omega
    simp only [meteredPayload, readPayload, erase_bind, erase_record, pure_bind, erase_ite, erase_ofReader,
      if_neg inside, erase_tag (ih next)]

private theorem erase_decode : erase meteredDecode = decode := by
  simp only [meteredDecode, decode, erase_bind, erase_ite, erase_ofReader, erase_pure,
    erase_payload (Nat.zero_add (maxNbtDepth + 1))]

end Erase

section Depth

/-- The depths the log may show: one past the limit for a call, the limit for a call that goes on. -/
def Shallow : Use → Prop
  | .call depth => depth ≤ maxNbtDepth + 1
  | .level depth => depth ≤ maxNbtDepth
  | .slots _ => True

variable {metered : UInt8 → ℕ → Meter (Nbt × ℕ)}

private theorem logs_list (each : ∀ tag nodes, Logs Shallow (metered tag nodes)) (nodes : ℕ) :
    Logs Shallow (meteredList metered nodes) := by
  refine (Logs.ofReader _).bind fun elemTag => (Logs.ofReader _).bind fun count => ?_
  split_ifs
  · exact .ofReader _
  · exact .pure _
  · refine (Logs.ofReader _).bind fun remaining => ?_
    split_ifs
    · exact .ofReader _
    · exact (Logs.record trivial).bind fun _ => (Logs.collect (each elemTag) _ _).bind fun _ => .pure _
  · exact .ofReader _

private theorem logs_entries (each : ∀ tag nodes, Logs Shallow (metered tag nodes)) (nodes : ℕ) :
    Logs Shallow (meteredEntries metered nodes) := by
  refine (Logs.ofReader _).bind fun remaining => Logs.untilNone _ (fun nodes => ?_) _ _
  refine (Logs.ofReader _).bind fun entryTag => ?_
  split_ifs
  · exact .pure _
  · exact (Logs.ofReader _).bind fun _ => (each entryTag nodes).bind fun _ => .pure _
  · exact .ofReader _

private theorem logs_array {α : Type} (kind : FixedInt α) : Logs Shallow (meteredArray kind) :=
  (Logs.ofReader _).bind fun _ => (Logs.record trivial).bind fun _ => .ofReader _

private theorem logs_bytes : Logs Shallow meteredBytes :=
  (Logs.ofReader _).bind fun _ => (Logs.ofReader _).bind fun _ => (Logs.record trivial).bind fun _ => .pure _

private theorem logs_tag (each : ∀ tag nodes, Logs Shallow (metered tag nodes)) (nodes : ℕ) (tag : UInt8) :
    Logs Shallow (meteredTag metered nodes tag) := by
  unfold meteredTag
  split
  case h_7 => exact logs_bytes.bind fun _ => .pure _
  case h_9 => exact logs_list each nodes
  case h_10 => exact (logs_entries each nodes).bind fun _ => .pure _
  case h_11 => exact (logs_array _).bind fun _ => .pure _
  case h_12 => exact (logs_array _).bind fun _ => .pure _
  case h_13 => exact .ofReader _
  all_goals exact (Logs.ofReader _).bind fun _ => .pure _

/-- A call that goes on is within the limit, so the calls it makes are at most one past it. -/
theorem logs_payload {depth : ℕ} (within : depth ≤ maxNbtDepth + 1) (tag : UInt8) (nodes : ℕ) :
    Logs Shallow (meteredPayload depth tag nodes) := by
  have called : Shallow (.call depth) := within
  rw [meteredPayload]
  refine (Logs.record called).bind fun _ => ?_
  split_ifs with full deep
  · exact .ofReader _
  · exact .ofReader _
  · have inside : Shallow (.level depth) := not_lt.mp deep
    exact (Logs.record inside).bind fun _ => logs_tag (logs_payload (Nat.succ_le_succ inside)) _ tag
termination_by maxNbtDepth + 1 - depth

private theorem logs_decode : Logs Shallow meteredDecode := by
  refine (Logs.ofReader _).bind fun tag => ?_
  split_ifs
  · exact .ofReader _
  · exact (logs_payload (Nat.zero_le _) tag 0).bind fun _ => .pure _

end Depth

section Slots

variable {input : Bytes} {factor : ℕ}

variable {α : Type}

/-- What is read by a fixed-width read is no longer there. -/
theorem get_consumes (kind : FixedInt α) (a : α) (rest : Bytes)
    (success : kind.get.run input = .ok (a, rest)) : kind.width + rest.length ≤ input.length := by
  obtain ⟨used, rfl, rfl⟩ := kind.get_sound _ _ _ success
  rw [List.length_append, kind.put_length]

private theorem string_consumes (name : String) (rest : Bytes) (success : readNbtString.run input = .ok (name, rest)) :
    2 + rest.length ≤ input.length := by
  obtain ⟨used, rfl, written⟩ := readNbtString_sound _ _ _ success
  rw [writeNbtString] at written
  split_ifs at written
  cases written
  simp [putU16, u16]

/-- An accepted array length announces elements that are there. -/
theorem readLength_fits {elemSize length : ℕ} {rest : Bytes}
    (success : (readLength elemSize).run input = .ok (length, rest)) :
    4 + rest.length ≤ input.length ∧ length * elemSize ≤ rest.length := by
  obtain ⟨len, middle, readLen, afterLen⟩ := run_bind_eq_ok.mp success
  have consumed := get_consumes i32 _ _ readLen
  split_ifs at afterLen with negative
  · cases afterLen
  · rw [run_bind_of_ok (remaining_run middle)] at afterLen
    dsimp only at afterLen
    split_ifs at afterLen with short
    · cases afterLen
    · cases afterLen
      exact ⟨consumed, not_lt.mp short⟩

theorem spends_fixed (kind : FixedInt α) :
    Spends Use.reserved factor kind.width (ofReader kind.get) input :=
  .ofReader factor (get_consumes kind)

private theorem spends_remaining : Spends Use.reserved factor 0 (ofReader remaining) input := by
  refine .ofReader factor ?_
  rintro _ _ ⟨⟩
  exact (Nat.zero_add _).le

private theorem spends_get (kind : FixedInt α) (wide : 1 ≤ kind.width) (value : α → Nbt) (nodes : ℕ)
    (positive : 1 ≤ factor) :
    Spends Use.reserved factor 1 (ofReader kind.get >>= fun v => pure (value v, nodes)) input :=
  ((spends_fixed kind).followed positive fun _ _ _ => .pure _ _ _).mono le_rfl wide

/-- A byte array is copied out after its bytes were read. -/
theorem spends_bytes (positive : 1 ≤ factor) : Spends Use.reserved factor 1 meteredBytes input := by
  have header : Spends Use.reserved factor 4 (ofReader (readLength 1)) input :=
    .ofReader factor fun _ _ success => (readLength_fits success).1
  refine (header.followed positive fun len rest _ => ?_).mono le_rfl (by decide)
  refine Spends.record_after (m := ofReader (readBytes len)) (.ofReader factor ?_)
  intro bytes left success
  obtain ⟨used, rfl, rfl, length⟩ := readBytes_sound _ _ _ _ success
  rw [List.length_append, length]
  rfl

/-- An array is reserved before its elements are read, all of which are there. -/
theorem spends_array (kind : FixedInt α) (wide : 1 ≤ kind.width) :
    Spends Use.reserved (factor + 1) 1 (meteredArray kind) input := by
  have header : Spends Use.reserved (factor + 1) 4 (ofReader (readLength kind.width)) input :=
    .ofReader _ fun _ _ success => (readLength_fits success).1
  refine (header.followed (Nat.le_add_left 1 factor) fun len rest success => ?_).mono le_rfl (by decide)
  have wider : len ≤ len * kind.width := Nat.le_mul_of_pos_right len wide
  have there := (readLength_fits success).2
  refine .reserve (wider.trans there) (.ofReader factor ?_)
  intro items left read
  obtain ⟨used, rfl, rfl, rfl⟩ := Sound.times kind.get_sound _ _ _ _ read
  have size : (items.flatMap kind.put).length = items.length * kind.width := by
    simp [List.length_flatMap]
  rw [List.length_append, size]
  change items.length + 0 + left.length ≤ _
  omega

variable {metered : UInt8 → ℕ → Meter (Nbt × ℕ)}

section

variable (positive : 1 ≤ factor) (each : ∀ tag nodes input, Spends Use.reserved factor 1 (metered tag nodes) input)
  (nodes : ℕ)

include positive each nodes

/-- A list is reserved before its elements are read; when it is finished, each of them has cost a byte. -/
theorem spends_list : Spends Use.reserved (factor + 1) 1 (meteredList metered nodes) input := by
  have larger := Nat.le_add_left 1 factor
  refine (spends_fixed .u8).followed larger fun elemTag rest _ => ?_
  refine ((spends_fixed .i32).followed larger fun count rest _ => ?_).mono le_rfl (Nat.zero_le _)
  split_ifs
  · exact .ofReader _ (by rintro _ _ ⟨⟩)
  · exact (Spends.pure _ _ _)
  · refine spends_remaining.followed larger fun remaining left read => ?_
    cases read
    split_ifs with short
    · exact .ofReader _ (by rintro _ _ ⟨⟩)
    · have items := Spends.collect positive (each elemTag) count.toNatClampNeg nodes rest
      exact .reserve (not_lt.mp short) (items.followed positive fun _ _ _ => .pure _ _ _)
  · exact .ofReader _ (by rintro _ _ ⟨⟩)

private theorem spends_entries : Spends Use.reserved factor 1 (meteredEntries metered nodes) input := by
  refine (spends_remaining.bind positive fun remaining rest _ => ?_).mono le_rfl (Nat.zero_add 1).ge
  refine Spends.untilNone positive (fun nodes input => ?_) _ _ _
  refine (spends_fixed .u8).followed positive fun entryTag rest _ => ?_
  split_ifs
  · exact .pure _ _ _
  · have name : Spends Use.reserved factor 2 (ofReader readNbtString) rest := .ofReader _ string_consumes
    have entry := name.followed positive fun text left _ => Spends.mono
      ((each entryTag nodes left).followed positive fun value _ _ => .pure _ (some (text, value.1), value.2) _)
      le_rfl (Nat.zero_le 1)
    exact entry.mono le_rfl (Nat.zero_le 2)
  · exact .ofReader _ (by rintro _ _ ⟨⟩)

private theorem spends_tag (tag : UInt8) :
    Spends Use.reserved (factor + 1) 1 (meteredTag metered nodes tag) input := by
  have larger := Nat.le_add_left 1 factor
  unfold meteredTag
  split
  · exact spends_get .i8 (by decide) _ nodes larger
  · exact spends_get .i16 (by decide) _ nodes larger
  · exact spends_get .i32 (by decide) _ nodes larger
  · exact spends_get .i64 (by decide) _ nodes larger
  · exact spends_get .u32 (by decide) _ nodes larger
  · exact spends_get .u64 (by decide) _ nodes larger
  · exact (spends_bytes larger).followed larger fun _ _ _ => .pure _ _ _
  · have text : Spends Use.reserved (factor + 1) 2 (ofReader readNbtString) input := .ofReader _ string_consumes
    exact (text.followed larger fun _ _ _ => .pure _ _ _).mono le_rfl (Nat.le_succ 1)
  · exact spends_list positive each nodes
  · exact ((spends_entries positive each nodes).mono (Nat.le_succ _) le_rfl).followed larger fun _ _ _ => .pure _ _ _
  · exact (spends_array .i32 (by decide)).followed larger fun _ _ _ => .pure _ _ _
  · exact (spends_array .i64 (by decide)).followed larger fun _ _ _ => .pure _ _ _
  · exact .ofReader _ (by rintro _ _ ⟨⟩)

end

/-- Each nesting level adds the input once, for the list that may be open on it. -/
theorem spends_payload {depth levels : ℕ} (left : depth + levels = maxNbtDepth + 1) (tag : UInt8) (nodes : ℕ)
    (input : Bytes) : Spends Use.reserved (levels + 1) 1 (meteredPayload depth tag nodes) input := by
  induction levels generalizing depth tag nodes input with
  | zero =>
    rw [meteredPayload, if_pos (show depth > maxNbtDepth by omega)]
    refine .free rfl ?_
    split_ifs
    all_goals exact .ofReader _ (by rintro _ _ ⟨⟩)
  | succ levels ih =>
    rw [meteredPayload]
    refine .free rfl ?_
    split_ifs
    · exact .ofReader _ (by rintro _ _ ⟨⟩)
    · exact .ofReader _ (by rintro _ _ ⟨⟩)
    · exact .free rfl (spends_tag (Nat.le_add_left 1 levels) (ih (by omega)) _ tag)

private theorem spends_decode (input : Bytes) : Spends Use.reserved (maxNbtDepth + 2) 1 meteredDecode input := by
  have positive : 1 ≤ maxNbtDepth + 2 := Nat.le_add_left 1 _
  refine (spends_fixed .u8).followed positive fun tag rest _ => ?_
  split_ifs
  · exact .ofReader _ (by rintro _ _ ⟨⟩)
  · have value := spends_payload (Nat.zero_add (maxNbtDepth + 1)) tag 0 rest
    exact (value.followed positive fun _ _ _ => .pure _ _ _).mono le_rfl (Nat.zero_le _)

end Slots

section Sizes

mutual

/-- The elements of all arrays of a value. -/
def elements : Nbt → ℕ
  | .byteArray v => v.length
  | .intArray v => v.length
  | .longArray v => v.length
  | .list _ items => elementsItems items
  | .compound entries => elementsEntries entries
  | _ => 0

def elementsItems : List Nbt → ℕ
  | [] => 0
  | item :: rest => elements item + elementsItems rest

def elementsEntries : List (String × Nbt) → ℕ
  | [] => 0
  | (_, value) :: rest => elements value + elementsEntries rest

end

private theorem writeArray_length {α : Type} (kind : FixedInt α) (v : List α) :
    (writeArray kind.put v).length = 4 + v.length * kind.width := by
  simp [writeArray, List.length_flatMap, putI32, i32]

mutual

/-- Every node and every array element of a written value takes a byte of its own. -/
theorem size_le_payload (value : Nbt) (bytes : Bytes) (written : value.writePayload = .ok bytes) :
    count value + elements value ≤ bytes.length := by
  cases value with
  | byte v => cases written; simp [count, elements, putI8, i8]
  | short v => cases written; simp [count, elements, putI16, i16]
  | int v => cases written; simp [count, elements, putI32, i32]
  | long v => cases written; simp [count, elements, putI64, i64]
  | float bits => cases written; simp [count, elements, putF32, u32]
  | double bits => cases written; simp [count, elements, putF64, u64]
  | byteArray v =>
    cases written
    simp only [count, elements, List.length_append, putI32, put_length, i32]
    omega
  | string v =>
    rw [writePayload, writeNbtString] at written
    split_ifs at written
    cases written
    simp only [count, elements, List.length_append, putU16, put_length, u16]
    omega
  | list tag items =>
    rw [writePayload] at written
    split_ifs at written
    obtain ⟨body, inner, done⟩ := write_bind_eq_ok written
    cases done
    have smaller := size_le_items items body inner
    simp only [count, elements, List.length_append, putU8, putI32, put_length, u8, i32]
    omega
  | compound entries =>
    rw [writePayload] at written
    obtain ⟨body, inner, done⟩ := write_bind_eq_ok written
    cases done
    have smaller := size_le_entries entries body inner
    simp only [count, elements, List.length_append, putU8, put_length, u8]
    omega
  | intArray v =>
    cases written
    change 1 + v.length ≤ (writeArray i32.put v).length
    rw [writeArray_length]
    simp only [i32]
    omega
  | longArray v =>
    cases written
    change 1 + v.length ≤ (writeArray i64.put v).length
    rw [writeArray_length]
    simp only [i64]
    omega

theorem size_le_items (items : List Nbt) (bytes : Bytes) (written : writeItems items = .ok bytes) :
    countItems items + elementsItems items ≤ bytes.length := by
  cases items with
  | nil => exact Nat.zero_le _
  | cons item rest =>
    rw [writeItems] at written
    obtain ⟨payload, first, written₁⟩ := write_bind_eq_ok written
    obtain ⟨later, second, done⟩ := write_bind_eq_ok written₁
    cases done
    have head := size_le_payload item payload first
    have tail := size_le_items rest later second
    simp only [countItems, elementsItems, List.length_append]
    omega

theorem size_le_entries (entries : List (String × Nbt)) (bytes : Bytes) (written : writeEntries entries = .ok bytes) :
    countEntries entries + elementsEntries entries ≤ bytes.length := by
  cases entries with
  | nil => exact Nat.zero_le _
  | cons entry rest =>
    obtain ⟨name, value⟩ := entry
    rw [writeEntries] at written
    obtain ⟨nameBytes, _, written₁⟩ := write_bind_eq_ok written
    obtain ⟨payload, first, written₂⟩ := write_bind_eq_ok written₁
    obtain ⟨later, second, done⟩ := write_bind_eq_ok written₂
    cases done
    have head := size_le_payload value payload first
    have tail := size_le_entries rest later second
    simp only [countEntries, elementsEntries, List.length_append]
    omega

end

/-- What decoding consumed has room for the nodes and array elements of the value. -/
theorem size_le_used {input rest : Bytes} {value : Nbt} (success : decode.run input = .ok (value, rest)) :
    ∃ used, input = used ++ rest ∧ count value + elements value ≤ used.length := by
  obtain ⟨used, split, encoded⟩ := decode_sound _ _ _ success
  refine ⟨used, split, ?_⟩
  obtain ⟨payload, written, done⟩ := write_bind_eq_ok encoded
  cases done
  have size := size_le_payload value payload written
  rw [List.length_append]
  omega

end Sizes

section Nodes

/-- The node count a payload reader returns has counted the value, within the limit. -/
def Counts (payload : UInt8 → ℕ → PacketReader (Nbt × ℕ)) : Prop :=
  ∀ tag nodes input value final rest, (payload tag nodes).run input = .ok ((value, final), rest) →
    final = nodes + count value ∧ final ≤ maxNbtNodes

variable {payload : UInt8 → ℕ → PacketReader (Nbt × ℕ)}

section

variable {input rest : Bytes} {nodes final : ℕ} (counts : Counts payload) (within : nodes ≤ maxNbtNodes)

include counts within

private theorem counts_collect {tag : UInt8} {length : ℕ} {items : List Nbt}
    (success : (Reader.collect (payload tag) length nodes).run input = .ok ((items, final), rest)) :
    final = nodes + countItems items ∧ final ≤ maxNbtNodes := by
  induction length generalizing nodes input items with
  | zero =>
    cases success
    exact ⟨rfl, within⟩
  | succ length ih =>
    obtain ⟨⟨item, between⟩, middle, first, success₁⟩ := run_bind_eq_ok.mp success
    obtain ⟨⟨later, last⟩, left, second, done⟩ := run_bind_eq_ok.mp success₁
    cases done
    obtain ⟨rfl, bound⟩ := counts _ _ _ _ _ _ first
    obtain ⟨total, limit⟩ := ih bound second
    refine ⟨?_, limit⟩
    change last = nodes + (count item + countItems later)
    omega

private theorem counts_list {value : Nbt} (success : (readList payload nodes).run input = .ok ((value, final), rest)) :
    final + 1 = nodes + count value ∧ final ≤ maxNbtNodes := by
  obtain ⟨elemTag, afterTag, _, success₁⟩ := run_bind_eq_ok.mp success
  obtain ⟨length, afterLength, _, success₂⟩ := run_bind_eq_ok.mp success₁
  split_ifs at success₂
  · cases success₂
  · cases success₂
    exact ⟨rfl, within⟩
  · obtain ⟨remaining, middle, _, success₃⟩ := run_bind_eq_ok.mp success₂
    split_ifs at success₃
    · cases success₃
    · obtain ⟨⟨items, last⟩, left, readItems, done⟩ := run_bind_eq_ok.mp success₃
      cases done
      obtain ⟨rfl, limit⟩ := counts_collect counts within readItems
      rw [count]
      omega
  · cases success₂

private theorem counts_entry {entry : Option (String × Nbt)}
    (success : (readEntry payload nodes).run input = .ok ((entry, final), rest)) :
    final = nodes + countEntries entry.toList ∧ final ≤ maxNbtNodes := by
  obtain ⟨entryTag, afterTag, _, success₁⟩ := run_bind_eq_ok.mp success
  split_ifs at success₁
  · cases success₁
    exact ⟨rfl, within⟩
  · obtain ⟨name, afterName, _, success₂⟩ := run_bind_eq_ok.mp success₁
    obtain ⟨⟨value, last⟩, left, readValue, done⟩ := run_bind_eq_ok.mp success₂
    cases done
    exact counts _ _ _ _ _ _ readValue
  · cases success₁

private theorem counts_entries {stuck : ProtocolError} {fuel : ℕ} {entries : List (String × Nbt)}
    (success : (Reader.untilNone (readEntry payload) stuck fuel nodes).run input = .ok ((entries, final), rest)) :
    final = nodes + countEntries entries ∧ final ≤ maxNbtNodes := by
  induction fuel generalizing nodes input entries with
  | zero => cases success
  | succ fuel ih =>
    obtain ⟨⟨entry, between⟩, middle, first, success₁⟩ := run_bind_eq_ok.mp success
    obtain ⟨counted, bound⟩ := counts_entry counts within first
    cases entry with
    | none =>
      cases success₁
      exact ⟨counted, bound⟩
    | some entry =>
      obtain ⟨⟨later, last⟩, left, second, done⟩ := run_bind_eq_ok.mp success₁
      cases done
      obtain ⟨name, value⟩ := entry
      obtain ⟨total, limit⟩ := ih bound second
      refine ⟨?_, limit⟩
      change between = nodes + (count value + 0) at counted
      change last = nodes + (count value + countEntries later)
      omega

end

variable {input rest : Bytes} {value : Nbt}

/-- A value without elements of its own is one node. -/
theorem counts_value {α : Type} {p : PacketReader α} {build : α → Nbt} {nodes final : ℕ} (within : nodes ≤ maxNbtNodes)
    (single : ∀ v, count (build v) = 1)
    (success : (p >>= fun v => pure (build v, nodes)).run input = .ok ((value, final), rest)) :
    final + 1 = nodes + count value ∧ final ≤ maxNbtNodes := by
  obtain ⟨v, middle, _, done⟩ := run_bind_eq_ok.mp success
  cases done
  exact ⟨by rw [single], within⟩

private theorem counts_tag (counts : Counts payload) {nodes final : ℕ} {tag : UInt8} (within : nodes ≤ maxNbtNodes)
    (success : (readTag payload nodes tag).run input = .ok ((value, final), rest)) :
    final + 1 = nodes + count value ∧ final ≤ maxNbtNodes := by
  unfold readTag at success
  split at success
  case h_9 => exact counts_list counts within success
  case h_10 =>
    obtain ⟨⟨entries, last⟩, left, readAll, done⟩ := run_bind_eq_ok.mp success
    cases done
    obtain ⟨rfl, limit⟩ := counts_entries counts within readAll
    rw [count]
    omega
  case h_13 => cases success
  all_goals exact counts_value within (fun _ => rfl) success

private theorem counts_payload (levels : ℕ) : Counts (readPayload levels) := by
  induction levels with
  | zero =>
    intro tag nodes input value final rest success
    rw [readPayload] at success
    split_ifs at success <;> cases success
  | succ levels ih =>
    intro tag nodes input value final rest success
    rw [readPayload] at success
    split_ifs at success with full
    · cases success
    · obtain ⟨counted, limit⟩ := counts_tag ih (not_lt.mp full) success
      exact ⟨by omega, limit⟩

private theorem count_decoded (success : decode.run input = .ok (value, rest)) :
    count value ≤ maxNbtNodes := by
  obtain ⟨tag, afterTag, _, success₁⟩ := run_bind_eq_ok.mp success
  split_ifs at success₁
  · cases success₁
  · obtain ⟨⟨value, nodes⟩, left, readValue, done⟩ := run_bind_eq_ok.mp success₁
    cases done
    obtain ⟨rfl, limit⟩ := counts_payload _ _ _ _ _ _ _ readValue
    omega

end Nodes

/-- Decoding any bytes. The log is that of the reader itself, and its compound loops stop on their
own. The calls go one level past the depth limit, where they stop at once; no call goes on beyond it.
At every moment the slots reserved so far are bounded by the input. A decoded value is within the
node limit and has no more nodes and array elements than bytes were consumed. -/
theorem decode_is_bounded (input : Bytes) :
    erase meteredDecode = decode ∧
      (∀ levels nodes more,
        (Reader.untilNone (readEntry (readPayload levels)) (.bufferUnderflow 1 0)
          (input.length + 1 + more) nodes).run input = (readEntries (readPayload levels) nodes).run input) ∧
      (∀ depth, .call depth ∈ (meteredDecode input).1 → depth ≤ maxNbtDepth + 1) ∧
      (∀ depth, .level depth ∈ (meteredDecode input).1 → depth ≤ maxNbtDepth) ∧
      (∀ prior, prior <+: (meteredDecode input).1 → reservedSlots prior ≤ (maxNbtDepth + 2) * input.length) ∧
      ∀ value rest, decode.run input = .ok (value, rest) →
        count value ≤ maxNbtNodes ∧
          ∃ used, input = used ++ rest ∧ count value + elements value ≤ used.length := by
  refine ⟨erase_decode, ?_, ?_, ?_, ?_, ?_⟩
  · intro levels nodes more
    exact readEntries_fuel (readPayload_canonical levels) nodes more input
  · intro depth called
    exact logs_decode input _ called
  · intro depth called
    exact logs_decode input _ called
  · intro prior before
    have total := (spends_decode input).total (Nat.le_add_left 1 _)
    exact (spent_le_of_prior before).trans total
  · intro value rest success
    exact ⟨count_decoded success, size_le_used success⟩

end MineRider.Soundness.NbtResources
