import MineRider.Model.Codegen.Loops
import MineRider.Soundness.Codecs

/-! # Lists that carry their own end

A metadata list is read back unless the first byte of one of its elements is the terminator: encoding does not check
it, and decoding ends there. A list closed by a clear top bit is read back unless it is empty: encoding writes
nothing for it, and decoding reads at least one element.
-/

namespace MineRider.Soundness.Loops

open List Machine.Reader Model.Protocol Model.Codegen NbtCodec Codecs FixedInt

section Loops

variable {β : Type} {t : FirstType} {fields : t.Value → Codec β}

private theorem first_encode (t : FirstType) (v : t.Value) : t.codec.encode v = .ok [t.asU8 v] := by
  cases t with
  | i8 =>
    change Except.ok (u8.put v.toUInt8) = _
    rw [u8_put]
    rfl
  | u8 =>
    change Except.ok (u8.put v) = _
    rw [u8_put]
    rfl

private theorem first_roundTrips (t : FirstType) : RoundTrips t.codec := by
  cases t with
  | i8 | u8 => exact fixed_roundTrips _

/-- An element starts with the byte of its first field. -/
theorem element_encode {item : t.Value × β} {bytes : Bytes} (written : (element t fields).encode item = .ok bytes) :
    ∃ others, (fields item.1).encode item.2 = .ok others ∧ bytes = t.asU8 item.1 :: others := by
  obtain ⟨first, head, after⟩ := write_bind_eq_ok written
  obtain ⟨others, tail, done⟩ := write_bind_eq_ok after
  rw [first_encode] at head
  cases head
  cases done
  exact ⟨others, tail, rfl⟩

private theorem element_roundTrips (lawful : ∀ v, RoundTrips (fields v)) : RoundTrips (element t fields) := by
  intro item bytes written
  obtain ⟨others, inner, rfl⟩ := element_encode written
  have first := first_roundTrips t item.1 _ (first_encode t item.1)
  exact first.bind ((lawful item.1 item.2 others inner).map (Prod.mk item.1))

section Metadata

variable {endVal : UInt8}

private theorem metaItem_end (rest : Bytes) :
    (metaItem t fields endVal).run (endVal :: rest) = .ok ((none, ()), rest) := by
  rw [metaItem, PacketReader.rest, run_bind_of_ok (run_get _), if_pos head?_cons,
    run_bind_of_ok (PacketReader.getU8_cons endVal rest), run_pure]

section

variable (lawful : ∀ v, RoundTrips (fields v))

include lawful

variable {bytes : Bytes}

private theorem metaItem_reads {item : t.Value × β}
    (written : (element t fields).encode item = .ok bytes) (other : t.asU8 item.1 ≠ endVal) :
    Reads (metaItem t fields endVal) bytes (some item, ()) := by
  obtain ⟨others, -, rfl⟩ := element_encode written
  intro suffix
  have item_ := element_roundTrips lawful item _ written suffix
  rw [metaItem, PacketReader.rest, run_bind_of_ok (run_get _), if_neg (by simpa using other),
    run_bind_of_ok item_, run_pure]

variable {items : List (t.Value × β)}

private theorem items_readUntil
    (written : (element t fields).encodeAll items = .ok bytes) (others : ∀ item ∈ items, t.asU8 item.1 ≠ endVal) :
    ReadsUntil (fun _ => metaItem t fields endVal) () (bytes ++ [endVal]) items () := by
  induction items generalizing bytes with
  | nil =>
    cases written
    exact .stop metaItem_end
  | cons item rest ih =>
    obtain ⟨first, head, after⟩ := write_bind_eq_ok written
    obtain ⟨later, tail, done⟩ := write_bind_eq_ok after
    cases done
    rw [forall_mem_cons] at others
    rw [append_assoc]
    exact .more (metaItem_reads lawful head others.1) (ih tail others.2)

/-- The loop returns every element only if none of them looks like the terminator. -/
theorem firsts_of_readBack {bytes rest : Bytes}
    {stuck : ProtocolError} {fuel : ℕ} (written : (element t fields).encodeAll items = .ok bytes)
    (success : (untilNone (fun _ => metaItem t fields endVal) stuck fuel ()).run (bytes ++ endVal :: rest) =
      .ok ((items, ()), rest)) : ∀ item ∈ items, t.asU8 item.1 ≠ endVal := by
  induction items generalizing bytes fuel with
  | nil => simp
  | cons item later ih =>
    obtain ⟨first, head, after⟩ := write_bind_eq_ok written
    obtain ⟨others, tail, done⟩ := write_bind_eq_ok after
    cases done
    cases fuel with
    | zero => cases success
    | succ fuel =>
      rw [append_assoc] at success
      by_cases same : t.asU8 item.1 = endVal
      · obtain ⟨body, -, rfl⟩ := element_encode head
        rw [same, cons_append, untilNone_of_none (metaItem_end _)] at success
        cases success
      · rw [untilNone_of_some (metaItem_reads lawful head same _)] at success
        obtain ⟨result, middle, inner, ended⟩ := run_bind_eq_ok.mp success
        cases ended
        exact forall_mem_cons.mpr ⟨same, ih tail inner⟩

theorem metaLoop_reads_iff (written : (metaLoop t fields endVal).encode items = .ok bytes) :
    Reads (metaLoop t fields endVal).decode bytes items ↔ ∀ item ∈ items, t.asU8 item.1 ≠ endVal := by
  obtain ⟨body, all, done⟩ := write_bind_eq_ok written
  cases done
  rw [PacketWriter.putU8, u8_put]
  constructor
  · intro reads
    obtain ⟨remaining, unread, count, after⟩ := run_bind_eq_ok.mp (reads [])
    cases count
    obtain ⟨result, rest, inner, ended⟩ := run_bind_eq_ok.mp after
    cases ended
    rw [append_assoc] at inner
    exact firsts_of_readBack lawful all inner
  · intro others suffix
    have room : items.length < (body ++ [endVal] ++ suffix).length + 1 := by
      have nonempty : WritesSome (element t fields) := by
        intro item empty
        obtain ⟨_, -, wrong⟩ := element_encode empty
        cases wrong
      have := length_le_encodeAll nonempty all
      simp only [length_append]
      omega
    rw [metaLoop, run_bind_of_ok (PacketReader.remaining_run _),
      run_bind_of_ok ((items_readUntil lawful all others).untilNone room suffix), run_pure]

end

end Metadata

section Topbit

private theorem topbit_bits : ∀ (byte : BitVec 8) (more : Bool), byte.toNat ≤ 127 →
    (topbitByte ⟨byte⟩ more &&& 0x7f).toBitVec = byte ∧ decide (topbitByte ⟨byte⟩ more &&& 0x80 ≠ 0) = more := by
  decide +kernel

/-- The seven low bits of a byte in range are the field, and the top bit says whether an element follows. -/
theorem topbit_byte {byte : UInt8} (small : byte.toNat ≤ 127) (more : Bool) :
    topbitByte byte more &&& 0x7f = byte ∧ decide (topbitByte byte more &&& 0x80 ≠ 0) = more := by
  obtain ⟨low, top⟩ := topbit_bits byte.toBitVec more small
  exact ⟨UInt8.toBitVec_inj.mp low, top⟩

private theorem signed_small : ∀ byte : BitVec 8, (0 : Int8) ≤ ⟨⟨byte⟩⟩ → byte.toNat ≤ 127 := by decide +kernel

private theorem small_of_inRange {v : t.Value} (inside : ¬ t.outOfRange v = true) : (t.asU8 v).toNat ≤ 127 := by
  cases t with
  | i8 =>
    have bounds : 0 ≤ v ∧ v ≤ 0x7f := by simpa [FirstType.outOfRange] using inside
    exact signed_small v.toBitVec bounds.1
  | u8 =>
    have bound : v ≤ 0x7f := by simpa [FirstType.outOfRange] using inside
    exact bound

private theorem strip_of_mask {v : t.Value} {raw : UInt8} (low : raw &&& 0x7f = t.asU8 v) : t.strip raw = v := by
  cases t with
  | i8 =>
    change (raw &&& 0x7f).toInt8 = v
    rw [low]
    rfl
  | u8 => exact low

variable {ctx : String} {bytes : Bytes}

private theorem topbit_reads (lawful : ∀ v, RoundTrips (fields v)) {item : t.Value × β} {more : Bool}
    (written : encodeTopbit t fields ctx item more = .ok bytes) :
    0 < bytes.length ∧ Reads (decodeTopbit t fields) bytes (item, more) := by
  rw [encodeTopbit] at written
  split_ifs at written with inside
  obtain ⟨others, inner, done⟩ := write_bind_eq_ok written
  cases done
  obtain ⟨low, top⟩ := topbit_byte (small_of_inRange inside) more
  refine ⟨by simp [u8], (u8.get_reads _).bind ?_⟩
  simp only [strip_of_mask low, top]
  exact (lawful item.1 item.2 others inner).map fun others => ((item.1, others), more)

private theorem topbits_read (lawful : ∀ v, RoundTrips (fields v)) {items : List (t.Value × β)}
    (written : encodeTopbits t fields ctx items = .ok bytes) (nonempty : items ≠ []) :
    items.length ≤ bytes.length ∧
      ∀ fuel, items.length ≤ fuel → Reads (decodeTopbits t fields fuel) bytes items := by
  induction items generalizing bytes with
  | nil => exact absurd rfl nonempty
  | cons item rest ih =>
    obtain ⟨first, head, after⟩ := write_bind_eq_ok written
    obtain ⟨later, tail, done⟩ := write_bind_eq_ok after
    cases done
    obtain ⟨some_, reads⟩ := topbit_reads lawful head
    cases rest with
    | nil =>
      cases tail
      refine ⟨by rw [append_nil]; exact some_, ?_⟩
      intro fuel enough
      obtain ⟨fuel, rfl⟩ := Nat.exists_eq_add_of_le' enough
      exact reads.bind (.pure [item])
    | cons next others =>
      obtain ⟨counted, inner⟩ := ih tail (by simp)
      refine ⟨by simp only [length_cons, length_append] at counted ⊢; omega, ?_⟩
      intro fuel enough
      cases fuel with
      | zero => exact absurd enough (by simp)
      | succ fuel => exact reads.bind ((inner fuel (Nat.le_of_succ_le_succ enough)).map (item :: ·))

/-- Decoding never returns an empty list. -/
theorem decodeTopbits_ne_nil {fuel : ℕ} {input rest : Bytes} :
    (decodeTopbits t fields fuel).run input ≠ .ok ([], rest) := by
  intro success
  cases fuel with
  | zero => cases success
  | succ fuel =>
    obtain ⟨⟨item, more⟩, middle, -, after⟩ := run_bind_eq_ok.mp success
    cases more with
    | false => cases after
    | true =>
      obtain ⟨items, last, -, done⟩ := run_bind_eq_ok.mp after
      cases done

theorem topbitLoop_reads_iff (lawful : ∀ v, RoundTrips (fields v)) {items : List (t.Value × β)}
    (written : (topbitLoop t fields ctx).encode items = .ok bytes) :
    Reads (topbitLoop t fields ctx).decode bytes items ↔ items ≠ [] := by
  constructor
  · rintro reads rfl
    obtain ⟨remaining, unread, -, success⟩ := run_bind_eq_ok.mp (reads [])
    exact decodeTopbits_ne_nil success
  · intro nonempty suffix
    obtain ⟨counted, reads⟩ := topbits_read lawful written nonempty
    have room : items.length ≤ (bytes ++ suffix).length + 1 := by
      rw [length_append]
      omega
    rw [topbitLoop, run_bind_of_ok (PacketReader.remaining_run _), reads _ room suffix]

end Topbit

end Loops

/-- A metadata list that is encoded is read back exactly if no first byte of an element is the terminator, and a
list closed by its top bit exactly if it is not empty. -/
theorem delimited_lists_read_back_iff (β : Type) (t : FirstType) (fields : t.Value → Codec β)
    (lawful : ∀ v, RoundTrips (fields v)) (items : List (t.Value × β)) :
    (∀ endVal bytes, (metaLoop t fields endVal).encode items = .ok bytes →
      (Reads (metaLoop t fields endVal).decode bytes items ↔ ∀ item ∈ items, t.asU8 item.1 ≠ endVal)) ∧
    ∀ ctx bytes, (topbitLoop t fields ctx).encode items = .ok bytes →
      (Reads (topbitLoop t fields ctx).decode bytes items ↔ items ≠ []) :=
  ⟨fun _ _ written => metaLoop_reads_iff lawful written, fun _ _ written => topbitLoop_reads_iff lawful written⟩

/-- The fields of an entry after its key, for an entry of type `byte`: the type and the value. -/
def byteEntry (_ : UInt8) : Codec UInt16 := .fixed .u16

theorem byte_entries_read_back :
    (∀ v, RoundTrips (byteEntry v)) ∧ (metaLoop .u8 byteEntry 255).encode [(3, 7), (4, 9)] =
      .ok [3, 0, 7, 4, 0, 9, 255] ∧
    Reads (metaLoop .u8 byteEntry 255).decode [3, 0, 7, 4, 0, 9, 255] [(3, 7), (4, 9)] := by
  have lawful : ∀ v, RoundTrips (byteEntry v) := fun _ => fixed_roundTrips _
  have written : (metaLoop .u8 byteEntry 255).encode [(3, 7), (4, 9)] = .ok [3, 0, 7, 4, 0, 9, 255] := by decide
  have plain : ∀ item ∈ [((3 : UInt8), (7 : UInt16)), (4, 9)], FirstType.u8.asU8 item.1 ≠ 255 :=
    forall_mem_cons.mpr ⟨by decide, forall_mem_singleton.mpr (by decide)⟩
  exact ⟨lawful, written, ((delimited_lists_read_back_iff _ .u8 byteEntry lawful _).1 255 _ written).mpr plain⟩

/-- An entry with key 255 hides the rest of the list, and an empty list of equipment cannot be read. -/
theorem hidden_entry_and_empty_list : (∀ v, RoundTrips (byteEntry v)) ∧
    (metaLoop .u8 byteEntry 255).encode [(255, 0)] = .ok [255, 0, 0, 255] ∧
    (metaLoop .u8 byteEntry 255).decode.run [255, 0, 0, 255] = .ok ([], [0, 0, 255]) ∧
    (topbitLoop .u8 byteEntry "").encode [] = .ok [] ∧
    (topbitLoop .u8 byteEntry "").decode.run [] = .error (.bufferUnderflow 1 0) :=
  ⟨fun _ => fixed_roundTrips _, by decide, by decide, by decide, by decide⟩

end MineRider.Soundness.Loops
