import Mathlib.Data.List.TakeWhile
import MineRider.Model.Protocol.Codecs
import MineRider.Soundness.NbtCodec

/-! # Strings, containers and holders are read back

A codec round-trips when it reads back whatever it encodes, in front of any suffix. The containers keep that
property as long as their element count fits the prefix. Two places lose it: the number written for a holder is one
above the id or the count, and a normalised identifier is longer than the text that was read.
-/

namespace MineRider.Soundness.Codecs

open List Model.Protocol Machine.Reader Machine.Words NbtCodec FixedInt
open Model.Protocol.Nbt (stringBytes)

variable {α : Type}

section Strings

theorem stringBytes_eq (s : String) : stringBytes s = s.toList.flatMap String.utf8EncodeChar := by
  rw [stringBytes, ← String.utf8Encode_toList, List.utf8Encode]
  simp

private theorem stringBytes_length_le (s : String) : (stringBytes s).length ≤ 4 * s.length := by
  rw [stringBytes_eq, ← String.length_toList]
  induction s.toList with
  | nil => exact le_refl 0
  | cons c rest ih =>
    have size : (String.utf8EncodeChar c).length ≤ 4 := by
      rw [String.length_utf8EncodeChar]
      exact c.utf8Size_le_four
    rw [flatMap_cons, length_append, length_cons]
    omega

variable {s : String}

theorem putString_ok_iff {bytes : Bytes} : putString s = .ok bytes ↔
    s.length ≤ maxStringChars ∧ bytes = writeVarint (Int32.ofNat (stringBytes s).length) ++ stringBytes s := by
  rw [putString]
  split_ifs with long
  · exact iff_of_false (by simp) (fun fits => absurd fits.1 (not_le.mpr long))
  · rw [Except.ok.injEq]
    exact ⟨fun same => ⟨not_lt.mp long, same.symm⟩, fun fits => fits.2.symm⟩

theorem putString_encodes (s : String) : (∃ bytes, putString s = .ok bytes) ↔ s.length ≤ 32767 := by
  constructor
  · rintro ⟨bytes, written⟩
    exact (putString_ok_iff.mp written).1
  · intro short
    exact ⟨_, putString_ok_iff.mpr ⟨short, rfl⟩⟩

theorem readString_reads {bytes : Bytes} (written : putString s = .ok bytes) :
    Reads readString bytes s := by
  obtain ⟨short, rfl⟩ := putString_ok_iff.mp written
  have size : (stringBytes s).length ≤ maxStringChars * 4 := by
    have := stringBytes_length_le s
    omega
  have bound : (stringBytes s).length < 2 ^ 31 := lt_of_le_of_lt size (by decide)
  obtain ⟨notNegative, value⟩ := length_as_i32 bound
  have inside : 0 ≤ Int32.ofNat (stringBytes s).length ∧
      Int32.ofNat (stringBytes s).length ≤ Int32.ofNat (maxStringChars * 4) := by
    refine ⟨Int32.not_lt.mp notNegative, ?_⟩
    rw [Int32.le_iff_toInt_le, Int32.toInt_ofNat_of_lt bound, Int32.toInt_ofNat_of_lt (by decide)]
    exact_mod_cast size
  intro suffix
  have text := PacketReader.readBytes_reads (stringBytes s) suffix
  rw [readString, append_assoc, run_bind_of_ok (readVarint_reads _ _), if_neg (not_not.mpr inside), value,
    run_bind_of_ok text, fromUTF8_stringBytes]
  simp only [if_neg (not_lt.mpr short), run_pure]

private theorem readString_short {input rest : Bytes} (success : readString.run input = .ok (s, rest)) :
    s.length ≤ maxStringChars := by
  obtain ⟨len, middle, -, afterLen⟩ := run_bind_eq_ok.mp success
  split_ifs at afterLen with inside
  · obtain ⟨bytes, last, -, afterBytes⟩ := run_bind_eq_ok.mp afterLen
    split at afterBytes
    · cases afterBytes
    · split_ifs at afterBytes with long
      · cases afterBytes
      · cases afterBytes
        exact not_lt.mp long
  · cases afterLen

end Strings

section Containers

/-- Whatever the codec encodes, it reads back. -/
def RoundTrips (c : Codec α) : Prop := ∀ a bytes, c.encode a = .ok bytes → Reads c.decode bytes a

def WritesSome (c : Codec α) : Prop := ∀ a, c.encode a ≠ .ok []

/-- A value is encoded exactly if it is `encodable`, and then it is read back. -/
structure ReadBack (encode : Except ProtocolError Bytes) (decode : PacketReader α) (a : α) (encodable : Prop) :
    Prop where
  encodes : (∃ bytes, encode = .ok bytes) ↔ encodable
  reads : ∀ bytes, encode = .ok bytes → Reads decode bytes a

theorem fixed_roundTrips (kind : FixedInt α) : RoundTrips (.fixed kind) := by
  intro v bytes written
  cases written
  exact kind.get_reads v

theorem getBool_reads (b : Bool) : Reads getBool (putBool b) b := by
  cases b with
  | true => exact (u8.get_reads 1).map (fun byte => decide (byte ≠ 0))
  | false => exact (u8.get_reads 0).map (fun byte => decide (byte ≠ 0))

variable {c : Codec α}

private theorem encodeAll_encodes (items : List α) :
    (∃ bytes, c.encodeAll items = .ok bytes) ↔ ∀ a ∈ items, ∃ bytes, c.encode a = .ok bytes := by
  induction items with
  | nil => exact iff_of_true ⟨[], rfl⟩ (by simp)
  | cons a rest ih =>
    rw [forall_mem_cons, ← ih]
    constructor
    · rintro ⟨bytes, written⟩
      obtain ⟨first, head, after⟩ := write_bind_eq_ok written
      obtain ⟨later, tail, -⟩ := write_bind_eq_ok after
      exact ⟨⟨first, head⟩, later, tail⟩
    · rintro ⟨⟨first, head⟩, later, tail⟩
      exact ⟨first ++ later, by rw [Codec.encodeAll, head, tail]; rfl⟩

variable {items : List α} {bytes : Bytes}

private theorem encodeAll_reads (lawful : RoundTrips c)
    (written : c.encodeAll items = .ok bytes) : Reads (times c.decode items.length) bytes items := by
  induction items generalizing bytes with
  | nil =>
    cases written
    exact .pure []
  | cons a rest ih =>
    obtain ⟨first, head, after⟩ := write_bind_eq_ok written
    obtain ⟨later, tail, done⟩ := write_bind_eq_ok after
    cases done
    exact (lawful a first head).bind ((ih tail).map (a :: ·))

theorem length_le_encodeAll (nonempty : WritesSome c)
    (written : c.encodeAll items = .ok bytes) : items.length ≤ bytes.length := by
  induction items generalizing bytes with
  | nil => exact Nat.zero_le _
  | cons a rest ih =>
    obtain ⟨first, head, after⟩ := write_bind_eq_ok written
    obtain ⟨later, tail, done⟩ := write_bind_eq_ok after
    cases done
    have some_ : 0 < first.length := by
      rw [length_pos_iff]
      rintro rfl
      exact nonempty a head
    have others := ih tail
    rw [length_cons, length_append]
    omega

private theorem readCount_reads {p : PacketReader α}
    (reads : Reads (times p items.length) bytes items) (enough : items.length ≤ bytes.length) :
    Reads (readCount p items.length) bytes items := by
  intro suffix
  have room : ¬ items.length > (bytes ++ suffix).length := by
    rw [length_append]
    omega
  rw [readCount, run_bind_of_ok (PacketReader.remaining_run _), if_neg room, reads suffix]

private theorem vec_readBack (lawful : RoundTrips c) (nonempty : WritesSome c) (few : items.length < 2 ^ 31 - 1) :
    ReadBack (c.vec.encode items) c.vec.decode items (∀ a ∈ items, ∃ bytes, c.encode a = .ok bytes) where
  encodes := by
    rw [← encodeAll_encodes]
    constructor
    · rintro ⟨bytes, written⟩
      obtain ⟨body, all, -⟩ := write_bind_eq_ok written
      exact ⟨body, all⟩
    · rintro ⟨body, all⟩
      exact ⟨writeVarint (Int32.ofNat items.length) ++ body, by simp only [Codec.vec, all]; rfl⟩
  reads bytes written := by
    obtain ⟨body, all, done⟩ := write_bind_eq_ok written
    cases done
    obtain ⟨notNegative, value⟩ := length_as_i32 (show items.length < 2 ^ 31 by omega)
    have elements := readCount_reads (encodeAll_reads lawful all) (length_le_encodeAll nonempty all)
    refine (readVarint_reads _).bind ?_
    rw [if_neg notNegative, value]
    exact elements

private theorem option_readBack (lawful : RoundTrips c) (v : Option α) :
    ReadBack (c.option.encode v) c.option.decode v (∀ a ∈ v, ∃ bytes, c.encode a = .ok bytes) where
  encodes := by
    cases v with
    | none => exact iff_of_true ⟨putBool false, rfl⟩ (by simp)
    | some a =>
      constructor
      · rintro ⟨bytes, written⟩ b same
        cases same
        obtain ⟨body, inner, -⟩ := write_bind_eq_ok written
        exact ⟨body, inner⟩
      · intro inner
        obtain ⟨body, written⟩ := inner a rfl
        exact ⟨putBool true ++ body, by simp only [Codec.option, written]; rfl⟩
  reads bytes written := by
    cases v with
    | none =>
      cases written
      exact (getBool_reads false).map fun _ => none
    | some a =>
      obtain ⟨body, inner, done⟩ := write_bind_eq_ok written
      cases done
      exact (getBool_reads true).bind ((lawful a body inner).map some)

private theorem box_readBack (lawful : RoundTrips c) (a : α) :
    ReadBack (c.box.encode a) c.box.decode a (∃ bytes, c.encode a = .ok bytes) where
  encodes := Iff.rfl
  reads := lawful a

end Containers

section Holders

/-- An encoder that does not overflow, and whose bytes are read back. -/
def Safe (encode : Option (Except ProtocolError Bytes)) (decode : PacketReader α) (a : α) : Prop :=
  encode.isSome ∧ ∀ bytes, encode = some (.ok bytes) → Reads decode bytes a

private theorem pred_toInt {w : Int32} (notNegative : ¬ w < 0) : (w - 1).toInt = w.toInt - 1 := by
  rw [Int32.lt_iff_toInt_lt, Int32.toInt_zero] at notNegative
  have high := w.toInt_lt
  rw [Int32.toInt_sub, show (1 : Int32).toInt = 1 from rfl]
  exact Int.bmod_eq_of_le (by omega) (by omega)

/-- The number on the wire is positive, and one less than it is the number meant. -/
theorem successor {n w : Int32} (notNegative : ¬ n < 0) (above : w.toInt = n.toInt + 1) :
    ¬ w < 0 ∧ w ≠ 0 ∧ w - 1 = n := by
  rw [Int32.lt_iff_toInt_lt, Int32.toInt_zero] at notNegative
  have positive : ¬ w < 0 := by
    rw [Int32.lt_iff_toInt_lt, Int32.toInt_zero]
    omega
  have nonzero : w ≠ 0 := by
    rintro rfl
    rw [Int32.toInt_zero] at above
    omega
  refine ⟨positive, nonzero, Int32.toInt_inj.mp ?_⟩
  rw [pred_toInt positive]
  omega

theorem holder_safe_iff {c : Codec α} (lawful : RoundTrips c) (v : Holder α) :
    Safe (v.encode c) (Holder.decode c) v ↔ v ≠ .reference Int32.maxValue := by
  cases v with
  | inline value =>
    refine iff_of_true ⟨rfl, ?_⟩ (by simp)
    intro bytes written
    obtain ⟨body, inner, done⟩ := write_bind_eq_ok (Option.some_inj.mp written)
    cases done
    exact (readVarint_reads 0).bind ((lawful value body inner).map Holder.inline)
  | reference id =>
    rw [Safe, Holder.encode, Ne, Holder.reference.injEq]
    split_ifs with negative
    · refine iff_of_true ⟨rfl, by simp⟩ ?_
      rintro rfl
      exact absurd negative (by decide)
    · rw [Option.isSome_map, checked_isSome]
      constructor
      · rintro ⟨⟨-, fits⟩, -⟩ rfl
        exact absurd fits (by decide)
      · intro small
        have low := id.le_toInt
        have high := id.toInt_lt
        have below : id.toInt ≠ 2 ^ 31 - 1 := fun top => small (Int32.toInt_inj.mp top)
        refine ⟨⟨by omega, by omega⟩, ?_⟩
        intro bytes written
        obtain ⟨n, shifted, same⟩ := Option.map_eq_some_iff.mp written
        cases same
        obtain ⟨positive, nonzero, back⟩ := successor negative (checked_eq_some_iff.mp shifted)
        intro suffix
        rw [Holder.decode, run_bind_of_ok (readVarint_reads n suffix), if_neg positive, if_neg nonzero, back,
          run_pure]

private theorem length_le_varints (ids : List Int32) : ids.length ≤ (ids.flatMap writeVarint).length := by
  induction ids with
  | nil => exact le_refl 0
  | cons id rest ih =>
    have := length_pos_iff.mpr (writeVarint_ne_nil id)
    rw [flatMap_cons, length_append, length_cons]
    omega

private theorem tag_readBack (name : String) : ∃ encode, HolderSet.encode (.tag name) = some encode ∧
    ReadBack encode HolderSet.decode (.tag name) (name.length ≤ 32767) := by
  refine ⟨_, rfl, ⟨?_, ?_⟩⟩
  · rw [← putString_encodes]
    constructor
    · rintro ⟨bytes, written⟩
      obtain ⟨body, inner, -⟩ := write_bind_eq_ok written
      exact ⟨body, inner⟩
    · rintro ⟨body, inner⟩
      exact ⟨writeVarint 0 ++ body, by rw [inner]; rfl⟩
  · intro bytes written
    obtain ⟨body, inner, done⟩ := write_bind_eq_ok written
    cases done
    exact (readVarint_reads 0).bind ((readString_reads inner).map HolderSet.tag)

private theorem ids_reads {ids : List Int32} (few : ids.length < 2 ^ 31 - 1) :
    ∃ bytes, HolderSet.encode (.ids ids) = some (.ok bytes) ∧ Reads HolderSet.decode bytes (.ids ids) := by
  obtain ⟨notNegative, value⟩ := length_as_i32 (show ids.length < 2 ^ 31 by omega)
  have count : (Int32.ofNat ids.length).toInt = ids.length := Int32.toInt_ofNat_of_lt (by omega)
  obtain ⟨n, shifted⟩ := Option.isSome_iff_exists.mp
    (checked_isSome.mpr (show _ ≤ (Int32.ofNat ids.length).toInt + 1 ∧ _ < _ by omega))
  obtain ⟨positive, nonzero, back⟩ := successor notNegative (checked_eq_some_iff.mp shifted)
  refine ⟨writeVarint n ++ ids.flatMap writeVarint, by rw [HolderSet.encode, shifted]; rfl, ?_⟩
  refine (readVarint_reads n).bind ?_
  rw [if_neg positive, if_neg nonzero, back, value]
  have elements := Reads.times ids fun id _ => readVarint_reads id
  exact (readCount_reads elements (length_le_varints ids)).map HolderSet.ids

private theorem times_length {p : PacketReader α} {count : ℕ} {input rest : Bytes} {items : List α}
    (success : (times p count).run input = .ok (items, rest)) : items.length = count := by
  induction count generalizing input items with
  | zero =>
    cases success
    rfl
  | succ count ih =>
    obtain ⟨a, middle, -, after⟩ := run_bind_eq_ok.mp success
    obtain ⟨later, last, tail, done⟩ := run_bind_eq_ok.mp after
    cases done
    rw [length_cons, ih tail]

/-- A list of ids that is read never has the largest length. -/
theorem decoded_ids_few {input rest : Bytes} {ids : List Int32}
    (success : HolderSet.decode.run input = .ok (.ids ids, rest)) : ids.length < 2 ^ 31 - 1 := by
  obtain ⟨n, middle, -, after⟩ := run_bind_eq_ok.mp success
  split_ifs at after with negative zero
  · cases after
  · obtain ⟨name, -, wrong⟩ := run_map_eq_ok after
    cases wrong
  · obtain ⟨list, read, same⟩ := run_map_eq_ok after
    cases same
    obtain ⟨remaining, unread, -, body⟩ := run_bind_eq_ok.mp read
    split_ifs at body with short
    · cases body
    · have high := n.toInt_lt
      rw [times_length body, ← Int32.toNat_toInt, pred_toInt negative]
      omega

theorem holderSet_safe_iff (v : HolderSet) :
    Safe v.encode HolderSet.decode v ↔ ∀ ids, v = .ids ids → ids.length < 2 ^ 31 - 1 := by
  cases v with
  | tag name =>
    obtain ⟨encode, written, back⟩ := tag_readBack name
    refine iff_of_true ⟨by rw [written]; rfl, ?_⟩ (by simp)
    intro bytes done
    rw [written] at done
    exact back.reads bytes (Option.some_inj.mp done)
  | ids list =>
    constructor
    · rintro ⟨whole, reads⟩ ids same
      cases same
      obtain ⟨result, written⟩ := Option.isSome_iff_exists.mp whole
      obtain ⟨n, shifted, same⟩ := Option.map_eq_some_iff.mp written
      cases same
      exact decoded_ids_few (reads _ written [])
    · intro few
      obtain ⟨bytes, written, back⟩ := ids_reads (few list rfl)
      refine ⟨by rw [written]; rfl, ?_⟩
      intro other same
      rw [written] at same
      cases same
      exact back

/-- The number of elements a value of the type holds. -/
def elementCount : HolderSet → ℕ
  | .tag _ => 0
  | .ids ids => ids.length

def Encodable : HolderSet → Prop
  | .tag name => name.length ≤ 32767
  | .ids _ => True

private theorem holderSet_readBack (v : HolderSet) (few : elementCount v < 2 ^ 31 - 1) :
    ∃ encode, v.encode = some encode ∧ ReadBack encode HolderSet.decode v (Encodable v) := by
  cases v with
  | tag name => exact tag_readBack name
  | ids list =>
    obtain ⟨bytes, written, back⟩ := ids_reads few
    refine ⟨_, written, ⟨iff_of_true ⟨bytes, rfl⟩ trivial, ?_⟩⟩
    intro other same
    cases same
    exact back

/-- Strings of at most 32767 characters, and only they, are written, and read back; each container over a codec that
round-trips, and writes at least a byte for an element, encodes what its elements allow and reads it back. -/
theorem strings_and_containers_read_back :
    (∀ s, ReadBack (putString s) readString s (s.length ≤ 32767)) ∧
    (∀ (α : Type) (c : Codec α), RoundTrips c → WritesSome c →
      (∀ items : List α, items.length < 2 ^ 31 - 1 →
        ReadBack (c.vec.encode items) c.vec.decode items (∀ a ∈ items, ∃ bytes, c.encode a = .ok bytes)) ∧
      (∀ v : Option α, ReadBack (c.option.encode v) c.option.decode v (∀ a ∈ v, ∃ bytes, c.encode a = .ok bytes)) ∧
      ∀ a, ReadBack (c.box.encode a) c.box.decode a (∃ bytes, c.encode a = .ok bytes)) ∧
    ∀ v : HolderSet, elementCount v < 2 ^ 31 - 1 →
      ∃ encode, v.encode = some encode ∧ ReadBack encode HolderSet.decode v (Encodable v) := by
  refine ⟨?_, ?_, holderSet_readBack⟩
  · intro s
    exact ⟨putString_encodes s, fun bytes written => readString_reads written⟩
  · intro α c lawful nonempty
    exact ⟨fun items few => vec_readBack lawful nonempty few, option_readBack lawful, box_readBack lawful⟩

theorem bytes_read_back : RoundTrips (.fixed .u8) ∧ WritesSome (.fixed .u8) ∧
    ReadBack ((Codec.fixed .u8).vec.encode [7, 8]) (Codec.fixed .u8).vec.decode [7, 8]
      (∀ a ∈ [7, 8], ∃ bytes, (Codec.fixed .u8).encode a = .ok bytes) := by
  have lawful := fixed_roundTrips u8
  have nonempty : WritesSome (.fixed .u8) := by
    intro byte written
    have bytes := Except.ok.inj written
    rw [u8_put] at bytes
    cases bytes
  exact ⟨lawful, nonempty, (strings_and_containers_read_back.2.1 UInt8 _ lawful nonempty).1 [7, 8] (by decide)⟩

/-- A holder is encoded without overflow and read back unless it refers to the largest id; a holder set, unless the
list of its ids is as long as the largest number. -/
theorem holders_safe_iff (set : HolderSet) :
    (∀ (α : Type) (c : Codec α), RoundTrips c → ∀ v : Holder α,
      Safe (v.encode c) (Holder.decode c) v ↔ v ≠ .reference Int32.maxValue) ∧
    (Safe set.encode HolderSet.decode set ↔ elementCount set < 2 ^ 31 - 1) := by
  refine ⟨fun α c lawful => holder_safe_iff lawful, ?_⟩
  rw [holderSet_safe_iff]
  cases set with
  | tag name => exact iff_of_true (by simp) (by decide : 0 < 2 ^ 31 - 1)
  | ids list => exact ⟨fun few => few list rfl, fun few ids same => by cases same; exact few⟩

theorem largest_reference_overflows : RoundTrips (.fixed .u8) ∧
    ¬ Safe (Holder.encode (.fixed .u8) (.reference 2147483647)) (Holder.decode (.fixed .u8))
      (.reference 2147483647) := by
  refine ⟨fixed_roundTrips _, ?_⟩
  rintro ⟨whole, -⟩
  exact absurd whole (by decide)

end Holders

section Identifiers

variable {s : String}

private theorem colon_byte_mem (colon : ':' ∈ s.toList) : 58 ∈ stringBytes s := by
  rw [stringBytes_eq, mem_flatMap]
  exact ⟨':', colon, by decide⟩

/-- The checks leave no room for a second colon. -/
theorem validateIdentifier_ok {ns path : String} (valid : validateIdentifier ns path = .ok ()) :
    ':' ∉ ns.toList := by
  rw [validateIdentifier] at valid
  split_ifs at valid with badNamespace badPath
  · intro colon
    rw [isValidNamespace, Bool.and_eq_true, all_eq_true] at badNamespace
    exact absurd (badNamespace.2 _ (colon_byte_mem colon)) (by decide)

private theorem splitOnce_join {ns : String} (plain : ':' ∉ ns.toList) (path : String) :
    splitOnce (ns ++ ":" ++ path) = some (ns, path) := by
  have before : ∀ c ∈ ns.toList, (c != ':') = true := by
    intro c member
    rw [bne_iff_ne]
    rintro rfl
    exact plain member
  have text : (ns ++ ":" ++ path).toList = ns.toList ++ ':' :: path.toList := by simp
  rw [splitOnce, text, dropWhile_append_of_pos before, takeWhile_append_of_pos before]
  simp

private theorem splitOnce_none (plain : ':' ∉ s.toList) : splitOnce s = none := by
  have all : s.toList.dropWhile (· != ':') = [] := by
    rw [dropWhile_eq_nil_iff]
    intro c member
    rw [bne_iff_ne]
    rintro rfl
    exact plain member
  rw [splitOnce, all]

private theorem splitOnce_some (colon : ':' ∈ s.toList) :
    ∃ ns path, splitOnce s = some (ns, path) ∧ ns ++ ":" ++ path = s := by
  obtain ⟨before, after, text, plain⟩ := eq_append_cons_of_mem colon
  have whole : String.ofList before ++ ":" ++ String.ofList after = s := by
    apply String.toList_inj.mp
    rw [text]
    simp
  have split := @splitOnce_join (String.ofList before) (by rwa [String.toList_ofList]) (String.ofList after)
  rw [whole] at split
  exact ⟨_, _, split, whole⟩

/-- The identifier is written by its two parts, and read back as it is. -/
def Rewritable (id : String) : Prop :=
  ∃ ns path bytes, splitOnce id = some (ns, path) ∧ putIdentifier ns path = .ok bytes ∧ Reads readIdentifier bytes id

theorem readIdentifier_run {input rest : Bytes} {raw ns path : String} (text : readString.run input = .ok (raw, rest))
    (parts : (splitOnce raw).getD ("minecraft", raw) = (ns, path)) :
    readIdentifier.run input = (validateIdentifier ns path).map fun _ => (ns ++ ":" ++ path, rest) := by
  rw [readIdentifier, run_bind_of_ok text]
  simp only [parts]
  cases validateIdentifier ns path with
  | error e | ok _ => rfl

/-- A valid pair of parts is written and read back exactly if the text is not too long. -/
theorem rewritable_iff {ns path : String} (valid : validateIdentifier ns path = .ok ()) :
    Rewritable (ns ++ ":" ++ path) ↔ (ns ++ ":" ++ path).length ≤ 32767 := by
  have plain := validateIdentifier_ok valid
  have split := splitOnce_join plain path
  constructor
  · rintro ⟨first, second, bytes, parts, written, -⟩
    rw [split] at parts
    cases parts
    obtain ⟨-, -, inner⟩ := write_bind_eq_ok written
    exact (putString_encodes _).mp ⟨bytes, inner⟩
  · intro short
    obtain ⟨bytes, inner⟩ := (putString_encodes _).mpr short
    refine ⟨ns, path, bytes, split, by rw [putIdentifier, valid]; exact inner, ?_⟩
    intro suffix
    have parts : (splitOnce (ns ++ ":" ++ path)).getD ("minecraft", ns ++ ":" ++ path) = (ns, path) := by
      rw [split, Option.getD_some]
    rw [readIdentifier_run (readString_reads inner suffix) parts, valid]
    rfl

/-- An identifier that was read can be written and read back exactly if its text had a namespace, or leaves room for
the default one. -/
theorem read_identifier_rewritable_iff {input rest : Bytes} {id : String}
    (success : readIdentifier.run input = .ok (id, rest)) :
    ∃ raw, readString.run input = .ok (raw, rest) ∧ (Rewritable id ↔ ':' ∈ raw.toList ∨ raw.length ≤ 32757) := by
  obtain ⟨raw, middle, text, -⟩ := run_bind_eq_ok.mp success
  obtain ⟨ns, path, parts⟩ : ∃ ns path, (splitOnce raw).getD ("minecraft", raw) = (ns, path) := ⟨_, _, rfl⟩
  rw [readIdentifier_run text parts] at success
  cases valid : validateIdentifier ns path with
  | error e =>
    rw [valid] at success
    cases success
  | ok _ =>
    rw [valid] at success
    cases success
    refine ⟨raw, text, ?_⟩
    rw [rewritable_iff valid]
    by_cases colon : ':' ∈ raw.toList
    · obtain ⟨first, second, split, whole⟩ := splitOnce_some colon
      rw [split] at parts
      cases parts
      rw [whole]
      exact iff_of_true (readString_short text) (.inl colon)
    · rw [splitOnce_none colon] at parts
      cases parts
      have size : ("minecraft" ++ ":" ++ raw).length = raw.length + 10 := by
        rw [String.length_append]
        exact Nat.add_comm 10 raw.length
      constructor
      · intro short
        exact .inr (by omega)
      · rintro (bad | short)
        · exact absurd bad colon
        · omega

theorem short_identifier_rewritable :
    readIdentifier.run [5, 115, 116, 111, 110, 101] = .ok ("minecraft:stone", []) ∧
      ∃ raw, readString.run [5, 115, 116, 111, 110, 101] = .ok (raw, []) ∧
        (Rewritable "minecraft:stone" ↔ ':' ∈ raw.toList ∨ raw.length ≤ 32757) := by
  have success : readIdentifier.run [5, 115, 116, 111, 110, 101] = .ok ("minecraft:stone", []) := by decide +kernel
  exact ⟨success, read_identifier_rewritable_iff success⟩

/-- A path of the letter `a` alone. -/
def longPath (n : ℕ) : String := String.ofList (List.replicate n 'a')

private theorem longPath_bytes (n : ℕ) : stringBytes (longPath n) = List.replicate n 97 := by
  rw [stringBytes_eq, longPath, String.toList_ofList]
  induction n with
  | zero => rfl
  | succ n ih =>
    rw [replicate_succ, flatMap_cons, ih, replicate_succ]
    rfl

private theorem longPath_valid (n : ℕ) : validateIdentifier "minecraft" (longPath (n + 1)) = .ok () := by
  have named : isValidNamespace "minecraft" = true := by decide +kernel
  have nonempty : longPath (n + 1) ≠ "" := by
    intro empty
    have size := congrArg String.length empty
    simp [longPath] at size
  have valid : isValidPath (longPath (n + 1)) = true := by
    rw [isValidPath, longPath_bytes, Bool.and_eq_true, all_eq_true]
    refine ⟨decide_eq_true nonempty, ?_⟩
    intro b member
    rw [eq_of_mem_replicate member]
    rfl
  rw [validateIdentifier, if_neg (not_not.mpr named), if_neg (not_not.mpr valid)]

/-- A path of the largest length a string may have is read, and cannot be written again. -/
theorem long_path_not_rewritable : ∃ bytes, putString (longPath 32767) = .ok bytes ∧
    readIdentifier.run bytes = .ok ("minecraft" ++ ":" ++ longPath 32767, []) ∧
      ¬ Rewritable ("minecraft" ++ ":" ++ longPath 32767) := by
  have size : (longPath 32767).length = 32767 := by
    rw [longPath, String.length_ofList, length_replicate]
  have valid := longPath_valid 32766
  have plain : ':' ∉ (longPath 32767).toList := by
    rw [longPath, String.toList_ofList]
    intro colon
    exact absurd (eq_of_mem_replicate colon) (by decide)
  obtain ⟨bytes, written⟩ := (putString_encodes _).mpr size.le
  refine ⟨bytes, written, ?_, ?_⟩
  · have read := readString_reads written []
    rw [append_nil] at read
    have parts : (splitOnce (longPath 32767)).getD ("minecraft", longPath 32767) = ("minecraft", longPath 32767) := by
      rw [splitOnce_none plain, Option.getD_none]
    rw [readIdentifier_run read parts, valid]
    rfl
  · rw [rewritable_iff valid, String.length_append, size]
    decide

end Identifiers

end MineRider.Soundness.Codecs
