import MineRider.Model.Network.Socks5
import MineRider.Soundness.NbtCodec

/-! # What a SOCKS5 proxy can do

The proxy is not trusted. Whatever it sends, however its stream is cut and wherever it ends, the negotiation succeeds
just on the streams that begin with its part of the protocol, leaves everything behind that part for the Minecraft
connection, and says nothing too early: no credentials before the proxy has chosen to ask for them, no request
before it has accepted them. The request is one that a proxy decodes to the host and port it was made for.

Fields that do not fit their one-byte length are refused before anything is said.
-/

namespace MineRider.Soundness.Socks5

open List Model.Protocol Model.Network.Socks5 Machine.Duplex Dialogue PacketWriter FixedInt
open Model.Core (ProxySocks5Error Socks5Reply)
open Nbt (stringBytes)
open Machine (ofBe)

section Statement

/-- The bound address of a reply, with its length in front if it is a name. -/
inductive BoundAddress : UInt8 → Bytes → Prop where
  | ipv4 {address : Bytes} (length : address.length = 4) : BoundAddress atypIpv4 address
  | ipv6 {address : Bytes} (length : address.length = 16) : BoundAddress atypIpv6 address
  | domain {length : UInt8} {name : Bytes} (fits : name.length = length.toNat) :
    BoundAddress atypDomain (length :: name)

/-- A version-5 success reply, with its bound address and port. -/
def ConnectReply (bytes : Bytes) : Prop :=
  ∃ reserved addressType address port, BoundAddress addressType address ∧ port.length = 2 ∧
    bytes = [version, 0x00, reserved, addressType] ++ (address ++ port)

/-- The proxy's whole part of a negotiation that succeeds. -/
def Accepting (credentials : Option Socks5Credentials) (bytes : Bytes) : Prop :=
  ∃ reply, ConnectReply reply ∧ bytes = [version, offeredMethod credentials] ++
    ((if credentials.isSome then [userPassVersion, userPassSuccess] else []) ++ reply)

/-- Every field fits its one-byte length. -/
structure Fits (parse : String → Option IpAddr) (credentials : Option Socks5Credentials) (host : String) : Prop where
  username : ∀ given, credentials = some given → (stringBytes given.username).length ≤ maxFieldLen
  password : ∀ given, credentials = some given → (stringBytes given.password).length ≤ maxFieldLen
  host : parse host = none → (stringBytes host).length ≤ maxFieldLen

/-- The messages the client sends: one more with credentials. -/
def messages (credentials : Option Socks5Credentials) : ℕ := if credentials.isSome then 3 else 2

/-- Where a proxy is asked to connect to. -/
inductive Destination where
  | address (ip : IpAddr)
  | domain (name : String)

/-- What the host stands for. -/
def destination (parse : String → Option IpAddr) (host : String) : Destination :=
  match parse host with
  | some ip => .address ip
  | none => .domain host

/-- A name with its length in front, and the bytes after it. -/
def decodeName : Bytes → Option (Destination × Bytes)
  | length :: rest =>
    if length.toNat ≤ rest.length then
      (String.fromUTF8? ⟨(rest.take length.toNat).toArray⟩).map fun name => (.domain name, rest.drop length.toNat)
    else none
  | [] => none

/-- The address of a request and the bytes after it, as a proxy reads them. -/
def decodeAddress (addressType : UInt8) (bytes : Bytes) : Option (Destination × Bytes) :=
  if addressType = atypIpv4 then
    if 4 ≤ bytes.length then some (.address (.v4 fun i => bytes.getD i 0), bytes.drop 4) else none
  else if addressType = atypIpv6 then
    if 16 ≤ bytes.length then some (.address (.v6 fun i => bytes.getD i 0), bytes.drop 16) else none
  else if addressType = atypDomain then decodeName bytes
  else none

/-- A request, as a proxy reads it. -/
def decodeRequest : Bytes → Option (Destination × UInt16)
  | v :: command :: reserved :: addressType :: rest =>
    if v = version ∧ command = cmdConnect ∧ reserved = 0x00 then
      match decodeAddress addressType rest with
      | some (target, port) => if port.length = 2 then some (target, UInt16.ofNat (ofBe port)) else none
      | none => none
    else none
  | _ => none

/-- What may be said after what: the offer, the credentials once the proxy has chosen them, and the request once
they are accepted. -/
def Allowed (parse : String → Option IpAddr) (credentials : Option Socks5Credentials) (host : String) (port : UInt16)
    (before : List (Traffic UInt8 Phase)) : Traffic UInt8 Phase → Prop
  | .read _ _ => True
  | .wrote .methodNegotiation bytes => bytes = [version, 1, offeredMethod credentials]
  | .wrote .authentication bytes =>
    (∃ given, credentials = some given ∧ bytes = authRequest given) ∧
      .read .methodNegotiation [version, methodUserPass] ∈ before
  | .wrote .connectRequest bytes =>
    .read .methodNegotiation [version, offeredMethod credentials] ∈ before ∧
      (credentials.isSome = true → .read .authentication [userPassVersion, userPassSuccess] ∈ before) ∧
      ∃ target, decodeRequest bytes = some (target, port) ∧ target = destination parse host
  | .wrote .connectReply _ => False

end Statement

section Checks

variable {endpoint : String} {parse : String → Option IpAddr} {credentials : Option Socks5Credentials} {host : String}
  {port : UInt16}

private theorem eq_of_getD {bytes : Bytes} {a b : UInt8} (length : bytes.length = 2) (first : bytes.getD 0 0 = a)
    (second : bytes.getD 1 0 = b) : bytes = [a, b] := by
  obtain ⟨x, y, rfl⟩ := length_eq_two.mp length
  cases first
  cases second
  rfl

private theorem checkMethodReply_ok {offered : UInt8} {reply : Bytes} (length : reply.length = 2)
    (passed : checkMethodReply endpoint offered reply = .ok ()) : reply = [version, offered] := by
  unfold checkMethodReply at passed
  split_ifs at passed with wrong chosen
  exact eq_of_getD length (not_not.mp wrong) chosen

private theorem checkAuthReply_ok {reply : Bytes} (length : reply.length = 2)
    (passed : checkAuthReply endpoint reply = .ok ()) :
    reply = [userPassVersion, userPassSuccess] := by
  unfold checkAuthReply at passed
  split_ifs at passed with wrong rejected
  exact eq_of_getD length (not_not.mp wrong) (not_not.mp rejected)

private theorem exists_eq_of_length_four {bytes : Bytes} (length : bytes.length = 4) :
    ∃ a b c d, bytes = [a, b, c, d] := by
  obtain ⟨a, rest, rfl⟩ := exists_cons_of_length_eq_add_one length
  obtain ⟨b, c, d, rfl⟩ := length_eq_three.mp (Nat.succ.inj length)
  exact ⟨a, b, c, d, rfl⟩

private theorem checkReplyVersion_ok {header : Bytes} (passed : checkReplyVersion endpoint header = .ok ()) :
    header.getD 0 0 = version := by
  unfold checkReplyVersion at passed
  split_ifs at passed with wrong
  exact not_not.mp wrong

private theorem ite_ne_succeeded {c : Prop} [Decidable c] {a b : Socks5Reply} (first : a ≠ .succeeded)
    (second : b ≠ .succeeded) : (if c then a else b) ≠ .succeeded := by
  split_ifs
  · exact first
  · exact second

private theorem fromCode_eq_succeeded {code : UInt8} : fromCode code = .succeeded ↔ code = 0x00 := by
  refine ⟨Function.mtr fun nonzero => ?_, ?_⟩
  · rw [fromCode, if_neg nonzero]
    iterate 8 apply ite_ne_succeeded (by simp)
    simp
  · rintro rfl
    rfl

private theorem checkCredentials_eq_ok : checkCredentials credentials = .ok () ↔
    ∀ given, credentials = some given →
      (stringBytes given.username).length ≤ maxFieldLen ∧ (stringBytes given.password).length ≤ maxFieldLen := by
  cases credentials with
  | none => simp [checkCredentials]
  | some given =>
    simp only [checkCredentials, Option.some.injEq, forall_eq']
    split_ifs with long alsoLong
    · simp only [false_iff]
      exact fun fit => absurd long (not_lt.mpr fit.1)
    · simp only [false_iff]
      exact fun fit => absurd alsoLong (not_lt.mpr fit.2)
    · exact iff_of_true rfl ⟨not_lt.mp long, not_lt.mp alsoLong⟩

/-- A target is encoded if it fits. -/
theorem encodeTarget_ok (fits : parse host = none → (stringBytes host).length ≤ maxFieldLen) :
    ∃ target, encodeTarget parse host = .ok target := by
  unfold encodeTarget
  split
  · exact ⟨_, rfl⟩
  · exact ⟨_, rfl⟩
  · rename_i name
    exact ⟨_, if_neg (not_lt.mpr (fits name))⟩

private theorem fits_of_encodeTarget {target : Bytes} (encoded : encodeTarget parse host = .ok target) :
    parse host = none → (stringBytes host).length ≤ maxFieldLen := by
  intro name
  simp only [encodeTarget, name] at encoded
  split_ifs at encoded with long
  exact not_lt.mp long

private theorem checkReplyCode_ok {header : Bytes} (passed : checkReplyCode endpoint host port header = .ok ()) :
    header.getD 1 0 = 0x00 := by
  unfold checkReplyCode at passed
  split_ifs at passed with refused
  exact fromCode_eq_succeeded.mp (not_not.mp refused)

end Checks

section Request

variable {parse : String → Option IpAddr} {host : String}

theorem getD_ofFn_append {n : ℕ} (octets : Fin n → UInt8) (rest : Bytes) :
    (fun i : Fin n => (List.ofFn octets ++ rest).getD i 0) = octets := by
  funext i
  simp [getD_eq_getElem?_getD, getElem?_append_left]

private theorem decodeAddress_ipv4 (octets : Fin 4 → UInt8) (rest : Bytes) :
    decodeAddress atypIpv4 (List.ofFn octets ++ rest) = some (.address (.v4 octets), rest) := by
  rw [decodeAddress, if_pos rfl, if_pos (by simp), getD_ofFn_append, drop_left' (by simp)]

private theorem decodeAddress_ipv6 (octets : Fin 16 → UInt8) (rest : Bytes) :
    decodeAddress atypIpv6 (List.ofFn octets ++ rest) = some (.address (.v6 octets), rest) := by
  rw [decodeAddress, if_neg (by decide), if_pos rfl, if_pos (by simp), getD_ofFn_append, drop_left' (by simp)]

private theorem decodeAddress_domain (name : String) (rest : Bytes) (fits : (stringBytes name).length ≤ maxFieldLen) :
    decodeAddress atypDomain (UInt8.ofNat (stringBytes name).length :: (stringBytes name ++ rest)) =
      some (.domain name, rest) := by
  have length : (UInt8.ofNat (stringBytes name).length).toNat = (stringBytes name).length :=
    UInt8.toNat_ofNat_of_lt' (by simp only [maxFieldLen, UInt8.size] at *; omega)
  rw [decodeAddress, if_neg (by decide), if_neg (by decide), if_pos rfl, decodeName]
  simp only [length, length_append, Nat.le_add_right, if_true, take_left', drop_left',
    NbtCodec.fromUTF8_stringBytes, Option.map_some]

private theorem decodeRequest_of_address {target : Bytes} {addressType : UInt8} {goal : Destination} (port : UInt16)
    (address : ∀ rest, decodeAddress addressType (target ++ rest) = some (goal, rest)) :
    decodeRequest (connectRequest (addressType :: target) port) = some (goal, port) := by
  have width : (putU16 port).length = 2 := u16.put_length port
  have value : UInt16.ofNat (ofBe (putU16 port)) = port := by
    rw [putU16, put, Machine.ofBe_toBe_of_lt (u16.toNat_lt port)]
    exact u16.ofNat_toNat port
  change decodeRequest (version :: cmdConnect :: 0x00 :: addressType :: (target ++ putU16 port)) = _
  rw [decodeRequest, if_pos ⟨rfl, rfl, rfl⟩, address]
  simp only [width, if_true, value]

/-- The request decodes to the host and port it was made for. -/
theorem decodeRequest_connectRequest {target : Bytes} (encoded : encodeTarget parse host = .ok target) (port : UInt16) :
    decodeRequest (connectRequest target port) = some (destination parse host, port) := by
  have fits := fits_of_encodeTarget encoded
  unfold encodeTarget at encoded
  unfold destination
  cases parsed : parse host with
  | some ip =>
    rw [parsed] at encoded
    cases ip with
    | v4 octets =>
      cases encoded
      exact decodeRequest_of_address port (decodeAddress_ipv4 octets)
    | v6 octets =>
      cases encoded
      exact decodeRequest_of_address port (decodeAddress_ipv6 octets)
  | none =>
    rw [parsed] at encoded
    simp only [if_neg (not_lt.mpr (fits parsed))] at encoded
    cases encoded
    exact decodeRequest_of_address port fun rest => decodeAddress_domain host rest (fits parsed)

end Request

section Forward

variable (endpoint : String) {parse : String → Option IpAddr} {credentials : Option Socks5Credentials} {host : String}
  {port : UInt16}

theorem reads_liftExcept {α : Type} {result : Except ProxySocks5Error α} {a : α} (ok : result = .ok a) :
    Reads (liftExcept result) [] 0 a := by
  rw [ok]
  exact Reads.pure a

private theorem reads_authenticate (given : Socks5Credentials) :
    Reads (authenticate endpoint given) [userPassVersion, userPassSuccess] 1 () := by
  have reply : Reads (readExact endpoint .authentication 2) [userPassVersion, userPassSuccess] 0 _ :=
    reads_readExact _ _ rfl
  unfold authenticate
  exact (reads_writeAll _ _ _).bind (reply.bind (reads_liftExcept rfl) rfl rfl) rfl rfl

private theorem reads_boundAddrLen {addressType : UInt8} {address : Bytes} (bound : BoundAddress addressType address) :
    ∃ first last, address = first ++ last ∧ Reads (boundAddrLen endpoint addressType) first 0 last.length := by
  cases bound with
  | ipv4 length =>
    refine ⟨[], address, rfl, ?_⟩
    rw [length]
    exact Reads.pure 4
  | ipv6 length =>
    refine ⟨[], address, rfl, ?_⟩
    rw [length]
    exact Reads.pure 16
  | @domain length name fits =>
    have one : Reads (readExact endpoint .connectReply 1) [length] 0 [length] := reads_readExact _ _ rfl
    refine ⟨[length], name, rfl, ?_⟩
    rw [fits]
    exact one.bind (Reads.pure _) rfl rfl

private theorem reads_readConnectReply {reply : Bytes} (well : ConnectReply reply) :
    Reads (readConnectReply endpoint host port) reply 0 () := by
  obtain ⟨reserved, addressType, address, bound, known, width, rfl⟩ := well
  obtain ⟨first, last, rfl, length⟩ := reads_boundAddrLen endpoint known
  have header : Reads (readExact endpoint .connectReply 4) [version, 0x00, reserved, addressType] 0 _ :=
    reads_readExact _ _ rfl
  have body : Reads (readExact endpoint .connectReply (last.length + 2)) (last ++ bound) 0 (last ++ bound) :=
    reads_readExact _ _ (by rw [length_append, width])
  rw [append_assoc]
  unfold readConnectReply
  refine header.bind (j := 0) ?_ rfl rfl
  refine (reads_liftExcept rfl).bind (j := 0) ?_ rfl rfl
  refine length.bind (j := 0) ?_ rfl rfl
  exact body.bind (reads_liftExcept rfl) (append_nil _).symm rfl

/-- With fields that fit, every accepting stream is accepted. -/
theorem reads_negotiate (fits : Fits parse credentials host) {bytes : Bytes} (accepting : Accepting credentials bytes) :
    Reads (negotiate endpoint parse credentials host port) bytes (messages credentials) () := by
  obtain ⟨reply, well, rfl⟩ := accepting
  obtain ⟨target, encoded⟩ := encodeTarget_ok fits.host
  have checked : checkCredentials credentials = .ok () :=
    checkCredentials_eq_ok.mpr fun given same => ⟨fits.username given same, fits.password given same⟩
  have choice : Reads (readExact endpoint .methodNegotiation 2) [version, offeredMethod credentials] 0 _ :=
    reads_readExact _ _ rfl
  have chosen :
      checkMethodReply endpoint (offeredMethod credentials) [version, offeredMethod credentials] = .ok () := by
    simp [checkMethodReply]
  have asked : Reads (do
      writeAll endpoint .connectRequest (connectRequest target port)
      readConnectReply endpoint host port) reply 1 () :=
    (reads_writeAll _ _ _).bind (reads_readConnectReply endpoint well) rfl rfl
  unfold negotiate
  refine (reads_liftExcept checked).bind ?_ rfl (Nat.zero_add _).symm
  refine (reads_liftExcept encoded).bind ?_ rfl (Nat.zero_add _).symm
  cases credentials with
  | none =>
    refine (reads_writeAll _ _ _).bind (j := 1) ?_ rfl rfl
    refine choice.bind (j := 1) ?_ rfl rfl
    refine (reads_liftExcept chosen).bind (j := 1) ?_ rfl rfl
    exact asked
  | some given =>
    refine (reads_writeAll _ _ _).bind (j := 2) ?_ rfl rfl
    refine choice.bind (j := 2) ?_ rfl rfl
    refine (reads_liftExcept chosen).bind (j := 2) ?_ rfl rfl
    exact (reads_authenticate endpoint given).bind asked rfl rfl

end Forward

section Converse

variable (endpoint : String) {parse : String → Option IpAddr} {credentials : Option Socks5Credentials} {host : String}
  {port : UInt16}

theorem sound_liftExcept {α : Type} (result : Except ProxySocks5Error α) :
    Sound (liftExcept result) fun used writes a => used = [] ∧ writes = 0 ∧ result = .ok a := by
  cases result with
  | error error => exact Sound.fail error _
  | ok value =>
    refine (Sound.pure value).mono ?_
    rintro used writes a ⟨rfl, rfl, rfl⟩
    exact ⟨rfl, rfl, rfl⟩

private theorem sound_authenticate (given : Socks5Credentials) :
    Sound (authenticate endpoint given) fun used writes _ =>
      used = [userPassVersion, userPassSuccess] ∧ writes = 1 := by
  unfold authenticate
  refine (sound_writeAll _ _ _).bind ?_
  rintro _ _ _ ⟨rfl, rfl⟩
  refine (sound_readExact _ _ _).bind ?_
  rintro _ _ reply ⟨rfl, rfl, length⟩
  refine (sound_liftExcept _).mono ?_
  rintro _ _ _ ⟨rfl, rfl, passed⟩
  rw [checkAuthReply_ok length passed]
  exact ⟨rfl, rfl⟩

private theorem sound_boundAddrLen (addressType : UInt8) :
    Sound (boundAddrLen endpoint addressType) fun used writes length => writes = 0 ∧
      ∀ name : Bytes, name.length = length → BoundAddress addressType (used ++ name) := by
  unfold boundAddrLen
  split_ifs with ipv4 ipv6 domain
  · refine (Sound.pure 4).mono ?_
    rintro _ _ _ ⟨rfl, rfl, rfl⟩
    exact ⟨rfl, fun name length => ipv4 ▸ .ipv4 length⟩
  · refine (Sound.pure 16).mono ?_
    rintro _ _ _ ⟨rfl, rfl, rfl⟩
    exact ⟨rfl, fun name length => ipv6 ▸ .ipv6 length⟩
  · refine (sound_readExact _ _ _).bind ?_
    rintro _ _ first ⟨rfl, rfl, one⟩
    obtain ⟨size, rfl⟩ := length_eq_one_iff.mp one
    refine (Sound.pure _).mono ?_
    rintro _ _ _ ⟨rfl, rfl, rfl⟩
    exact ⟨rfl, fun name length => domain ▸ .domain length⟩
  · exact Sound.fail _ _

private theorem sound_readConnectReply :
    Sound (readConnectReply endpoint host port) fun used writes _ => ConnectReply used ∧ writes = 0 := by
  unfold readConnectReply
  refine (sound_readExact _ _ _).bind ?_
  rintro header _ _ ⟨rfl, rfl, four⟩
  obtain ⟨v, code, reserved, addressType, rfl⟩ := exists_eq_of_length_four four
  refine (sound_liftExcept _).bind ?_
  rintro _ _ _ ⟨rfl, rfl, versionOk⟩
  refine (sound_boundAddrLen endpoint _).bind ?_
  rintro first _ length ⟨rfl, bound⟩
  refine (sound_readExact _ _ _).bind ?_
  rintro body _ _ ⟨rfl, rfl, width⟩
  refine (sound_liftExcept _).mono ?_
  rintro _ _ _ ⟨rfl, rfl, codeOk⟩
  obtain rfl : v = version := checkReplyVersion_ok versionOk
  obtain rfl : code = 0x00 := checkReplyCode_ok codeOk
  refine ⟨⟨reserved, addressType, first ++ body.take length, body.drop length, bound _ ?_, ?_, ?_⟩, rfl⟩
  · rw [length_take, width]
    omega
  · rw [length_drop, width]
    omega
  · simp

private theorem sound_negotiate :
    Sound (negotiate endpoint parse credentials host port) fun used writes _ =>
      Fits parse credentials host ∧ Accepting credentials used ∧ writes = messages credentials := by
  unfold negotiate
  refine (sound_liftExcept _).bind ?_
  rintro _ _ _ ⟨rfl, rfl, checked⟩
  refine (sound_liftExcept _).bind ?_
  rintro _ _ target ⟨rfl, rfl, encoded⟩
  refine (sound_writeAll _ _ _).bind ?_
  rintro _ _ _ ⟨rfl, rfl⟩
  refine (sound_readExact _ _ _).bind ?_
  rintro choice _ _ ⟨rfl, rfl, two⟩
  refine (sound_liftExcept _).bind ?_
  rintro _ _ _ ⟨rfl, rfl, chosen⟩
  obtain rfl := checkMethodReply_ok two chosen
  have fits : Fits parse credentials host :=
    ⟨fun given same => (checkCredentials_eq_ok.mp checked given same).1,
      fun given same => (checkCredentials_eq_ok.mp checked given same).2, fits_of_encodeTarget encoded⟩
  cases credentials with
  | none =>
    refine (sound_writeAll _ _ _).bind ?_
    rintro _ _ _ ⟨rfl, rfl⟩
    refine (sound_readConnectReply endpoint).mono ?_
    rintro reply _ _ ⟨well, rfl⟩
    exact ⟨fits, ⟨reply, well, rfl⟩, rfl⟩
  | some given =>
    refine (sound_authenticate endpoint given).bind ?_
    rintro _ _ _ ⟨rfl, rfl⟩
    refine (sound_writeAll _ _ _).bind ?_
    rintro _ _ _ ⟨rfl, rfl⟩
    refine (sound_readConnectReply endpoint).mono ?_
    rintro reply _ _ ⟨well, rfl⟩
    exact ⟨fits, ⟨reply, well, rfl⟩, rfl⟩

end Converse

section Safety

variable (endpoint : String) {parse : String → Option IpAddr} {credentials : Option Socks5Credentials} {host : String}
  {port : UInt16}

variable {before : List (Traffic UInt8 Phase) → Prop}

theorem keeps_liftExcept {α : Type} {allowed : List (Traffic UInt8 Phase) → Traffic UInt8 Phase → Prop}
    (result : Except ProxySocks5Error α) :
    Keeps allowed before (liftExcept result) fun a log => result = .ok a ∧ before log := by
  cases result with
  | error error => exact Keeps.fail error
  | ok value => exact Keeps.pure.weaken (fun _ holds => ⟨rfl, holds⟩) fun _ _ holds => holds

/-- The proxy has chosen the method it was offered. -/
def Chosen (credentials : Option Socks5Credentials) (log : List (Traffic UInt8 Phase)) : Prop :=
  .read .methodNegotiation [version, offeredMethod credentials] ∈ log

theorem chosen_concat (earlier : List (Traffic UInt8 Phase)) :
    Chosen credentials (earlier ++ [.read .methodNegotiation [version, offeredMethod credentials]]) :=
  mem_append_right _ (mem_singleton_self _)

/-- The proxy has chosen the method, and accepted the credentials if there are any. -/
def Admitted (credentials : Option Socks5Credentials) (log : List (Traffic UInt8 Phase)) : Prop :=
  Chosen credentials log ∧
    (credentials.isSome = true → .read .authentication [userPassVersion, userPassSuccess] ∈ log)

private theorem keeps_authenticate (given : Socks5Credentials) :
    Keeps (Allowed parse (some given) host port) (Chosen (some given)) (authenticate endpoint given)
      fun _ => Admitted (some given) := by
  unfold authenticate
  refine (keeps_writeAll fun log chosen => ⟨⟨given, rfl, rfl⟩, chosen⟩).bind fun _ => ?_
  refine (keeps_readExact fun _ _ _ => trivial).bind fun reply => Keeps.assume fun two => ?_
  refine (keeps_liftExcept _).weaken (fun _ holds => holds) ?_
  rintro _ log ⟨passed, earlier, ⟨first, chosen, rfl⟩, rfl⟩
  rw [checkAuthReply_ok two passed]
  refine ⟨?_, fun _ => ?_⟩
  · exact mem_append_left _ (mem_append_left _ chosen)
  · exact mem_append_right _ (mem_singleton_self _)

private theorem keeps_boundAddrLen (addressType : UInt8) :
    Keeps (Allowed parse credentials host port) before (boundAddrLen endpoint addressType) fun _ _ => True := by
  unfold boundAddrLen
  split_ifs
  · exact Keeps.pure.weaken (fun _ _ => trivial) fun _ _ holds => holds
  · exact Keeps.pure.weaken (fun _ _ => trivial) fun _ _ holds => holds
  · refine (keeps_readExact fun _ _ _ => trivial).bind fun first => ?_
    exact Keeps.pure.weaken (fun _ _ => trivial) fun _ _ holds => holds
  · exact Keeps.fail _

/-- Reading says nothing. -/
theorem keeps_readConnectReply :
    Keeps (Allowed parse credentials host port) before (readConnectReply endpoint host port) fun _ _ => True := by
  unfold readConnectReply
  refine (keeps_readExact fun _ _ _ => trivial).bind fun header => ?_
  refine (keeps_liftExcept _).bind fun _ => ?_
  refine (keeps_boundAddrLen endpoint _).bind fun length => ?_
  refine (keeps_readExact fun _ _ _ => trivial).bind fun body => ?_
  exact (keeps_liftExcept _).weaken (fun _ holds => holds) fun _ _ _ => trivial

private theorem keeps_request {target : Bytes} (encoded : encodeTarget parse host = .ok target) :
    Keeps (Allowed parse credentials host port) (Admitted credentials)
      (do writeAll endpoint .connectRequest (connectRequest target port); readConnectReply endpoint host port)
      fun _ _ => True := by
  refine (keeps_writeAll fun log admitted => ?_).bind fun _ => keeps_readConnectReply endpoint
  exact ⟨admitted.1, admitted.2, _, decodeRequest_connectRequest encoded port, rfl⟩

/-- Nothing is said too early, however the negotiation ends. -/
theorem keeps_negotiate :
    Keeps (Allowed parse credentials host port) (fun _ => True) (negotiate endpoint parse credentials host port)
      fun _ _ => True := by
  unfold negotiate
  refine (keeps_liftExcept _).bind fun _ => Keeps.assume fun _ => ?_
  refine (keeps_liftExcept _).bind fun target => Keeps.assume fun encoded => ?_
  refine (keeps_writeAll fun _ _ => ?_).bind fun _ => ?_
  · exact (rfl : [version, 1, offeredMethod credentials] = _)
  refine (keeps_readExact fun _ _ _ => trivial).bind fun choice => Keeps.assume fun two => ?_
  refine (keeps_liftExcept _).bind fun _ => Keeps.assume fun passed => ?_
  obtain rfl := checkMethodReply_ok two passed
  cases credentials with
  | none =>
    refine (keeps_request endpoint encoded).weaken ?_ fun _ _ _ => trivial
    rintro log ⟨earlier, _, rfl⟩
    exact ⟨chosen_concat earlier, fun given => absurd given (by simp)⟩
  | some given =>
    refine Keeps.bind ((keeps_authenticate endpoint given).weaken ?_ fun _ _ holds => holds) fun _ => ?_
    · rintro log ⟨earlier, _, rfl⟩
      exact chosen_concat earlier
    · exact keeps_request endpoint encoded

end Safety

section Negotiations

variable (endpoint : String) (parse : String → Option IpAddr) (credentials : Option Socks5Credentials) (host : String)
  (port : UInt16)

/-- For every stream of the proxy, cut and ending anywhere, and every number of messages it takes: the negotiation
succeeds just if the fields fit, the messages are taken and the stream starts with the proxy's part; it has then
consumed that part and no more; and in no case is anything said before it may be. -/
theorem negotiation_is_exact (chunks : List (Chunk UInt8)) (ending : Ending) (writes : ℕ) (refusal : Ending) :
    let wire : Wire UInt8 Phase := ⟨chunks, ending, writes, refusal, []⟩
    let outcome := negotiate endpoint parse credentials host port wire
    (outcome.1 = .ok () ↔ Fits parse credentials host ∧ messages credentials ≤ writes ∧
      ∃ accepted rest, Accepting credentials accepted ∧ pending chunks = accepted ++ rest) ∧
    (outcome.1 = .ok () → ∃ accepted, Accepting credentials accepted ∧
      pending chunks = accepted ++ pending outcome.2.chunks) ∧
    Guarded (Allowed parse credentials host port) outcome.2.log := by
  intro wire outcome
  have converse : outcome.1 = .ok () → Fits parse credentials host ∧ messages credentials ≤ writes ∧
      ∃ accepted, Accepting credentials accepted ∧ pending chunks = accepted ++ pending outcome.2.chunks := by
    intro success
    obtain ⟨used, spent, ⟨fits, accepting, rfl⟩, split, total⟩ :=
      sound_negotiate endpoint wire outcome.2 () (Prod.ext success rfl)
    exact ⟨fits, Nat.le.intro total.symm, used, accepting, split⟩
  refine ⟨⟨fun success => ?_, ?_⟩, fun success => (converse success).2.2, ?_⟩
  · obtain ⟨fits, enough, accepted, accepting, split⟩ := converse success
    exact ⟨fits, enough, accepted, _, accepting, split⟩
  · rintro ⟨fits, enough, accepted, rest, accepting, split⟩
    obtain ⟨next, success, _⟩ := reads_negotiate endpoint fits accepting wire rest split enough
    exact congrArg Prod.fst success
  · exact (keeps_negotiate endpoint wire guarded_nil trivial).1

/-- A proxy that does its part, in one chunk. -/
def willing (credentials : Option Socks5Credentials) : Chunk UInt8 :=
  ⟨version :: offeredMethod credentials ::
    ((if credentials.isSome then [userPassVersion, userPassSuccess] else []) ++
      [version, 0x00, 0x00, atypIpv4, 127, 0, 0, 1, 0x04, 0x38]), cons_ne_nil _ _⟩

private theorem accepting_willing (credentials : Option Socks5Credentials) :
    Accepting credentials (willing credentials).val :=
  ⟨[version, 0x00, 0x00, atypIpv4, 127, 0, 0, 1, 0x04, 0x38],
    ⟨0x00, atypIpv4, [127, 0, 0, 1], [0x04, 0x38], .ipv4 rfl, rfl, rfl⟩, rfl⟩

def longName : String := String.ofList (List.replicate 256 'a')

/-- A willing proxy is given up on if the username is too long, and if it does not take the offer. -/
theorem willing_proxy_is_given_up :
    (Accepting (some ⟨longName, ""⟩) (willing (some ⟨longName, ""⟩)).val ∧
      (negotiate "proxy:1080" (fun _ => none) (some ⟨longName, ""⟩) "example" 25565
        ⟨[willing (some ⟨longName, ""⟩)], .closed, 3, .closed, []⟩).1 = .error .usernameTooLong) ∧
    Accepting none (willing none).val ∧
      (negotiate "proxy:1080" (fun _ => none) none "example" 25565
        ⟨[willing none], .closed, 0, .timedOut, []⟩).1 = .error (.timeout "proxy:1080" "method negotiation") := by
  refine ⟨⟨accepting_willing _, ?_⟩, accepting_willing _, rfl⟩
  have long : (stringBytes longName).length > maxFieldLen := by decide +kernel
  have refused : checkCredentials (some ⟨longName, ""⟩) = .error .usernameTooLong := by
    rw [checkCredentials, if_pos long]
  unfold negotiate
  rw [refused]
  exact congrArg Prod.fst (bind_error rfl)

end Negotiations

end MineRider.Soundness.Socks5
