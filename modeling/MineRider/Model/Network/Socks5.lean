import MineRider.Machine.Duplex
import MineRider.Model.Core.Error
import MineRider.Model.Protocol.Nbt

/-! # The SOCKS5 client

The negotiation with a proxy, up to the reply to the `CONNECT` request. It is one dialogue over the stream: a method
is offered, the credentials follow if the proxy chose theirs, and then the request. All reads and writes share one
deadline; the stream ends, or a write is refused, in whichever way comes first. Whether a host is a literal address
is the standard library's to say.
-/

namespace MineRider.Model.Network

open Model.Core Model.Protocol Machine.Duplex
open Nbt (stringBytes)

namespace Socks5

def version : UInt8 := 0x05

def methodNoAuth : UInt8 := 0x00
def methodUserPass : UInt8 := 0x02
def methodNoAcceptable : UInt8 := 0xFF

def userPassVersion : UInt8 := 0x01
def userPassSuccess : UInt8 := 0x00

def cmdConnect : UInt8 := 0x01

def atypIpv4 : UInt8 := 0x01
def atypDomain : UInt8 := 0x03
def atypIpv6 : UInt8 := 0x04

/-- The largest value of a one-byte length. -/
def maxFieldLen : ℕ := 255

structure Socks5Credentials where
  username : String
  password : String
deriving DecidableEq, Repr

inductive IpAddr where
  | v4 (octets : Fin 4 → UInt8)
  | v6 (octets : Fin 16 → UInt8)

inductive Phase where
  | methodNegotiation
  | authentication
  | connectRequest
  | connectReply
deriving DecidableEq, Repr

def Phase.text : Phase → String
  | .methodNegotiation => "method negotiation"
  | .authentication => "authentication"
  | .connectRequest => "CONNECT request"
  | .connectReply => "CONNECT reply"

def fromCode (code : UInt8) : Socks5Reply :=
  if code = 0x00 then .succeeded
  else if code = 0x01 then .generalFailure
  else if code = 0x02 then .notAllowedByRuleset
  else if code = 0x03 then .networkUnreachable
  else if code = 0x04 then .hostUnreachable
  else if code = 0x05 then .connectionRefused
  else if code = 0x06 then .ttlExpired
  else if code = 0x07 then .commandNotSupported
  else if code = 0x08 then .addressTypeNotSupported
  else .unknown code

abbrev Negotiation := Dialogue UInt8 Phase ProxySocks5Error

section Stream

variable (endpoint : String)

/-- A write ends in a timeout or in an error of the operating system. -/
def writeError (phase : Phase) : Ending → ProxySocks5Error
  | .timedOut => .timeout endpoint phase.text
  | .failed source => .io endpoint phase.text source
  | .closed => .io endpoint phase.text "failed to write whole buffer"

def readError (phase : Phase) : Ending → ProxySocks5Error
  | .timedOut => .timeout endpoint phase.text
  | .closed => .protocol endpoint phase.text "connection closed with a truncated reply"
  | .failed source => .io endpoint phase.text source

def writeAll (phase : Phase) (bytes : Bytes) : Negotiation Unit := .writeAll (writeError endpoint phase) phase bytes

def readExact (phase : Phase) (count : ℕ) : Negotiation Bytes := .readExact (readError endpoint phase) phase count

end Stream

section Encoding

def encodeIpv4 (octets : Fin 4 → UInt8) : Bytes := atypIpv4 :: List.ofFn octets

def encodeIpv6 (octets : Fin 16 → UInt8) : Bytes := atypIpv6 :: List.ofFn octets

/-- A literal address is sent as such, and any other host by its name for the proxy to resolve. -/
def encodeTarget (parse : String → Option IpAddr) (host : String) : Except ProxySocks5Error Bytes :=
  match parse host with
  | some (.v4 octets) => .ok (encodeIpv4 octets)
  | some (.v6 octets) => .ok (encodeIpv6 octets)
  | none =>
    if (stringBytes host).length > maxFieldLen then .error (.targetTooLong host)
    else .ok (atypDomain :: UInt8.ofNat (stringBytes host).length :: stringBytes host)

def authRequest (credentials : Socks5Credentials) : Bytes :=
  [userPassVersion, UInt8.ofNat (stringBytes credentials.username).length] ++ stringBytes credentials.username ++
    [UInt8.ofNat (stringBytes credentials.password).length] ++ stringBytes credentials.password

def connectRequest (target : Bytes) (port : UInt16) : Bytes :=
  [version, cmdConnect, 0x00] ++ target ++ PacketWriter.putU16 port

end Encoding

variable (endpoint : String)

def checkCredentials : Option Socks5Credentials → Except ProxySocks5Error Unit
  | none => .ok ()
  | some credentials =>
    if (stringBytes credentials.username).length > maxFieldLen then .error .usernameTooLong
    else if (stringBytes credentials.password).length > maxFieldLen then .error .passwordTooLong
    else .ok ()

/-- Exactly one method is offered: with credentials, never the one without authentication. -/
def offeredMethod (credentials : Option Socks5Credentials) : UInt8 :=
  if credentials.isSome then methodUserPass else methodNoAuth

def checkMethodReply (offered : UInt8) (reply : Bytes) : Except ProxySocks5Error Unit :=
  if reply.getD 0 0 ≠ version then
    .error (.protocol endpoint "method negotiation reply" ("unexpected SOCKS version 0x" ++ hexByte (reply.getD 0 0)))
  else if reply.getD 1 0 = offered then .ok ()
  else if reply.getD 1 0 = methodNoAcceptable then .error (.noAcceptableAuthMethod endpoint)
  else
    .error (.protocol endpoint "method negotiation reply"
      ("proxy selected unoffered method 0x" ++ hexByte (reply.getD 1 0)))

def checkAuthReply (reply : Bytes) : Except ProxySocks5Error Unit :=
  if reply.getD 0 0 ≠ userPassVersion then
    .error (.protocol endpoint "authentication reply"
      ("unexpected sub-negotiation version 0x" ++ hexByte (reply.getD 0 0)))
  else if reply.getD 1 0 ≠ userPassSuccess then .error (.authenticationRejected endpoint)
  else .ok ()

/-- Go on with a result, or fail with its error. -/
def liftExcept {α : Type} : Except ProxySocks5Error α → Negotiation α
  | .ok a => Dialogue.pure a
  | .error error => Dialogue.fail error

def authenticate (credentials : Socks5Credentials) : Negotiation Unit := do
  writeAll endpoint .authentication (authRequest credentials)
  let reply ← readExact endpoint .authentication 2
  liftExcept (checkAuthReply endpoint reply)

/-- The length of the bound address in the reply, which comes first if the address is a name. -/
def boundAddrLen (addressType : UInt8) : Negotiation ℕ :=
  if addressType = atypIpv4 then pure 4
  else if addressType = atypIpv6 then pure 16
  else if addressType = atypDomain then do
    let len ← readExact endpoint .connectReply 1
    pure (len.getD 0 0).toNat
  else
    Dialogue.fail (.protocol endpoint "CONNECT reply" ("unsupported bound-address type 0x" ++ hexByte addressType))

def checkReplyVersion (header : Bytes) : Except ProxySocks5Error Unit :=
  if header.getD 0 0 ≠ version then
    .error (.protocol endpoint "CONNECT reply" ("unexpected SOCKS version 0x" ++ hexByte (header.getD 0 0)))
  else .ok ()

def checkReplyCode (targetHost : String) (targetPort : UInt16) (header : Bytes) : Except ProxySocks5Error Unit :=
  if fromCode (header.getD 1 0) ≠ .succeeded then
    .error (.connectRefused endpoint (targetHost ++ ":" ++ toString targetPort) (fromCode (header.getD 1 0)))
  else .ok ()

def readConnectReply (targetHost : String) (targetPort : UInt16) : Negotiation Unit := do
  let header ← readExact endpoint .connectReply 4
  liftExcept (checkReplyVersion endpoint header)
  let addrLen ← boundAddrLen endpoint (header.getD 3 0)
  let _ ← readExact endpoint .connectReply (addrLen + 2)
  liftExcept (checkReplyCode endpoint targetHost targetPort header)

def negotiate (parse : String → Option IpAddr) (credentials : Option Socks5Credentials) (targetHost : String)
    (targetPort : UInt16) : Negotiation Unit := do
  liftExcept (checkCredentials credentials)
  let target ← liftExcept (encodeTarget parse targetHost)
  writeAll endpoint .methodNegotiation [version, 1, offeredMethod credentials]
  let methodReply ← readExact endpoint .methodNegotiation 2
  liftExcept (checkMethodReply endpoint (offeredMethod credentials) methodReply)
  match credentials with
  | some credentials => authenticate endpoint credentials
  | none => pure ()
  writeAll endpoint .connectRequest (connectRequest target targetPort)
  readConnectReply endpoint targetHost targetPort

end Socks5

end MineRider.Model.Network
