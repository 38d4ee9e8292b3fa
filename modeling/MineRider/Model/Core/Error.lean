import MineRider.Model.Protocol.Buffer

/-! # Engine errors and their retry classes

The one error type of the engine, with the classification the supervisor's reconnect policy acts
on. Errors of the operating system and of HTTP transports are represented by their text.
-/

namespace MineRider.Model.Core

/-- How the supervisor should treat a failure. -/
inductive RetryClass where
  | transient
  | serverRejected
  | authFailure
  | protocolIncompatible
deriving DecidableEq, Repr

/-- The reply code of a SOCKS5 proxy to a connect request. -/
inductive Socks5Reply where
  | succeeded
  | generalFailure
  | notAllowedByRuleset
  | networkUnreachable
  | hostUnreachable
  | connectionRefused
  | ttlExpired
  | commandNotSupported
  | addressTypeNotSupported
  | unknown (code : UInt8)
deriving DecidableEq, Repr

def Socks5Reply.retryClass : Socks5Reply → RetryClass
  | .succeeded => .transient
  | .notAllowedByRuleset => .serverRejected
  | .generalFailure | .networkUnreachable | .hostUnreachable | .connectionRefused | .ttlExpired =>
    .transient
  | .commandNotSupported | .addressTypeNotSupported | .unknown _ => .protocolIncompatible

inductive ProxySocks5Error where
  | proxyConnect (endpoint source : String)
  | io (endpoint phase source : String)
  | timeout (endpoint phase : String)
  | noAcceptableAuthMethod (endpoint : String)
  | authenticationRejected (endpoint : String)
  | connectRefused (endpoint target : String) (reply : Socks5Reply)
  | protocol (endpoint phase reason : String)
  | usernameTooLong
  | passwordTooLong
  | targetTooLong (target : String)
deriving DecidableEq, Repr

/-- The two hexadecimal digits of a reply code. -/
def hexByte (code : UInt8) : String :=
  let digits := Nat.toDigits 16 code.toNat
  String.ofList (List.replicate (2 - digits.length) '0' ++ digits)

def Socks5Reply.display : Socks5Reply → String
  | .succeeded => "succeeded"
  | .generalFailure => "general SOCKS server failure"
  | .notAllowedByRuleset => "connection not allowed by ruleset"
  | .networkUnreachable => "network unreachable"
  | .hostUnreachable => "host unreachable"
  | .connectionRefused => "connection refused"
  | .ttlExpired => "TTL expired"
  | .commandNotSupported => "command not supported"
  | .addressTypeNotSupported => "address type not supported"
  | .unknown code => "unknown reply code 0x" ++ hexByte code

/-- A character as Rust's debug format writes it in a string. Characters beyond ASCII that it would
escape are left as they are. -/
def debugChar (c : Char) : String :=
  match c with
  | '"' => "\\\""
  | '\\' => "\\\\"
  | '\n' => "\\n"
  | '\r' => "\\r"
  | '\t' => "\\t"
  | _ =>
    if c.toNat = 0 then "\\0"
    else if c.toNat < 32 ∨ c.toNat = 127 then "\\u\x7b" ++ String.ofList (Nat.toDigits 16 c.toNat) ++ "\x7d"
    else c.toString

def debugString (text : String) : String := "\"" ++ String.join (text.toList.map debugChar) ++ "\""

def ProxySocks5Error.display : ProxySocks5Error → String
  | .proxyConnect endpoint source => "connecting to SOCKS5 proxy " ++ endpoint ++ ": " ++ source
  | .io endpoint phase source =>
    "io error talking to SOCKS5 proxy " ++ endpoint ++ " during " ++ phase ++ ": " ++ source
  | .timeout endpoint phase => "timed out talking to SOCKS5 proxy " ++ endpoint ++ " during " ++ phase
  | .noAcceptableAuthMethod endpoint =>
    "SOCKS5 proxy " ++ endpoint ++ " rejected every offered authentication method"
  | .authenticationRejected endpoint =>
    "SOCKS5 proxy " ++ endpoint ++ " rejected the supplied username/password"
  | .connectRefused endpoint target reply =>
    "SOCKS5 proxy " ++ endpoint ++ " refused CONNECT to " ++ target ++ ": " ++ reply.display
  | .protocol endpoint phase reason =>
    "SOCKS5 proxy " ++ endpoint ++ " sent a malformed " ++ phase ++ ": " ++ reason
  | .usernameTooLong => "proxy username exceeds the SOCKS5 255-byte length limit"
  | .passwordTooLong => "proxy password exceeds the SOCKS5 255-byte length limit"
  | .targetTooLong target =>
    "target hostname " ++ debugString target ++ " exceeds the SOCKS5 255-byte domain length limit"

def ProxySocks5Error.retryClass : ProxySocks5Error → RetryClass
  | .proxyConnect .. | .io .. | .timeout .. => .transient
  | .noAcceptableAuthMethod _ | .authenticationRejected _ => .authFailure
  | .usernameTooLong | .passwordTooLong => .authFailure
  | .targetTooLong _ | .protocol .. => .protocolIncompatible
  | .connectRefused _ _ reply => reply.retryClass

inductive MineRiderError where
  | io (source : String)
  | wire (source : Protocol.ProtocolError)
  | protocol (message : String)
  | connectionClosed
  | disconnected (reason : String)
  | crypto (message : String)
  | timeout (message : String)
  | auth (message : String)
  | authTransport (source : String)
  | proxy (source : ProxySocks5Error)
deriving DecidableEq, Repr

def wireDisplay : Protocol.ProtocolError → String
  | .varIntTooLong => "varint is too long (more than 5 bytes)"
  | .varLongTooLong => "varlong is too long (more than 10 bytes)"
  | .bufferUnderflow needed remaining =>
    "unexpected end of buffer: need " ++ toString needed ++ " bytes, " ++ toString remaining ++ " remain"
  | .negativeLength length => "negative length " ++ toString length
  | .invalidUtf8 => "invalid UTF-8 in string"
  | .invalidString message => "invalid string: " ++ message
  | .invalidIdentifier message => "invalid identifier: " ++ message
  | .frameTooLarge length max => "frame length " ++ toString length ++ " exceeds maximum " ++ toString max
  | .compression message => "compression error: " ++ message
  | .invalidNbt message => "invalid NBT: " ++ message
  | .invalidData message => "invalid data: " ++ message

/-- The text of an error, as `to_string` gives it. -/
def MineRiderError.display : MineRiderError → String
  | .io source => "io error: " ++ source
  | .wire source => "protocol error: " ++ wireDisplay source
  | .protocol message => "protocol error: " ++ message
  | .connectionClosed => "connection closed by peer"
  | .disconnected reason => "disconnected by server: " ++ reason
  | .crypto message => "crypto error: " ++ message
  | .timeout message => "timed out: " ++ message
  | .auth message => "authentication error: " ++ message
  | .authTransport source => "authentication request failed: " ++ source
  | .proxy source => "proxy error: " ++ source.display

def MineRiderError.retryClass : MineRiderError → RetryClass
  | .io _ | .timeout _ | .connectionClosed | .authTransport _ => .transient
  | .disconnected _ => .serverRejected
  | .auth _ => .authFailure
  | .wire _ | .protocol _ | .crypto _ => .protocolIncompatible
  | .proxy inner => inner.retryClass

end MineRider.Model.Core
