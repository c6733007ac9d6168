import Mqtt.Packet.Description
import Mqtt.Text.Duration
import Mqtt.Version
/-!
# Faults

Everything that can go wrong, as causes. What a fault says to a reader is computed from its cause
by `Fault.message`, so that no other module holds the wording.

An input that merely ends too early is no fault: who reads it waits for more.
-/

namespace Mqtt

/-- What a text stands for that is checked as a topic. -/
inductive TopicRole where
  | topic
  | filter
deriving DecidableEq, Repr

/-- A breach of the protocol's rules. -/
inductive Violation where
  /-- A remaining length too large for its four bytes. -/
  | lengthTooLarge (value : Nat)
  /-- A remaining length whose fourth byte asks for a fifth. -/
  | lengthMalformed
  /-- A field too long for its two-byte length. -/
  | fieldTooLong (size : Nat)
  /-- A field that ends behind the body. -/
  | bodyTooShort (need left : Nat)
  /-- A text that is not UTF-8. -/
  | invalidText
  /-- A frame body too long for the remaining length. -/
  | frameTooLarge (size : Nat)
  /-- An incoming frame above the reader's limit. -/
  | packetTooLarge (size limit : Nat)
  /-- A packet whose body is too long for the remaining length. -/
  | bodyTooLarge (kind : PacketKind) (size : Nat)
  /-- A body where none belongs. -/
  | unexpectedBody (kind : PacketKind)
  /-- No body where one belongs. -/
  | missingBody
  /-- An acknowledgement whose body is no packet id. -/
  | packetIdSize (size : Nat)
  /-- The packet id 0. -/
  | packetIdZero
  /-- A number that is no quality of service. -/
  | invalidQoS (value : UInt8)
  /-- A number that is no packet kind. -/
  | invalidKind (value : UInt8)
  /-- A number that is no answer to a CONNECT. -/
  | invalidConnectCode (value : UInt8)
  /-- A number that is no answer to a filter. -/
  | invalidSubscribeCode (value : UInt8)
  /-- A first frame that is not a CONNECT by its header. -/
  | notConnectHeader (header : UInt8)
  /-- A protocol name and level that belong to no version. -/
  | unknownProtocol (name : String) (level : UInt8)
  /-- A CONNECT for another version than the session's. -/
  | versionMismatch (asked spoken : Version)
  /-- The reserved flag of a CONNECT. -/
  | reservedConnectFlag
  /-- Will flags without a will. -/
  | willFlagsWithoutWill
  /-- A password without a username. -/
  | passwordWithoutUsername
  /-- An empty client id for a session that is to be kept. -/
  | emptyClientId
  /-- Reserved bits beside the level asked for. -/
  | reservedOptions
  /-- A SUBSCRIBE without filters. -/
  | noSubscriptions
  /-- A SUBACK without return codes. -/
  | noReturnCodes
  /-- An UNSUBSCRIBE without filters. -/
  | noFilters
  /-- A packet id on a PUBLISH at level 0. -/
  | packetIdAtQoS0
  /-- The repetition flag on a PUBLISH at level 0. -/
  | dupAtQoS0
  /-- No packet id on a PUBLISH above level 0. -/
  | packetIdMissing
  /-- An empty topic or filter. -/
  | topicEmpty (role : TopicRole)
  /-- A topic or filter of more than 65535 bytes. -/
  | topicTooLong (role : TopicRole)
  /-- A topic or filter with the character NUL. -/
  | topicHoldsNul (role : TopicRole)
  /-- A multi-level wildcard in front of another level. -/
  | multiLevelNotLast (filter : String)
  /-- A wildcard that shares its level with other characters. -/
  | wildcardInLevel (filter : String)
  /-- A wildcard in a topic. -/
  | wildcardInTopic (topic : String)
  /-- A second CONNECT. -/
  | secondConnect
  /-- A first packet that is not a CONNECT. -/
  | notConnect (kind : PacketKind)
  /-- No packet id is free. -/
  | packetIdsExhausted
  /-- A written PUBLISH that does not read back as a frame. -/
  | unframedPublish
deriving DecidableEq, Repr

/-- Something that ends a call or a session. -/
inductive Fault where
  /-- The stream failed, for a reason of its own. -/
  | io (reason : String)
  /-- The other side, or the caller, broke a rule of the protocol. -/
  | violation (v : Violation)
  /-- A version of the protocol that is not spoken. -/
  | unsupportedVersion (title : String)
  /-- A transport that is not spoken. -/
  | unsupportedScheme (scheme : String)
  /-- The broker answered the CONNECT with a refusal. -/
  | refused (code : ConnectCode)
  /-- The stream ended. -/
  | connectionClosed
  /-- The token of the connection was cancelled. -/
  | cancelled
  /-- Another packet came than the one waited for. -/
  | unexpectedPacket (expected : PacketKind) (got : Packet)
  /-- No frame came for so many milliseconds. -/
  | keepAliveExpired (millis : Nat)
  /-- An empty client id for a session that is to be kept. -/
  | emptyClientIdKept
  /-- A limit below the smallest frame. -/
  | limitTooSmall (limit : Nat)
  /-- An address with an unknown scheme. -/
  | unknownScheme (addr : String)
  /-- An address without a host. -/
  | missingHost (addr : String)
  /-- The broker serves already. -/
  | alreadyRunning
deriving DecidableEq, Repr

/-- The sorts of faults, as callers tell them apart. -/
inductive FaultKind where
  | io
  | protocol
  | unsupported
  | connectionRefused
  | connectionClosed
  | cancelled
  | unexpectedPacket
  | timeout
  | invalidConfig
  | alreadyRunning
deriving DecidableEq, Repr

namespace TopicRole

/-- The noun for a role. -/
def noun : TopicRole → String
  | topic => "topic"
  | filter => "topic filter"

end TopicRole

namespace Violation

open Text in
/-- What a violation says. -/
def message : Violation → String
  | lengthTooLarge n => s!"remaining length {n} exceeds 268435455"
  | lengthMalformed => "malformed remaining length"
  | fieldTooLong n => s!"field of {n} bytes exceeds 65535"
  | bodyTooShort need left =>
    s!"packet body too short: need {need} more bytes, have {left}"
  | invalidText => "string is not valid UTF-8"
  | frameTooLarge n => s!"frame body of {n} bytes is too large"
  | packetTooLarge size limit => s!"packet of {size} bytes exceeds maximum {limit}"
  | bodyTooLarge kind n => kind.title ++ s!" body of {n} bytes is too large"
  | unexpectedBody kind => kind.title ++ " must not carry a body"
  | missingBody => "data required but not present"
  | packetIdSize n => s!"packet id body must be 2 bytes, got {n}"
  | packetIdZero => "packet id must be non-zero"
  | invalidQoS n => "invalid QoS level " ++ toString n.toNat
  | invalidKind n => "invalid packet type " ++ toString n.toNat
  | invalidConnectCode n => "invalid connect return code " ++ toString n.toNat
  | invalidSubscribeCode n => "invalid SUBACK return code " ++ markedByte n
  | notConnectHeader h => "expected CONNECT as first packet, got header " ++ markedByte h
  | unknownProtocol name level =>
    "protocol '" ++ name ++ "' level " ++ toString level.toNat ++ " is not supported"
  | versionMismatch asked spoken =>
    "CONNECT for " ++ asked.title ++ " on a " ++ spoken.title ++ " session"
  | reservedConnectFlag => "CONNECT reserved flag is set"
  | willFlagsWithoutWill => "will QoS/retain set without a will"
  | passwordWithoutUsername => "password present without username"
  | emptyClientId => "empty client id requires a clean session"
  | reservedOptions => "SUBSCRIBE options reserved bits are set"
  | noSubscriptions => "SUBSCRIBE requires at least one filter"
  | noReturnCodes => "SUBACK requires at least one return code"
  | noFilters => "UNSUBSCRIBE requires at least one filter"
  | packetIdAtQoS0 => "QoS 0 PUBLISH must not carry a packet id"
  | dupAtQoS0 => "QoS 0 PUBLISH must not set DUP"
  | packetIdMissing => "QoS > 0 PUBLISH requires a packet id"
  | topicEmpty role => role.noun ++ " must not be empty"
  | topicTooLong role => role.noun ++ " longer than 65535 bytes"
  | topicHoldsNul role => role.noun ++ " must not contain NUL"
  | multiLevelNotLast f => "'#' must be the last level in filter " ++ quoted f
  | wildcardInLevel f => "wildcard must occupy a whole level in filter " ++ quoted f
  | wildcardInTopic t => "topic " ++ quoted t ++ " must not contain wildcards"
  | secondConnect => "second CONNECT on a running session"
  | notConnect kind => "expected CONNECT, got " ++ kind.title
  | packetIdsExhausted => "every packet id is awaiting an acknowledgement"
  | unframedPublish => "encoded PUBLISH did not form a frame"

end Violation

namespace Fault

/-- The sort of a fault. -/
def kind : Fault → FaultKind
  | io _ => .io
  | violation _ => .protocol
  | unsupportedVersion _ | unsupportedScheme _ => .unsupported
  | refused _ => .connectionRefused
  | connectionClosed => .connectionClosed
  | cancelled => .cancelled
  | unexpectedPacket .. => .unexpectedPacket
  | keepAliveExpired _ => .timeout
  | emptyClientIdKept | limitTooSmall _ | unknownScheme _ | missingHost _ => .invalidConfig
  | alreadyRunning => .alreadyRunning

/-- What is said in front of the details of a fault of each sort. -/
def lead : FaultKind → String
  | .io => "io error: "
  | .protocol => "protocol violation: "
  | .unsupported => "unsupported: "
  | .connectionRefused => "connection refused: "
  | .connectionClosed => "connection closed"
  | .cancelled => "cancelled"
  | .unexpectedPacket => "unexpected packet: "
  | .timeout => "timeout: "
  | .invalidConfig => "invalid config: "
  | .alreadyRunning => "broker already running"

/-- The details of a fault. -/
def details : Fault → String
  | io reason => reason
  | violation v => v.message
  | unsupportedVersion title => title
  | unsupportedScheme scheme => "transport scheme '" ++ scheme ++ "'"
  | refused code => code.name
  | unexpectedPacket expected got =>
    "expected " ++ expected.name ++ ", got " ++ got.description
  | keepAliveExpired millis => "keep-alive expired after " ++ Text.seconds millis
  | emptyClientIdKept => "empty client id requires clean session"
  | limitTooSmall n => s!"max packet size {n} is too small"
  | unknownScheme addr => "unknown scheme in '" ++ addr ++ "'"
  | missingHost addr => "missing host in '" ++ addr ++ "'"
  | connectionClosed | cancelled | alreadyRunning => ""

/-- What a fault says. -/
def message (f : Fault) : String := lead f.kind ++ f.details

/-- Whether a fault is an orderly end of the connection. -/
def isDisconnect : Fault → Bool
  | connectionClosed | cancelled => true
  | _ => false

end Fault

/-- Stops with a violation. -/
def violate {α : Type} (v : Violation) : Except Fault α := .error (.violation v)

/-! ### Numbers that name something -/

/-- The level with the given number, or the violation that it is none. -/
def QoS.parse (n : UInt8) : Except Fault QoS :=
  match QoS.ofUInt8? n with
  | some q => .ok q
  | none => violate (.invalidQoS n)

/-- The answer to a CONNECT with the given number, or the violation that it is none. -/
def ConnectCode.parse (n : UInt8) : Except Fault ConnectCode :=
  match ConnectCode.ofUInt8? n with
  | some c => .ok c
  | none => violate (.invalidConnectCode n)

/-- The answer to a filter with the given number, or the violation that it is none. -/
def SubscribeCode.parse (n : UInt8) : Except Fault SubscribeCode :=
  match SubscribeCode.ofUInt8? n with
  | some c => .ok c
  | none => violate (.invalidSubscribeCode n)

/-- The kind that the first byte of a frame names. -/
def PacketKind.ofHeader (header : UInt8) : Except Fault PacketKind :=
  match PacketKind.ofNumber? (header >>> 4) with
  | some k => .ok k
  | none => violate (.invalidKind (header >>> 4))

/-- The version that a protocol name and level stand for. Version 5 has a name for its refusal;
every other pair is a violation. -/
def Version.ofProtocol (name : String) (level : UInt8) : Except Fault Version :=
  if name = "MQTT" ∧ level = 4 then .ok .v311
  else if name = "MQIsdp" ∧ level = 3 then .ok .v310
  else if name = "MQTT" ∧ level = 5 then .error (.unsupportedVersion "MQTT 5.0")
  else violate (.unknownProtocol name level)

/-- Whether the level, the packet id and the repetition flag of a PUBLISH agree. -/
def Publish.validate (p : Publish) : Except Fault Unit :=
  match p.qos, p.packetId with
  | .atMostOnce, some _ => violate .packetIdAtQoS0
  | .atMostOnce, none => if p.dup then violate .dupAtQoS0 else .ok ()
  | _, none => violate .packetIdMissing
  | _, some id => if id = 0 then violate .packetIdZero else .ok ()

end Mqtt
