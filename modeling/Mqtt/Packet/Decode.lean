import Mqtt.Packet.Encode
/-!
# Reading packets

`Packet.decode` makes a packet of a frame, under one version of the protocol. Every rule that a
frame can break has its place in the order in which the body is read, so of two faults the one
further in front is reported.

`Frame.version` reads only so much of a CONNECT as tells under which version to decode it.
-/

namespace Mqtt

/-- Reads a body that must not be empty. -/
def Frame.decodeBody {α : Type} (f : Frame) (d : Decoder α) : Except Fault α :=
  if f.body.isEmpty then violate .missingBody else d.decode f.body

/-- The version that a CONNECT asks for. -/
def Frame.version (f : Frame) : Except Fault Version := do
  if (← f.kind) ≠ .connect then violate (.notConnectHeader f.header)
  f.decodeBody do
    let name ← Decoder.text
    let level ← Decoder.byte
    ofExcept (Version.ofProtocol name level)

namespace Packet

open Decoder (violated)

/-- Takes a field if it is there. -/
def decodeOptional {α : Type} (present : Bool) (d : Decoder α) : Decoder (Option α) :=
  if present then some <$> d else pure none

/-- Whether a byte has a flag. -/
def hasFlag (flags flag : UInt8) : Bool := flags &&& flag != 0

/-- Takes the body of a CONNECT. -/
def decodeConnect (v : Version) : Decoder Connect := do
  let name ← Decoder.text
  let level ← Decoder.byte
  let asked ← ofExcept (Version.ofProtocol name level)
  if asked ≠ v then violated (.versionMismatch asked v)
  let flags ← Decoder.byte
  if hasFlag flags ConnectFlags.reserved then violated .reservedConnectFlag
  let willQoS ← ofExcept (QoS.parse ((flags >>> 3) &&& 0x03))
  let willRetain := hasFlag flags ConnectFlags.willRetain
  let hasWill := hasFlag flags ConnectFlags.will
  if !hasWill && (willQoS != .atMostOnce || willRetain) then violated .willFlagsWithoutWill
  let hasUsername := hasFlag flags ConnectFlags.username
  let hasPassword := hasFlag flags ConnectFlags.password
  if hasPassword && !hasUsername then violated .passwordWithoutUsername
  let cleanSession := hasFlag flags ConnectFlags.cleanSession
  let keepAlive ← Decoder.uint16
  let clientId ← Decoder.text
  if clientId.isEmpty && !cleanSession then violated .emptyClientId
  let will ← decodeOptional hasWill do
    let topic ← Decoder.text
    let payload ← Decoder.binary
    return { topic, payload, qos := willQoS, retain := willRetain }
  let username ← decodeOptional hasUsername Decoder.text
  let password ← decodeOptional hasPassword Decoder.binary
  return { clientId, keepAlive, cleanSession, username, password, will }

/-- Takes the body of a CONNACK. Version 3.1 does not say whether a session is present. -/
def decodeConnAck (v : Version) : Decoder ConnAck := do
  let first ← Decoder.byte
  let code ← ofExcept (ConnectCode.parse (← Decoder.byte))
  let sessionPresent := match v with
    | .v310 => false
    | .v311 => hasFlag first 0x01
  return { sessionPresent, code }

/-- Reads a PUBLISH. Level, repetition and retain flag are in the frame's first byte. -/
def decodePublish (f : Frame) : Except Fault Publish := do
  let qos ← QoS.parse ((f.flags >>> 1) &&& 0x03)
  f.decodeBody do
    let topic ← Decoder.text
    let packetId ← decodeOptional (qos != .atMostOnce) do
      let id ← Decoder.uint16
      if id = 0 then violated .packetIdZero
      return id
    let payload ← Decoder.rest
    return { topic, payload, qos, packetId,
             retain := hasFlag f.flags 0x01, dup := hasFlag f.flags 0x08 }

/-- Takes one filter of a SUBSCRIBE. -/
def decodeSubscription : Decoder Subscription := do
  let filter ← Decoder.text
  let asked ← Decoder.byte
  if asked &&& 0xFC != 0 then violated .reservedOptions
  let qos ← ofExcept (QoS.parse asked)
  return { filter, qos }

/-- Takes a packet id and at least one item. -/
def decodeList {α : Type} (item : Decoder α) (missing : Violation) : Decoder (UInt16 × List α) := do
  let id ← Decoder.uint16
  let items ← Decoder.all item
  if items.isEmpty then violated missing
  return (id, items)

/-- Reads a body that is a packet id and nothing else. -/
def decodeId (f : Frame) : Except Fault UInt16 :=
  match f.body with
  | [] => violate .missingBody
  | [hi, lo] => .ok (Bytes.toUInt16 hi lo)
  | body => violate (.packetIdSize body.length)

/-- Reads a packet that has no body. -/
def decodeEmpty (f : Frame) (p : Packet) : Except Fault Packet :=
  if f.body.isEmpty then .ok p else violate (.unexpectedBody p.kind)

/-- The packet that a frame carries. -/
def decode (v : Version) (f : Frame) : Except Fault Packet := do
  match ← f.kind with
  | .connect => return connect (← f.decodeBody (decodeConnect v))
  | .connAck => return connAck (← f.decodeBody (decodeConnAck v))
  | .publish => return publish (← decodePublish f)
  | .pubAck => return pubAck (← decodeId f)
  | .pubRec => return pubRec (← decodeId f)
  | .pubRel => return pubRel (← decodeId f)
  | .pubComp => return pubComp (← decodeId f)
  | .subscribe =>
    let (id, wanted) ← f.decodeBody (decodeList decodeSubscription .noSubscriptions)
    return subscribe id wanted
  | .subAck =>
    let code : Decoder SubscribeCode := do ofExcept (SubscribeCode.parse (← Decoder.byte))
    let (id, codes) ← f.decodeBody (decodeList code .noReturnCodes)
    return subAck id codes
  | .unsubscribe =>
    let (id, filters) ← f.decodeBody (decodeList Decoder.text .noFilters)
    return unsubscribe id filters
  | .unsubAck => return unsubAck (← decodeId f)
  | .pingReq => decodeEmpty f pingReq
  | .pingResp => decodeEmpty f pingResp
  | .disconnect => decodeEmpty f disconnect

/-- What is found at the front of a byte string, frame by frame: each packet or fault in turn, and
the number of bytes behind the last whole frame. A malformed length is the last thing found. -/
def decodeStream (v : Version) (bs : Bytes) : List (Except Fault Packet) × Nat :=
  go bs.length bs []
where
  /-- Goes on behind the frames that have been found; `found` holds them, latest first. -/
  go : Nat → Bytes → List (Except Fault Packet) → List (Except Fault Packet) × Nat
    | 0, bs, found => (found.reverse, bs.length)
    | fuel + 1, bs, found =>
      match Frame.parse bs with
      | .ok (some (f, used)) => go fuel (bs.drop used) (decode v f :: found)
      | .ok none => (found.reverse, bs.length)
      | .error e => ((.error e :: found).reverse, bs.length)

end Packet
end Mqtt
