import Mqtt.Frame
/-!
# Writing packets

`Packet.encode` appends the body of a packet and answers with the first byte of its frame. It
checks the rules that a reader would check; those that speak of the packet as a whole come first,
and a field that is too long is found where it is written, behind the fields in front of it.

`Packet.writeFrame` appends the whole frame. It leaves room for the longest length in front of the
body, writes the body, and moves it down once its length is known; of a packet that cannot be
written nothing stays.
-/

namespace Mqtt

/-! ### The flags of a CONNECT -/

namespace ConnectFlags

/-- The flag that must not be set. -/
def reserved : UInt8 := 0x01

/-- No state is kept from session to session. -/
def cleanSession : UInt8 := 0x02

/-- A will follows. -/
def will : UInt8 := 0x04

/-- The will is to be retained. -/
def willRetain : UInt8 := 0x20

/-- A password follows. -/
def password : UInt8 := 0x40

/-- A username follows. -/
def username : UInt8 := 0x80

/-- A flag if a condition holds. -/
def flagIf (condition : Bool) (flag : UInt8) : UInt8 := if condition then flag else 0

/-- The flags of a CONNECT. -/
def ofConnect (c : Connect) : UInt8 :=
  flagIf c.cleanSession cleanSession |||
  (match c.will with
    | some w => will ||| (w.qos.toUInt8 <<< 3) ||| flagIf w.retain willRetain
    | none => 0) |||
  flagIf c.username.isSome username |||
  flagIf c.password.isSome password

end ConnectFlags

/-- The flags that the frames of PUBREL, SUBSCRIBE and UNSUBSCRIBE carry. -/
def acknowledgedFlags : UInt8 := 0x02

/-- The flags of a PUBLISH. -/
def Publish.flags (p : Publish) : UInt8 :=
  (p.qos.toUInt8 <<< 1) ||| ConnectFlags.flagIf p.dup 0x08 ||| ConnectFlags.flagIf p.retain 0x01

namespace Packet

/-- Appends a field if there is one. -/
def encodeOptional {α : Type} (put : α → Encoder Unit) : Option α → Encoder Unit
  | none => pure ()
  | some a => put a

/-- Appends the body of a CONNECT. -/
def encodeConnect (v : Version) (c : Connect) : Encoder Unit := do
  if c.password.isSome && c.username.isNone then throw (.violation .passwordWithoutUsername)
  if c.clientId.isEmpty && !c.cleanSession then throw (.violation .emptyClientId)
  Encoder.text v.protocolName
  Encoder.byte v.level
  Encoder.byte (ConnectFlags.ofConnect c)
  Encoder.uint16 c.keepAlive
  Encoder.text c.clientId
  encodeOptional (fun w : Will => do Encoder.text w.topic; Encoder.binary w.payload) c.will
  encodeOptional Encoder.text c.username
  encodeOptional Encoder.binary c.password

/-- Appends the body of a PUBLISH. -/
def encodePublish (p : Publish) : Encoder Unit := do
  match p.validate with
  | .error e => throw e
  | .ok () =>
    Encoder.text p.topic
    encodeOptional Encoder.uint16 p.packetId
    Encoder.bytes p.payload

/-- Appends the body of a packet, and answers with the first byte of its frame. -/
def encode (v : Version) (p : Packet) : Encoder UInt8 := do
  match p with
  | connect c =>
    encodeConnect v c
    return p.kind.header 0
  | connAck a =>
    Encoder.byte (match v with
      | .v310 => 0
      | .v311 => ConnectFlags.flagIf a.sessionPresent 1)
    Encoder.byte a.code.toUInt8
    return p.kind.header 0
  | publish m =>
    encodePublish m
    return p.kind.header m.flags
  | pubAck id | pubRec id | pubComp id | unsubAck id =>
    Encoder.uint16 id
    return p.kind.header 0
  | pubRel id =>
    Encoder.uint16 id
    return p.kind.header acknowledgedFlags
  | subscribe id wanted =>
    if wanted.isEmpty then throw (.violation .noSubscriptions)
    Encoder.uint16 id
    wanted.forM fun s => do
      Encoder.text s.filter
      Encoder.byte s.qos.toUInt8
    return p.kind.header acknowledgedFlags
  | subAck id codes =>
    if codes.isEmpty then throw (.violation .noReturnCodes)
    Encoder.uint16 id
    codes.forM fun c => Encoder.byte c.toUInt8
    return p.kind.header 0
  | unsubscribe id filters =>
    if filters.isEmpty then throw (.violation .noFilters)
    Encoder.uint16 id
    filters.forM Encoder.text
    return p.kind.header acknowledgedFlags
  | pingReq | pingResp | disconnect => return p.kind.header 0

/-- The room that is left for the first byte and the longest length. -/
def slotSize : Nat := 1 + RemainingLength.maxWidth

/-- Appends a packet as a frame. -/
def writeFrame (v : Version) (p : Packet) : Encoder Unit := do
  let start := (← get).size
  -- Room for the head of the frame, as long as it may get.
  modify fun w => (w.makeRoom slotSize).commit slotSize
  let header ← tryCatch (encode v p) fun e => do
    modify fun w => w.truncate start
    throw e
  let n := (← get).size - start - slotSize
  if RemainingLength.limit < n then
    modify fun w => w.truncate start
    throw (.violation (.bodyTooLarge p.kind n))
  -- The head is as long as the length asks for; the body moves down to it.
  modify fun w =>
    w.fillReserved start (start + slotSize) (header :: RemainingLength.digits n)

/-- The bytes of a packet as a frame of its own. -/
def toBytes (v : Version) (p : Packet) : Except Fault Bytes :=
  match (writeFrame v p).run Writer.empty with
  | .ok _ w => .ok w.written
  | .error e _ => .error e

end Packet
end Mqtt
