/-!
# Packet kinds

The fourteen kinds of control packet. The high half of the first byte of a frame is the number of
its kind, and the low half holds flags.
-/

namespace Mqtt

/-- A kind of control packet. -/
inductive PacketKind where
  | connect
  | connAck
  | publish
  | pubAck
  | pubRec
  | pubRel
  | pubComp
  | subscribe
  | subAck
  | unsubscribe
  | unsubAck
  | pingReq
  | pingResp
  | disconnect
deriving DecidableEq, Repr, Inhabited

namespace PacketKind

/-- The number of a kind. -/
def number : PacketKind → UInt8
  | connect => 1
  | connAck => 2
  | publish => 3
  | pubAck => 4
  | pubRec => 5
  | pubRel => 6
  | pubComp => 7
  | subscribe => 8
  | subAck => 9
  | unsubscribe => 10
  | unsubAck => 11
  | pingReq => 12
  | pingResp => 13
  | disconnect => 14

/-- The kind with the given number. The numbers 0 and 15 are reserved. -/
def ofNumber? : UInt8 → Option PacketKind
  | 1 => some connect
  | 2 => some connAck
  | 3 => some publish
  | 4 => some pubAck
  | 5 => some pubRec
  | 6 => some pubRel
  | 7 => some pubComp
  | 8 => some subscribe
  | 9 => some subAck
  | 10 => some unsubscribe
  | 11 => some unsubAck
  | 12 => some pingReq
  | 13 => some pingResp
  | 14 => some disconnect
  | _ => none

/-- The first byte of a frame of this kind, with the given flags in its low half. -/
def header (k : PacketKind) (flags : UInt8) : UInt8 :=
  (k.number <<< 4) ||| (flags &&& 0x0F)

/-- The name of a kind as the protocol's own documents write it. -/
def title : PacketKind → String
  | connect => "CONNECT"
  | connAck => "CONNACK"
  | publish => "PUBLISH"
  | pubAck => "PUBACK"
  | pubRec => "PUBREC"
  | pubRel => "PUBREL"
  | pubComp => "PUBCOMP"
  | subscribe => "SUBSCRIBE"
  | subAck => "SUBACK"
  | unsubscribe => "UNSUBSCRIBE"
  | unsubAck => "UNSUBACK"
  | pingReq => "PINGREQ"
  | pingResp => "PINGRESP"
  | disconnect => "DISCONNECT"

/-- The name of a kind in the description of a packet. -/
def name : PacketKind → String
  | connect => "Connect"
  | connAck => "ConnAck"
  | publish => "Publish"
  | pubAck => "PubAck"
  | pubRec => "PubRec"
  | pubRel => "PubRel"
  | pubComp => "PubComp"
  | subscribe => "Subscribe"
  | subAck => "SubAck"
  | unsubscribe => "Unsubscribe"
  | unsubAck => "UnsubAck"
  | pingReq => "PingReq"
  | pingResp => "PingResp"
  | disconnect => "Disconnect"

@[simp] theorem ofNumber?_number (k : PacketKind) : ofNumber? k.number = some k := by
  cases k <;> rfl

end PacketKind
end Mqtt
