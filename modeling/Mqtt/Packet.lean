import Mqtt.Bytes
import Mqtt.Packet.Code
import Mqtt.Packet.Kind
/-!
# Control packets

The packets that clients and brokers exchange, free of how they are written. The protocol name and
level of a CONNECT are no part of the packet: the version under which it is written fixes them.
-/

namespace Mqtt

/-- The message that a broker is asked to send when the client is lost. -/
structure Will where
  topic : String
  payload : Bytes
  qos : QoS
  retain : Bool
deriving DecidableEq, Repr, Inhabited

/-- The packet that opens a session. -/
structure Connect where
  clientId : String
  /-- The longest silence the client promises, in seconds; 0 promises nothing. -/
  keepAlive : UInt16
  cleanSession : Bool
  username : Option String
  password : Option Bytes
  will : Option Will
deriving DecidableEq, Repr, Inhabited

/-- The broker's answer to a CONNECT. -/
structure ConnAck where
  sessionPresent : Bool
  code : ConnectCode
deriving DecidableEq, Repr, Inhabited

/-- The packet that carries a message. -/
structure Publish where
  topic : String
  payload : Bytes
  qos : QoS
  retain : Bool
  /-- Whether this is a repetition. -/
  dup : Bool
  /-- Present exactly above level 0. -/
  packetId : Option UInt16
deriving DecidableEq, Repr, Inhabited

/-- A topic filter with the level asked for. -/
structure Subscription where
  filter : String
  qos : QoS
deriving DecidableEq, Repr, Inhabited

/-- A control packet. -/
inductive Packet where
  | connect (c : Connect)
  | connAck (a : ConnAck)
  | publish (p : Publish)
  | pubAck (id : UInt16)
  | pubRec (id : UInt16)
  | pubRel (id : UInt16)
  | pubComp (id : UInt16)
  | subscribe (id : UInt16) (wanted : List Subscription)
  | subAck (id : UInt16) (codes : List SubscribeCode)
  | unsubscribe (id : UInt16) (filters : List String)
  | unsubAck (id : UInt16)
  | pingReq
  | pingResp
  | disconnect
deriving DecidableEq, Repr, Inhabited

/-- The kind of a packet. -/
def Packet.kind : Packet → PacketKind
  | connect _ => .connect
  | connAck _ => .connAck
  | publish _ => .publish
  | pubAck _ => .pubAck
  | pubRec _ => .pubRec
  | pubRel _ => .pubRel
  | pubComp _ => .pubComp
  | subscribe .. => .subscribe
  | subAck .. => .subAck
  | unsubscribe .. => .unsubscribe
  | unsubAck _ => .unsubAck
  | pingReq => .pingReq
  | pingResp => .pingResp
  | disconnect => .disconnect

/-- A CONNECT for a clean session, without credentials and without a will. -/
def Connect.plain (clientId : String) : Connect where
  clientId := clientId
  keepAlive := 60
  cleanSession := true
  username := none
  password := none
  will := none

/-- The CONNACK that opens a fresh session. -/
def ConnAck.accepted : ConnAck where
  sessionPresent := false
  code := .accepted

namespace Publish

/-- A PUBLISH at level 0. -/
def plain (topic : String) (payload : Bytes) : Publish where
  topic := topic
  payload := payload
  qos := .atMostOnce
  retain := false
  dup := false
  packetId := none

/-- Sets the level together with the packet id that it asks for. -/
def withQoS (p : Publish) (qos : QoS) (packetId : Option UInt16) : Publish :=
  { p with qos := qos, packetId := packetId }

/-- Sets the retain flag. -/
def withRetain (p : Publish) (retain : Bool) : Publish :=
  { p with retain := retain }

end Publish
end Mqtt
