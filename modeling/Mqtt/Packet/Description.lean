import Mqtt.Packet
import Mqtt.Text.Described
import Mqtt.Text.Quoted
/-!
# Descriptions of packets

The one-line form of a packet in the message about a packet that nobody expected.
-/

namespace Mqtt

open Text

/-- A granted level or a refusal. -/
def SubscribeCode.description : SubscribeCode → String
  | granted q => wrapped "Success" q.name
  | refused => "Failure"

/-- A will, with its fields. -/
def Will.description (w : Will) : String :=
  described "LastWill"
    [("topic", quoted w.topic), ("payload", quotedBytes w.payload), ("qos", w.qos.name),
      ("retain", truth w.retain)]

/-- A CONNECT, with its fields. -/
def Connect.description (c : Connect) : String :=
  described "Connect"
    [("client_id", quoted c.clientId), ("keep_alive", toString c.keepAlive.toNat),
      ("clean_session", truth c.cleanSession), ("username", optional (c.username.map quoted)),
      ("password", optional (c.password.map quotedBytes)),
      ("will", optional (c.will.map Will.description))]

/-- A CONNACK, with its fields. -/
def ConnAck.description (a : ConnAck) : String :=
  described "ConnAck" [("session_present", truth a.sessionPresent), ("code", a.code.name)]

/-- A PUBLISH, with its fields. -/
def Publish.description (p : Publish) : String :=
  described "Publish"
    [("topic", quoted p.topic), ("payload", quotedBytes p.payload), ("qos", p.qos.name),
      ("retain", truth p.retain), ("dup", truth p.dup),
      ("pkid", optional (p.packetId.map fun id => toString id.toNat))]

/-- A subscription, with its fields. -/
def Subscription.description (s : Subscription) : String :=
  described "TopicFilter" [("path", quoted s.filter), ("qos", s.qos.name)]

/-- A packet, with its fields. -/
def Packet.description (p : Packet) : String :=
  let id (n : UInt16) : String := toString n.toNat
  match p with
  | connect c => wrapped p.kind.name c.description
  | connAck a => wrapped p.kind.name a.description
  | publish m => wrapped p.kind.name m.description
  | pubAck n | pubRec n | pubRel n | pubComp n | unsubAck n => wrapped p.kind.name (id n)
  | subscribe n wanted =>
    wrapped p.kind.name <| described "Subscribe"
      [("pkid", id n), ("filters", listed (wanted.map Subscription.description))]
  | subAck n codes =>
    wrapped p.kind.name <| described "SubAck"
      [("pkid", id n), ("return_codes", listed (codes.map SubscribeCode.description))]
  | unsubscribe n filters =>
    wrapped p.kind.name <| described "Unsubscribe"
      [("pkid", id n), ("topics", listed (filters.map quoted))]
  | pingReq | pingResp | disconnect => p.kind.name

end Mqtt
