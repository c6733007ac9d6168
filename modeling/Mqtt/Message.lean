import Mqtt.Packet
/-!
# Messages

A message as applications see it: what a PUBLISH carries, less what only its delivery needs.
-/

namespace Mqtt

/-- A message. -/
structure Message where
  topic : String
  payload : Bytes
  qos : QoS
  retain : Bool
deriving DecidableEq, Repr, Inhabited

namespace Message

/-- A message at level 0 that is not retained. -/
def plain (topic : String) (payload : Bytes) : Message := ⟨topic, payload, .atMostOnce, false⟩

/-- Sets the retain flag. -/
def withRetain (m : Message) (retain : Bool) : Message := { m with retain := retain }

/-- Sets the level. -/
def withQoS (m : Message) (qos : QoS) : Message := { m with qos := qos }

end Message

/-- The message that a PUBLISH carries. -/
def Publish.message (p : Publish) : Message := ⟨p.topic, p.payload, p.qos, p.retain⟩

end Mqtt
