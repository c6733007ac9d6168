/-!
# Protocol versions

The two versions of the protocol that are spoken. They differ in the name and level that a CONNECT
carries and in the first byte of a CONNACK; everything else is common.
-/

namespace Mqtt

/-- A version of the protocol. -/
inductive Version where
  /-- MQTT 3.1. -/
  | v310
  /-- MQTT 3.1.1. -/
  | v311
deriving DecidableEq, Repr, Inhabited

namespace Version

/-- The protocol name that a CONNECT of this version carries. -/
def protocolName : Version → String
  | v310 => "MQIsdp"
  | v311 => "MQTT"

/-- The protocol level that a CONNECT of this version carries. -/
def level : Version → UInt8
  | v310 => 3
  | v311 => 4

/-- The short name, as settings and reports write it. -/
def name : Version → String
  | v310 => "V310"
  | v311 => "V311"

/-- The name in prose. -/
def title : Version → String
  | v310 => "MQTT 3.1"
  | v311 => "MQTT 3.1.1"

/-- The version with the given short name. -/
def ofName? : String → Option Version
  | "V310" => some v310
  | "V311" => some v311
  | _ => none

end Version
end Mqtt
