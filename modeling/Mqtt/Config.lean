import Mqtt.Address
import Mqtt.Config.Value
import Mqtt.Packet
/-!
# Settings

The settings of a broker and of a client, how they are stored, and which of them a client can be
started with.
-/

namespace Mqtt

/-- The largest packet that is taken unless something else is set. -/
def defaultMaxPacketSize : UInt64 := 1048576

/-- The address that is used unless something else is set. -/
def defaultAddr : String := "127.0.0.1:1883"

/-! ### Versions -/

/-- A stored version: its short name, or a record with that name and nothing to say about it. -/
def Version.ofValue? : Value → Option Version
  | .text name => Version.ofName? name
  | .record [(name, .null)] => Version.ofName? name
  | _ => none

/-! ### Brokers -/

/-- The settings of a broker. -/
structure BrokerConfig where
  /-- Where to listen. -/
  addr : String
  /-- The largest packet that is taken from a client. -/
  maxPacketSize : UInt64
deriving DecidableEq, Repr, Inhabited

namespace BrokerConfig

/-- The settings for an address. -/
def ofAddr (addr : String) : BrokerConfig := ⟨addr, defaultMaxPacketSize⟩

/-- Reads stored settings. -/
def ofValue? (v : Value) : Option BrokerConfig := do
  match ← v.settings? ["addr", "max_packet_size"] with
  | [addr, maxPacketSize] =>
    return {
      addr := ← Value.orDefault Value.text? defaultAddr addr
      maxPacketSize := ← Value.orDefault Value.uint64? defaultMaxPacketSize maxPacketSize }
  | _ => none

/-- The stored form of settings. -/
def toValue (c : BrokerConfig) : Value :=
  .record [("addr", .text c.addr), ("max_packet_size", .integer c.maxPacketSize.toNat)]

end BrokerConfig

/-! ### Clients -/

/-- The settings of a client. -/
structure ClientConfig where
  /-- Where the broker is. -/
  addr : String
  /-- The client id. An empty one asks the broker for one, for a clean session only. -/
  clientId : String
  username : Option String
  password : Option Bytes
  /-- The longest silence in seconds; 0 for any. -/
  keepAlive : UInt16
  cleanSession : Bool
  /-- The largest packet that is taken from the broker. -/
  maxPacketSize : UInt64
  version : Version
  /-- Whether the client pings the broker on its own. -/
  autoKeepAlive : Bool
deriving DecidableEq, Repr, Inhabited

namespace ClientConfig

/-- The settings for an address and a client id. -/
def ofAddr (addr clientId : String) : ClientConfig where
  addr := addr
  clientId := clientId
  username := none
  password := none
  keepAlive := 60
  cleanSession := true
  maxPacketSize := defaultMaxPacketSize
  version := .v311
  autoKeepAlive := true

/-- The settings with a username and a password. -/
def withCredentials (c : ClientConfig) (username : String) (password : Bytes) : ClientConfig :=
  { c with username := some username, password := some password }

/-- The names under which the settings are stored, in order. -/
def names : List String :=
  ["addr", "client_id", "username", "password", "keep_alive", "clean_session",
    "max_packet_size", "protocol_version", "auto_keepalive"]

/-- Reads stored settings. -/
def ofValue? (v : Value) : Option ClientConfig := do
  let d := ofAddr defaultAddr ""
  match ← v.settings? names with
  | [addr, clientId, username, password, keepAlive, cleanSession, maxPacketSize, version,
      autoKeepAlive] =>
    return {
      addr := ← Value.orDefault Value.text? d.addr addr
      clientId := ← Value.orDefault Value.text? d.clientId clientId
      username := ← Value.orDefault (Value.orNull Value.text?) d.username username
      password := ← Value.orDefault (Value.orNull Value.bytes?) d.password password
      keepAlive := ← Value.orDefault Value.uint16? d.keepAlive keepAlive
      cleanSession := ← Value.orDefault Value.truth? d.cleanSession cleanSession
      maxPacketSize := ← Value.orDefault Value.uint64? d.maxPacketSize maxPacketSize
      version := ← Value.orDefault Version.ofValue? d.version version
      autoKeepAlive := ← Value.orDefault Value.truth? d.autoKeepAlive autoKeepAlive }
  | _ => none

/-- The stored form of settings. -/
def toValue (c : ClientConfig) : Value :=
  .record [("addr", .text c.addr), ("client_id", .text c.clientId),
    ("username", Value.ofOption .text c.username),
    ("password", Value.ofOption Value.ofBytes c.password),
    ("keep_alive", .integer c.keepAlive.toNat), ("clean_session", .truth c.cleanSession),
    ("max_packet_size", .integer c.maxPacketSize.toNat),
    ("protocol_version", .text c.version.name), ("auto_keepalive", .truth c.autoKeepAlive)]

/-- Whether a client can be started with these settings. -/
def validate (c : ClientConfig) : Except Fault Unit :=
  if c.clientId.isEmpty && !c.cleanSession then .error .emptyClientIdKept
  else if c.maxPacketSize < 2 then .error (.limitTooSmall c.maxPacketSize.toNat)
  else .ok ()

/-- The CONNECT that a client with these settings sends. -/
def connect (c : ClientConfig) : Connect where
  clientId := c.clientId
  keepAlive := c.keepAlive
  cleanSession := c.cleanSession
  username := c.username
  password := c.password
  will := none

/-- The host and port that a client with these settings connects to, once the settings hold. -/
def target (c : ClientConfig) : Except Fault String := do
  c.validate
  Address.resolve c.addr

end ClientConfig
end Mqtt
