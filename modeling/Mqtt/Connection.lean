import Mqtt.Text.Described
import Mqtt.Text.Quoted
/-!
# Connections

A connection as a host sees it before a broker or a client takes it over: the label of the peer,
and the token that closes the connection.
-/

namespace Mqtt

/-- A connection. -/
structure Connection where
  /-- The label of the peer. -/
  peer : String
  /-- Whether a token of the host closes the connection. Without one, nobody else can. -/
  hostToken : Bool
deriving DecidableEq, Repr, Inhabited

namespace Connection

/-- A connection to a peer that is not known, without a token of the host. -/
def unknown : Connection := ⟨"unknown", false⟩

/-- Names the peer. -/
def withPeer (c : Connection) (peer : String) : Connection := { c with peer := peer }

/-- Hands the connection a token of the host. -/
def withHostToken (c : Connection) : Connection := { c with hostToken := true }

/-- Whether the connection is cancelled, given whether the host's token is. -/
def isCancelled (c : Connection) (hostCancelled : Bool) : Bool := c.hostToken && hostCancelled

/-- A connection with its peer and whether it is cancelled. -/
def description (c : Connection) (hostCancelled : Bool) : String :=
  Text.described "Connection"
    [("peer", Text.quoted c.peer), ("cancelled", Text.truth (c.isCancelled hostCancelled))]

end Connection
end Mqtt
