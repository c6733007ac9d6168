import Mqtt.Client.PacketIds
import Mqtt.Config
import Mqtt.Frame.Assembler
import Mqtt.Message
import Mqtt.Packet.Decode
import Mqtt.Stream.Sending
import Mqtt.Topic
/-!
# Clients: what there is

A client opens a session with a CONNECT. From then on a reading task owns the stream from the
broker: it acknowledges messages, keeps those that some filter wants, and hands every
acknowledgement to the call that waits for its packet id. A second task pings the broker from time
to time. Calls of the program that uses the client come on top; all of them share the stream
towards the broker.

This module holds the state; `Mqtt.Client.Step` says how it moves.
-/

namespace Mqtt

/-- What acts on a client: the reading task, the pinging task, or a call by its number. -/
inductive Party where
  | reader
  | keeper
  | call (k : Nat)
deriving DecidableEq, Repr, Inhabited

/-- What a request is for. -/
inductive Purpose where
  | publish
  /-- The filters asked for, and those of them that were not active before. -/
  | subscribe (wanted : List Subscription) (added : List String)
  | unsubscribe (filters : List String)
deriving Inhabited

/-- Where the acknowledgement of a request arrives. -/
inductive Slot where
  /-- It has not come. -/
  | waiting
  | filled (p : Packet)
  /-- It will not come. -/
  | lost
deriving Inhabited

/-- A call that has not returned. -/
inductive Call where
  /-- Sends a packet that is not acknowledged. -/
  | send (frame : Except Fault Bytes) (state : Sending)
  /-- Sends a packet and waits for its acknowledgement. The sending is over when it has no state. -/
  | request (purpose : Purpose) (id : UInt16) (frame : Except Fault Bytes) (slot : Slot)
      (state : Option Sending)
  /-- Waits for a message, perhaps not for ever. -/
  | receive (deadline : Option Nat) (entered : Bool)
  /-- Says goodbye. -/
  | leave (frame : Except Fault Bytes) (state : Sending)
  /-- Shuts the stream behind a goodbye, with what came of that; perhaps in line for it. -/
  | leaving (result : Except Fault Unit) (entered : Bool)
deriving Inhabited

/-- What a call comes to. -/
inductive CallAnswer where
  | failed (f : Fault)
  | done
  | packetId (id : UInt16)
  | codes (codes : List SubscribeCode)
  /-- A message, or none in time. -/
  | message (m : Option Message)

/-- Where the opening of the session stands. -/
inductive Stage where
  /-- The CONNECT is being written; these bytes are left. -/
  | connecting (left : Bytes)
  /-- Waits for the CONNACK. -/
  | awaiting
  /-- The session is open. -/
  | running
  /-- The stream has been given up. -/
  | closed
deriving Inhabited

/-- Where the reading task stands. -/
inductive Reader where
  /-- Waits for a frame. -/
  | reading
  /-- Acknowledges a packet, and then keeps the message it brought, if any. -/
  | answering (frame : Except Fault Bytes) (state : Sending) (p : Option Publish)
  | over
deriving Inhabited

/-- Where the pinging task stands. -/
inductive Keeper where
  /-- Sleeps until the given time. -/
  | sleeping (wake : Nat)
  | pinging (state : Sending)
  | over
deriving Inhabited

/-- A client. -/
structure Client where
  config : ClientConfig
  /-- The time, in milliseconds. -/
  now : Nat
  stage : Stage
  /-- Whether the token of the connection is cancelled. -/
  cancelled : Bool
  /-- Whether the program has given the client up. -/
  dropped : Bool
  assembler : Assembler
  /-- Who may write to the broker. -/
  turnstile : Turnstile Party
  ids : PacketIds
  /-- The active filters. -/
  filters : List String
  reader : Reader
  keeper : Keeper
  /-- The messages that nobody has received, oldest first. -/
  inbox : List Message
  /-- Whether more messages may come. -/
  inboxOpen : Bool
  /-- Who may receive. -/
  receivers : Turnstile Nat
  /-- The calls that have not returned, by number. -/
  calls : Std.TreeMap Nat Call

/-- What can be seen of a client from outside. -/
inductive ClientObservation where
  /-- The session is open, or could not be opened. -/
  | opened (r : Except Fault Unit)
  /-- A call has returned. -/
  | answered (k : Nat) (a : CallAnswer)
  /-- The stream towards the broker has taken bytes. -/
  | wrote (by_ : Party) (bs : Bytes)

namespace Client

/-- A client whose CONNECT has these bytes. -/
def fresh (config : ClientConfig) (connect : Bytes) (now : Nat) : Client where
  config := config
  now := now
  stage := .connecting connect
  cancelled := false
  dropped := false
  assembler := .empty config.maxPacketSize.toNat
  turnstile := .empty
  ids := .empty
  filters := []
  reader := .over
  keeper := .over
  inbox := []
  inboxOpen := true
  receivers := .empty
  calls := ∅

instance : Inhabited Client := ⟨fresh default [] 0⟩

/-- Whether the client is running. -/
def isRunning (c : Client) : Bool := !c.cancelled

/-- The milliseconds between two pings, if the client pings. -/
def pingInterval (config : ClientConfig) : Option Nat :=
  if config.autoKeepAlive && config.keepAlive != 0 then
    some (1000 * max (config.keepAlive.toNat / 2) 1)
  else none

/-- Whether some active filter wants messages on a topic. -/
def isSubscribed (c : Client) (topic : String) : Bool :=
  c.filters.any fun f => Topic.matchedBy topic f

/-- Makes a filter active. -/
def addFilter (c : Client) (f : String) : Client :=
  if c.filters.contains f then c else { c with filters := c.filters ++ [f] }

/-- Makes a filter inactive. -/
def dropFilter (c : Client) (f : String) : Client :=
  { c with filters := c.filters.filter (· != f) }

/-- Makes filters active; the answer holds those that were not. -/
def addFilters (c : Client) : List String → Client × List String
  | [] => (c, [])
  | f :: rest =>
    let added := !c.filters.contains f
    let (c, more) := (c.addFilter f).addFilters rest
    (c, if added then f :: more else more)

/-- The bytes of a packet for the broker. -/
def frameOf (c : Client) (p : Packet) : Except Fault Bytes := p.toBytes c.config.version

/-- Changes where the acknowledgement of a call stands, if the call still waits for it. -/
def fillSlot (slot : Slot) : Call → Call
  | .request purpose id frame .waiting state => .request purpose id frame slot state
  | call => call

/-- Changes a call. -/
def setCall (c : Client) (k : Nat) (call : Call) : Client :=
  { c with calls := c.calls.insert k call }

/-- An acknowledgement has come: its id is free, and the call that waited for it gets it. -/
def complete (c : Client) (id : UInt16) (p : Packet) : Client :=
  let (holder, ids) := c.ids.free id
  let calls := match holder with
    | some k => c.calls.modify k (fillSlot (.filled p))
    | none => c.calls
  { c with ids := ids, calls := calls }

/-- A request goes away: the id it was given is free, and whoever waits for an acknowledgement of
that id now gets none. -/
def release (c : Client) (k : Nat) (id : UInt16) : Client :=
  let (holder, ids) := c.ids.free id
  -- After an acknowledgement the id may belong to another call by now.
  let calls := c.calls.erase k
  let calls := match holder with
    | some other => calls.modify other (fillSlot .lost)
    | none => calls
  { c with ids := ids, calls := calls }

/-- The reading task ends: the client is no longer running, nobody gets an acknowledgement any
more, and no message comes. -/
def endReader (c : Client) : Client :=
  { c with
    cancelled := true
    reader := .over
    inboxOpen := false
    ids := { c.ids with taken := ∅ }
    calls := c.calls.map fun _ => fillSlot .lost }

end Client
end Mqtt
