import Mqtt.Frame.Assembler
import Mqtt.Message
import Mqtt.Packet.Decode
import Mqtt.Stream.Sending
import Mqtt.Topic.Index
/-!
# Brokers: what there is

A broker serves each connection with a task of its own. The task reads the first frame, which must
be a CONNECT, opens a session, and then takes one frame after the other until the session ends.
The stream towards the client belongs to the session and not to the task: other tasks forward
messages into it, and so does the program that hosts the broker.

This module holds the state; `Mqtt.Broker.Step` says how it moves. Each task stands at a point of
its program (`Phase`), and at each such point another task may come in between.
-/

namespace Mqtt

/-- The number of a connection, in the order in which they were opened. -/
abbrev ConnId := Nat

/-- What acts on a broker: the task of a connection, or a call of the host by its number. -/
inductive Task where
  | conn (c : ConnId)
  | host (k : Nat)
deriving DecidableEq, Repr, Inhabited

/-- A session: what other tasks see of a connection whose CONNECT has been accepted. -/
structure Session where
  /-- The number of the session. -/
  id : Nat
  /-- The client id; made up by the broker if the client gave none. -/
  clientId : String
  version : Version
  /-- The longest silence in milliseconds, if the client promised one. -/
  patience : Option Nat
  filters : FilterIndex
  /-- Who may write to the client. -/
  turnstile : Turnstile Task
  /-- Whether the session has been told to end. The broker's own shutdown ends it as well. -/
  cancelled : Bool
deriving Inhabited

/-- A frame on its way into the stream of a session. -/
structure Delivery where
  target : ConnId
  /-- The frame, or the reason why it cannot be laid out. -/
  frame : Except Fault Bytes
  state : Sending
deriving Inhabited

/-- A message on its way to every session that wants it. -/
structure FanOut where
  topic : String
  /-- The frame that is forwarded. -/
  frame : Except Fault Bytes
  /-- The sessions that have not been looked at, of those registered when it began. -/
  left : List ConnId
  /-- How many sessions have got the frame. -/
  delivered : Nat
  /-- The delivery that is under way. -/
  current : Option Delivery
deriving Inhabited

/-- What a task goes on with once its answer is written. -/
inductive AfterReply where
  /-- The session is open. -/
  | announce
  /-- The next frame. -/
  | read
  /-- The message that was acknowledged is forwarded. -/
  | forward (p : Publish) (f : Frame)
deriving Inhabited

/-- Where the task of a connection stands. -/
inductive Phase where
  /-- Waits for the first frame. -/
  | greeting
  /-- Waits for a frame, since the given time. -/
  | reading (since : Nat)
  /-- Writes an answer. -/
  | replying (d : Delivery) (after : AfterReply)
  /-- Forwards a message. -/
  | forwarding (p : Publish) (o : FanOut)
  /-- The session has ended; the stream is still to be shut. -/
  | closing (result : Except Fault Unit)
  /-- In line to shut the stream. -/
  | shutting (result : Except Fault Unit)
  /-- Done. -/
  | over (result : Except Fault Unit)
deriving Inhabited

/-- A connection and the task that serves it. -/
structure Conn where
  /-- The label of the peer. -/
  label : String
  link : Link
  /-- Whether the token of the connection is cancelled. -/
  cancelled : Bool
  assembler : Assembler
  phase : Phase
  session : Option Session
deriving Inhabited

/-- A call of the host that has not returned. -/
inductive HostCall where
  /-- A message of the broker's own. -/
  | publish (o : FanOut)
  /-- A frame for one session. -/
  | write (d : Delivery)
  /-- Listens until the broker shuts down. -/
  | serve
deriving Inhabited

/-- A broker. -/
structure Broker where
  /-- The largest packet that is taken from a client. -/
  maxPacketSize : Nat
  /-- The time, in milliseconds. -/
  now : Nat
  conns : List Conn
  /-- The connections with a session that has not ended, in the order of their sessions. -/
  registry : List ConnId
  /-- The number of the next session. -/
  nextId : Nat
  /-- Whether the broker has been shut down. -/
  shutdown : Bool
  /-- Whether the broker has been told to listen. -/
  serving : Bool
  /-- The calls of the host, by number. -/
  calls : List (Nat × HostCall)
deriving Inhabited

/-- What a call of the host comes to. -/
inductive HostAnswer where
  /-- To so many sessions a message was delivered. -/
  | delivered (n : Nat)
  | finished (r : Except Fault Unit)

/-- What can be seen of a broker from outside. -/
inductive Observation where
  /-- A client has connected. -/
  | connected (c : ConnId) (clientId : String)
  /-- A client is gone. -/
  | disconnected (c : ConnId) (clientId : String)
  /-- A client has published a message. -/
  | message (c : ConnId) (clientId : String) (m : Message)
  /-- A connection has been served to its end. -/
  | ended (c : ConnId) (result : Except Fault Unit)
  /-- The stream towards a client has taken bytes. -/
  | wrote (c : ConnId) (by_ : Task) (bs : Bytes)
  /-- A call of the host has returned. -/
  | answered (k : Nat) (a : HostAnswer)

/-- The bytes of a frame. -/
def Frame.toBytes (f : Frame) : Except Fault Bytes :=
  match f.write.run Writer.empty with
  | .ok _ w => .ok w.written
  | .error e _ => .error e

namespace Session

/-- The patience with a client that promised to be heard every `keepAlive` seconds: half as long
again. -/
def patienceFor (keepAlive : UInt16) : Option Nat :=
  if keepAlive = 0 then none else some (keepAlive.toNat * 1500)

/-- A session by its client id. -/
def display (s : Session) : String := s.clientId

/-- A session with its fields. -/
def description (s : Session) (label : String) : String :=
  Text.described "SessionHandle"
    [("id", toString s.id), ("peer", Text.quoted label),
      ("client_id", Text.optional (some (Text.quoted s.clientId))), ("version", s.version.name)]

end Session

namespace Delivery

/-- A packet for a session. -/
def ofPacket (target : ConnId) (v : Version) (p : Packet) : Delivery :=
  ⟨target, p.toBytes v, .starting⟩

end Delivery

namespace Conn

/-- A connection that has just been opened. -/
def fresh (label : String) (capacity maxPacketSize : Nat) : Conn where
  label := label
  link := .empty capacity
  cancelled := false
  assembler := .empty maxPacketSize
  phase := .greeting
  session := none

end Conn

namespace Broker

/-- A broker without connections. -/
def start (maxPacketSize : Nat) (now : Nat) : Broker where
  maxPacketSize := maxPacketSize
  now := now
  conns := []
  registry := []
  nextId := 1
  shutdown := false
  serving := false
  calls := []

/-- Changes one connection. -/
def modifyConn (b : Broker) (c : ConnId) (f : Conn → Conn) : Broker :=
  { b with conns := b.conns.modify c f }

/-- Moves the task of a connection on. -/
def setPhase (b : Broker) (c : ConnId) (phase : Phase) : Broker :=
  b.modifyConn c fun k => { k with phase := phase }

/-- Changes the session of a connection. -/
def modifySession (b : Broker) (c : ConnId) (f : Session → Session) : Broker :=
  b.modifyConn c fun k => { k with session := k.session.map f }

/-- The session of a connection. -/
def session? (b : Broker) (c : ConnId) : Option Session := b.conns[c]? >>= Conn.session

/-- Whether a session is to end. -/
def isCancelled (b : Broker) (s : Session) : Bool := s.cancelled || b.shutdown

/-- Tells a session to end. -/
def cancelSession (b : Broker) (c : ConnId) : Broker :=
  b.modifySession c fun s => { s with cancelled := true }

/-- Whether a session wants messages on a topic. -/
def isSubscribed (b : Broker) (c : ConnId) (topic : String) : Bool :=
  (b.session? c).any fun s => s.filters.matchesTopic topic

/-- Begins to forward a frame to every session registered now. -/
def fanOut (b : Broker) (topic : String) (f : Frame) : FanOut where
  topic := topic
  frame := f.toBytes
  left := b.registry
  delivered := 0
  current := none

/-- The call of the host with a number. -/
def call? (b : Broker) (k : Nat) : Option HostCall := b.calls.lookup k

/-- Changes a call of the host. -/
def setCall (b : Broker) (k : Nat) (h : HostCall) : Broker :=
  { b with calls := b.calls.map fun (n, old) => if n = k then (n, h) else (n, old) }

/-- A call of the host has returned. -/
def dropCall (b : Broker) (k : Nat) : Broker :=
  { b with calls := b.calls.filter fun call => call.1 != k }

end Broker
end Mqtt
