import Mqtt.Broker.Step
/-!
# Brokers: what others do to them

The program that hosts a broker hands it connections, publishes messages of its own, writes to
single sessions and ends them; the peers write, read, and close their ends of the connections; and
time passes. `Broker.accept` says what each of these does at once. Calls that take time become
tasks of the broker and answer later.

A run is any sequence of such inputs and of moves of the broker's tasks.
-/

namespace Mqtt

/-- What a broker meets from outside. -/
inductive BrokerInput where
  /-- A connection with a peer, in pipes of the given capacity. -/
  | opens (label : String) (capacity : Nat)
  /-- The peer writes; what does not fit is not written. -/
  | peerWrites (c : ConnId) (bs : Bytes)
  /-- The peer reads at most so many bytes. -/
  | peerReads (c : ConnId) (n : Nat)
  /-- The peer says that it will write nothing more. -/
  | peerShuts (c : ConnId)
  /-- The peer gives up its end. -/
  | peerDrops (c : ConnId)
  /-- The token of a connection is cancelled. -/
  | cancels (c : ConnId)
  /-- The host ends a session. -/
  | closes (c : ConnId)
  /-- The host shuts the broker down. -/
  | shutsDown
  /-- The host publishes a message. -/
  | publishes (call : Nat) (topic : String) (payload : Bytes)
  /-- The host writes a packet to a session. -/
  | writesPacket (call : Nat) (c : ConnId) (p : Packet)
  /-- The host writes a frame to a session. -/
  | writesFrame (call : Nat) (c : ConnId) (f : Frame)
  /-- The host tells the broker to listen. -/
  | serves (call : Nat)
  /-- So many milliseconds pass. -/
  | elapses (millis : Nat)

namespace Broker

/-- The frame of a message of the broker's own. A message at level 0 has the same bytes in every
version. -/
def publishFrame (topic : String) (payload : Bytes) : Except Fault Frame := do
  Topic.validate topic
  let bs ← (Packet.publish (.plain topic payload)).toBytes .v311
  match ← Frame.parse bs with
  | some (f, _) => return f
  | none => violate .unframedPublish

/-- Changes the connection between a peer and the broker. -/
def modifyLink (b : Broker) (c : ConnId) (f : Link → Link) : Broker :=
  b.modifyConn c fun k => { k with link := f k.link }

/-- A peer is connected. -/
def addConn (b : Broker) (label : String) (capacity : Nat) : Broker :=
  { b with conns := b.conns ++ [.fresh label capacity b.maxPacketSize] }

/-- A call of the host begins. -/
def addCall (b : Broker) (call : Nat) (h : HostCall) : Broker :=
  { b with calls := b.calls ++ [(call, h)] }

/-- Begins to publish a message. -/
def publish (b : Broker) (call : Nat) (topic : String) (payload : Bytes) :
    Broker × List Observation :=
  match publishFrame topic payload with
  | .error f => (b, [.answered call (.finished (.error f))])
  | .ok f => (b.addCall call (.publish (b.fanOut topic f)), [])

/-- Begins to write to a session. -/
def write (b : Broker) (call : Nat) (c : ConnId) (frame : Version → Except Fault Bytes) :
    Broker × List Observation :=
  match b.session? c with
  | none => (b, [])
  | some s => (b.addCall call (.write ⟨c, frame s.version, .starting⟩), [])

/-- Begins to listen. A broker listens once at most. -/
def serve (b : Broker) (call : Nat) : Broker × List Observation :=
  if b.serving then (b, [.answered call (.finished (.error .alreadyRunning))])
  else ({ b with serving := true }.addCall call .serve, [])

/-- Shuts the broker down. -/
def shutDown (b : Broker) : Broker := { b with shutdown := true }

/-- What an input does at once. -/
def accept (b : Broker) : BrokerInput → Broker × List Observation
  | .opens label capacity => (b.addConn label capacity, [])
  | .peerWrites c bs =>
    (b.modifyLink c fun l =>
      match l.up.write bs with
      | .took up _ _ => { l with up := up }
      | _ => l, [])
  | .peerReads c n =>
    (b.modifyLink c fun l =>
      match l.down.read n with
      | .got _ down => { l with down := down }
      | _ => l, [])
  | .peerShuts c => (b.modifyLink c fun l => { l with up := l.up.close }, [])
  | .peerDrops c => (b.modifyLink c Link.drop, [])
  | .cancels c => (b.modifyConn c fun k => { k with cancelled := true }, [])
  | .closes c => (b.cancelSession c, [])
  | .shutsDown => (b.shutDown, [])
  | .publishes call topic payload => b.publish call topic payload
  | .writesPacket call c p => b.write call c p.toBytes
  | .writesFrame call c f => b.write call c fun _ => f.toBytes
  | .serves call => b.serve call
  | .elapses millis => ({ b with now := b.now + millis }, [])

/-! ### Runs -/

/-- What comes next in a run: an input or a move. -/
inductive Event where
  | input (i : BrokerInput)
  | move (a : Action)

/-- What an event leads to, if it is possible. -/
def next? (b : Broker) : Event → Option (Broker × List Observation)
  | .input i => some (b.accept i)
  | .move a => b.step a

/-- No task can move while time stands still. -/
def Quiescent (b : Broker) : Prop := ∀ a, b.step a = none

end Broker
end Mqtt
