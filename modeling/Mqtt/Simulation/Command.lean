import Mqtt.Simulation.Report
import Mqtt.Simulation.Schedule
/-!
# Scripts

A script is a list of steps, each of which does one thing in a world: to a hand-driven peer, to the
broker, to one of its sessions, or to a client. `World.runScript` runs a script and reports after
each step.

A call that takes time is begun by its step and moves until it has to wait, before anything else
moves. If it has returned by then, its answer is the result of the step; otherwise the answer comes
in a later report, or never.
-/

namespace Mqtt.Simulation

/-- What the host does to a session. -/
inductive SessionCall where
  | close
  | describe
  | isSubscribed (topic : String)
  | writePacket (p : Packet)
  | writeFrame (f : Frame)

/-- What a step does. -/
inductive Command where
  /-- A hand-driven peer connects to the broker, in pipes of the given capacity. It may not be
  reading at first. -/
  | connects (peer : String) (capacity : Nat) (held : Bool)
  /-- A peer sends bytes, if there are any to send. -/
  | sends (peer : String) (bs : Except Fault Bytes)
  /-- A peer gives up its end of the connection. -/
  | closes (peer : String)
  /-- A peer says that it will send nothing more. -/
  | halfCloses (peer : String)
  /-- A peer stops reading. -/
  | holds (peer : String)
  /-- A peer reads again. -/
  | releases (peer : String)
  /-- The token that a name stands for is cancelled: the broker's for the connection of that name,
  or that of a client which a hand-driven peer serves, whichever came last. -/
  | cancels (connection : String)
  /-- So many milliseconds pass. -/
  | elapses (millis : Nat)
  /-- The broker publishes a message of its own. -/
  | publishes (topic : String) (payload : Bytes)
  /-- The broker is shut down. -/
  | shutsDown
  /-- The broker is told to listen. -/
  | listens
  /-- The registry is counted. -/
  | counts
  /-- The sessions that want messages on a topic are listed. -/
  | listsSubscribed (topic : String)
  /-- Something is done to the session with a number. -/
  | session (id : Nat) (call : SessionCall)
  /-- A client opens a session, with the broker or with a hand-driven peer of its name. -/
  | joins (client : String) (config : ClientConfig) (atBroker : Bool)
  /-- A client is called. -/
  | calls (client : String) (call : ClientCall)
  /-- A client publishes an empty acknowledged message so many times over. Each call is given up as
  soon as it has to wait, or else it is kept: it holds its packet id and whatever else it has, and
  does not go on. -/
  | publishesMany (client : String) (topic : String) (count : Nat) (keeping : Bool)
  /-- The program is done with a client. -/
  | leaves (client : String)
  /-- The step holds settings that cannot be read. -/
  | unreadable
  /-- The step asks for a value that there is none of. -/
  | fails (f : Fault)

/-- A step of a script. -/
structure Step where
  command : Command
  /-- Whether the world settles before the report. -/
  settles : Bool

/-- What a connection holds unread unless a script says otherwise. -/
def defaultCapacity : Nat := 4194304

/-- Whether the end of the connection has two names for a call, of which either may come: the token
is cancelled and the acknowledgement is lost at the same time. -/
def endsEitherWay : ClientCall → Bool
  | .publishAcknowledged .. | .subscribe .. | .unsubscribe .. => true
  | .publish .. | .ping | .disconnect | .receive .. => false

namespace World

/-! ### Looking things up -/

/-- The place of the last element that has a property. -/
def lastIdx? {α : Type} (holds : α → Bool) (xs : List α) : Option Nat :=
  (xs.zipIdx.filter fun x => holds x.1).getLast?.map Prod.snd

/-- The peer with a name. -/
def peer? (w : World) (name : String) : Option (Nat × Peer) := do
  let i ← lastIdx? (fun p : Peer => p.present && p.name == name) w.peers
  let p ← w.peers[i]?
  return (i, p)

/-- The client with a name, once its session is open. -/
def guest? (w : World) (name : String) : Option Nat :=
  lastIdx? (fun g : Guest => g.opened && !g.left && g.name == name) w.guests

/-- The connection of the session with a number, which may have ended. -/
def session? (w : World) (id : Nat) : Option (ConnId × Session × String) := do
  let b ← w.broker
  let c ← lastIdx? (fun k : Conn => k.session.any fun s => s.id == id) b.conns
  let k ← b.conns[c]?
  let s ← k.session
  return (c, s, k.label)

/-! ### Peers -/

/-- Changes a peer. -/
def changePeer (w : World) (name : String) (f : Peer → Peer) : World :=
  match w.peer? name with
  | some (i, p) => { w with peers := w.peers.set i (f p) }
  | none => w

/-- Changes the connection of a peer, seen so that the peer writes `up` and reads `down`. -/
def changePeerLink (w : World) (name : String) (f : Link → Link) : World :=
  match w.peer? name with
  | none => w
  | some (_, p) =>
    match w.peerLink p.endpoint with
    | some l => w.putPeerLink p.endpoint (f l)
    | none => w

/-- A peer sends bytes, behind what it has still to send. What fits into the pipe is in it at once;
the rest follows as the pipe drains. -/
def sendFrom (w : World) (name : String) (bs : Bytes) : World :=
  match w.peer? name with
  | none => w
  | some (i, p) =>
    match w.peerLink p.endpoint with
    | none => w
    | some l =>
      let (p, l, _) := pushPeer { p with outgoing := p.outgoing.push bs } l
      { w with peers := w.peers.set i p }.putPeerLink p.endpoint l

/-- A peer gives up its end of the connection, and what it has not sent with it. -/
def closePeer (w : World) (name : String) : World :=
  (w.changePeerLink name Link.drop).changePeer name fun p =>
    { p with present := false, outgoing := .empty }

/-- A peer comes. Another one of the same name goes. -/
def addPeer (w : World) (name : String) (e : Endpoint) (held : Bool) : World :=
  let w := w.closePeer name
  let p : Peer :=
    { name := name, endpoint := e, outgoing := .empty, held := held, present := true, arrived := [],
      sawEnd := false, toldEnd := false }
  { w with peers := w.peers ++ [p] }

/-- A name stands for another token from now on. -/
def nameToken (w : World) (name : String) (e : Endpoint) : World :=
  { w with tokens := (name, e) :: w.tokens }

/-- Connects somebody to the broker, and tells the number of the connection. -/
def connectToBroker (w : World) (label : String) (capacity : Nat) : Option (World × ConnId) :=
  w.broker.map fun b =>
    let c := b.conns.length
    ((w.tellBroker (.opens label capacity)).nameToken label (.broker c), c)

/-- The token that a name stands for is cancelled. -/
def cancelToken (w : World) (name : String) : World :=
  match w.tokens.lookup name with
  | some (.broker c) => w.tellBroker (.cancels c)
  | some (.client i) => w.tellGuest i .cancels
  | none => w

/-! ### Calls -/

/-- Begins a call that the present step waits for: `begin` is told its number, and then it moves
until it has to wait. -/
def awaitCall (w : World) (either : Bool) (begins : Nat → World → World) (mover : Nat → Mover) :
    World :=
  let k := w.nextCall
  let w := { w with nextCall := k + 1, awaited := ⟨k, w.steps, either⟩ :: w.awaited }
  (runMover (mover k) patience (begins k w, false)).1

/-- Takes the answer to what the present step waits for, if it has come. -/
def takeAnswer (w : World) : World × Answer :=
  match w.done.lookup w.steps with
  | some a => ({ w with done := w.done.filter fun d => d.1 != w.steps }, a)
  | none => (w, .pending)

/-- The host calls the broker. -/
def callBroker (w : World) (call : Nat → BrokerInput) : World × Answer :=
  (w.awaitCall false (fun k w => w.tellBroker (call k)) fun k => .task (.host k)).takeAnswer

/-- A client is called. -/
def callGuest (w : World) (i : Nat) (call : ClientCall) : World × Answer :=
  (w.awaitCall (endsEitherWay call) (fun k w => w.tellGuest i (.calls k call))
    fun k => .party i (.call k)).takeAnswer

/-- What the host does to a session. -/
def callSession (w : World) (id : Nat) (call : SessionCall) : World × Answer :=
  match w.session? id, w.broker with
  | some (c, s, label), some b =>
    match call with
    | .close => (w.tellBroker (.closes c), .nothing)
    | .describe => (w, .session s label (b.isCancelled s))
    | .isSubscribed topic => (w, .truth (b.isSubscribed c topic))
    | .writePacket p => w.callBroker fun k => .writesPacket k c p
    | .writeFrame f => w.callBroker fun k => .writesFrame k c f
  | _, _ => (w, .nothing)

/-! ### Clients -/

/-- A client comes and opens its session. If its settings are refused, its end of the connection is
given up at once. -/
def addGuest (w : World) (name : String) (config : ClientConfig) (wire : Wire) (l : Link) :
    World × Answer :=
  let i := w.guests.length
  let (c, l, seen) : Client.Next := match Client.connect config w.now with
    | .ok c => (c, l, [])
    | .error f => (Client.fresh config [] w.now).fail l f
  let g : Guest :=
    { name := name, client := c, wire := wire, opening := some w.steps, opened := false,
      left := false, kept := ∅ }
  let w := { w with guests := w.guests ++ [g] }.putGuest i g l
  -- The guest has its place before anything is told of it.
  let w := seen.foldl (fun w o => w.noteGuest i o) w
  (runMover (.party i .reader) patience (w, false)).1.takeAnswer

/-- A client comes, at the broker or at a hand-driven peer. -/
def join (w : World) (name : String) (config : ClientConfig) (atBroker : Bool) : World × Answer :=
  let l := Link.empty defaultCapacity
  if atBroker then
    match w.connectToBroker name defaultCapacity with
    | some (w, c) => w.addGuest name config (.broker c) l
    | none => (w, .nothing)
  else
    let e := Endpoint.client w.guests.length
    ((w.addPeer name e false).nameToken name e).addGuest name config (.own l) l

/-- The program does not go on with a call, and does not give it up either. -/
def keepCall (w : World) (i k : Nat) : World :=
  { w with guests := w.guests.modify i fun g => { g with kept := g.kept.insert k } }

/-- A client publishes, and nobody asks what comes of it: the call is kept or given up. The answer
tells of a fault, if there is one. -/
def publishOnce (w : World) (i : Nat) (topic : String) (keeping : Bool) : World × Answer :=
  let k := w.nextCall
  let (w, a) := w.callGuest i (.publishAcknowledged topic [])
  match a with
  | .pending =>
    let w := { w with awaited := w.awaited.filter fun x => x.call != k }
    (if keeping then w.keepCall i k else w.tellGuest i (.abandons k), .nothing)
  | .failed _ | .disconnected => (w, a)
  | _ => (w, .nothing)

/-- A client publishes many times; the answer is that of the last fault. -/
def publishMany (i : Nat) (topic : String) (keeping : Bool) : Nat → World × Answer → World × Answer
  | 0, s => s
  | count + 1, (w, last) =>
    let (w, a) := w.publishOnce i topic keeping
    publishMany i topic keeping count (w, match a with
      | .nothing => last
      | a => a)

/-- The program is done with a client, which goes at once if no call of it is under way. -/
def leave (w : World) (i : Nat) : World :=
  match w.guests[i]? with
  | some g =>
    (runMover (.giveUp i) patience ({ w with guests := w.guests.set i { g with left := true } },
      false)).1
  | none => w

/-! ### Steps -/

/-- Does something to a client, if it is there. -/
def withGuest (w : World) (name : String) (f : Nat → World × Answer) : World × Answer :=
  match w.guest? name with
  | some i => f i
  | none => (w, .nothing)

/-- Does what a command says. -/
def obey (w : World) : Command → World × Answer
  | .connects name capacity held =>
    match w.connectToBroker name capacity with
    | some (w, c) => (w.addPeer name (.broker c) held, .nothing)
    | none => (w, .nothing)
  | .sends _ (.error f) => (w, .failed f)
  | .sends name (.ok bs) =>
    (w.sendFrom name bs, .nothing)
  | .closes name => (w.closePeer name, .nothing)
  | .halfCloses name => (w.changePeerLink name fun l => { l with up := l.up.close }, .nothing)
  | .holds name => (w.changePeer name fun p => { p with held := true }, .nothing)
  | .releases name => (w.changePeer name fun p => { p with held := false }, .nothing)
  | .cancels name => (w.cancelToken name, .nothing)
  | .elapses millis => (w.advance millis, .nothing)
  | .publishes topic payload => w.callBroker fun k => .publishes k topic payload
  | .shutsDown =>
    let w := w.tellBroker .shutsDown
    (w, .truth (w.broker.any Broker.shutdown))
  | .listens => w.callBroker .serves
  | .counts =>
    (w, match w.broker with
      | some b => .registry b.registry.length b.shutdown
      | none => .nothing)
  | .listsSubscribed topic =>
    (w, .sessionIds (match w.broker with
      | some b => (b.registry.filter fun c => b.isSubscribed c topic).filterMap fun c =>
        (b.session? c).map Session.id
      | none => []))
  | .session id call => w.callSession id call
  | .joins name config atBroker => w.join name config atBroker
  | .calls name call => w.withGuest name fun i => w.callGuest i call
  | .publishesMany name topic count keeping =>
    w.withGuest name fun i => publishMany i topic keeping count (w, .nothing)
  | .leaves name => w.withGuest name fun i => (w.leave i, .nothing)
  | .unreadable => (w, .unreadable)
  | .fails f => (w, .failed f)

/-- Does one step and tells what has come of it. -/
def perform (w : World) (s : Step) : World × Report :=
  let (w, result) := w.obey s.command
  let w := if s.settles then w.settle else w
  (w.told, w.tell result)

/-- Runs a script; there is one report for each step. -/
def runScript (w : World) : List Step → List Report
  | [] => []
  | s :: rest =>
    let (w, r) := w.perform s
    r :: w.runScript rest

end World
end Mqtt.Simulation
