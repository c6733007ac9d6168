import Mqtt.Broker.Host
import Mqtt.Client.Calls
import Std.Data.TreeSet
/-!
# Simulated worlds

A world holds a broker, clients, and peers that somebody drives by hand, byte by byte, all
connected by pipes, and one clock for all of them. It is a closed system: what one of them does to
another goes through the pipes that the world holds.

This module holds the state and the plumbing; how a world runs is in `Mqtt.Simulation.Schedule`,
what can be done in it in `Mqtt.Simulation.Command`, and what is told of it in
`Mqtt.Simulation.Report`.
-/

namespace Mqtt.Simulation

/-- Where a hand-driven peer is connected. -/
inductive Endpoint where
  /-- To the broker. -/
  | broker (c : ConnId)
  /-- To a client, in the broker's place. -/
  | client (i : Nat)
deriving DecidableEq, Repr, Inhabited

/-- A hand-driven peer. -/
structure Peer where
  name : String
  endpoint : Endpoint
  /-- What it has been told to send and what has not fitted into the pipe. -/
  outgoing : ByteQueue
  /-- Whether it has stopped reading. -/
  held : Bool
  /-- Whether it still has its end of the connection. -/
  present : Bool
  /-- What has arrived since the last report, latest first. -/
  arrived : List Bytes
  /-- Whether it has seen the end of the stream. -/
  sawEnd : Bool
  /-- Whether that has been reported. -/
  toldEnd : Bool
deriving Inhabited

/-- Where the connection of a client is kept. -/
inductive Wire where
  /-- The broker has it. -/
  | broker (c : ConnId)
  /-- It leads to a hand-driven peer. -/
  | own (l : Link)
deriving Inhabited

/-- A client in a world. -/
structure Guest where
  name : String
  client : Client
  wire : Wire
  /-- The step that waits for the session to open. -/
  opening : Option Nat
  /-- Whether the session has been opened. -/
  opened : Bool
  /-- Whether the program is done with the client. The client goes once no call of it is left. -/
  left : Bool
  /-- The calls that the program has neither given up nor goes on with. They never move again, and
  so the client never goes. -/
  kept : Std.TreeSet Nat
deriving Inhabited

/-- What a step of the script comes to. -/
inductive Answer where
  /-- Nothing to tell. -/
  | nothing
  /-- The call waits. -/
  | pending
  | failed (f : Fault)
  /-- The settings in the step cannot be read. -/
  | unreadable
  /-- The connection has ended under the call. -/
  | disconnected
  | done
  | number (n : Nat)
  | codes (codes : List SubscribeCode)
  | opened (clientId : String) (v : Version)
  | message (m : Option Message)
  | truth (b : Bool)
  | sessionIds (ids : List Nat)
  | registry (size : Nat) (shutdown : Bool)
  | session (s : Session) (label : String) (closed : Bool)
deriving Inhabited

/-- What an observer of the broker has been told. -/
inductive Happening where
  | connected (clientId : String)
  | disconnected (clientId : String)
  | message (clientId : String) (m : Message)
deriving Inhabited

/-- The client that something has happened to. -/
def Happening.clientId : Happening → String
  | connected id | disconnected id | message id _ => id

/-- A call that a step of the script waits for. -/
structure Awaited where
  /-- The number of the call. -/
  call : Nat
  /-- The number of the step. -/
  step : Nat
  /-- Whether the end of the connection has two names for this call, of which either may come. -/
  eitherEnd : Bool
deriving Inhabited

/-- A world. -/
structure World where
  /-- The time, in milliseconds. -/
  now : Nat
  broker : Option Broker
  peers : List Peer
  guests : List Guest
  /-- Whose token a name stands for, latest first: that of the broker for a connection, or that of
  a client. -/
  tokens : List (String × Endpoint)
  /-- The number of the next step. -/
  steps : Nat
  /-- The number of the next call. -/
  nextCall : Nat
  awaited : List Awaited
  /-- What has happened since the last report, latest first. -/
  happenings : List Happening
  /-- The connections that have been served to their end since the last report. -/
  ended : List (String × Except Fault Unit)
  /-- The waiting calls that have returned since the last report, by step. -/
  done : List (Nat × Answer)
deriving Inhabited

namespace World

/-- The world in which nothing has happened. -/
def start (config : Option BrokerConfig) : World where
  now := 0
  broker := config.map fun c => .start c.maxPacketSize.toNat 0
  peers := []
  guests := []
  tokens := []
  steps := 0
  nextCall := 0
  awaited := []
  happenings := []
  ended := []
  done := []

/-! ### Connections -/

/-- The connection of a guest. -/
def linkOf (w : World) (g : Guest) : Option Link :=
  match g.wire with
  | .own l => some l
  | .broker c => do
    let b ← w.broker
    let k ← b.conns[c]?
    return k.link

/-- Puts a guest back, with its connection. -/
def putGuest (w : World) (i : Nat) (g : Guest) (l : Link) : World :=
  match g.wire with
  | .own _ => { w with guests := w.guests.set i { g with wire := .own l } }
  | .broker c =>
    { w with
      guests := w.guests.set i g
      broker := w.broker.map fun b => b.modifyLink c fun _ => l }

/-- The connection of a peer, seen so that the peer writes `up` and reads `down`. -/
def peerLink (w : World) : Endpoint → Option Link
  | .broker c => do
    let b ← w.broker
    let k ← b.conns[c]?
    return k.link
  | .client i => do
    let g ← w.guests[i]?
    let l ← w.linkOf g
    return ⟨l.down, l.up⟩

/-- Puts the connection of a peer back. -/
def putPeerLink (w : World) (e : Endpoint) (l : Link) : World :=
  match e with
  | .broker c => { w with broker := w.broker.map fun b => b.modifyLink c fun _ => l }
  | .client i =>
    match w.guests[i]? with
    | some g => w.putGuest i g ⟨l.down, l.up⟩
    | none => w

/-! ### What is seen -/

/-- A waiting call has returned. -/
def returned (w : World) (call : Nat) (a : Answer) : World :=
  match w.awaited.find? fun x => x.call == call with
  | none => w
  | some x =>
    let a := match a with
      | .failed f => if x.eitherEnd && f.isDisconnect then .disconnected else .failed f
      | a => a
    { w with
      awaited := w.awaited.filter fun x => x.call != call
      done := (x.step, a) :: w.done }

/-- Takes note of what is seen of the broker. -/
def noteBroker (w : World) : Observation → World
  | .connected _ id => { w with happenings := .connected id :: w.happenings }
  | .disconnected _ id => { w with happenings := .disconnected id :: w.happenings }
  | .message _ id m => { w with happenings := .message id m :: w.happenings }
  | .ended c r =>
    let label := ((w.broker >>= fun b => b.conns[c]?).map Conn.label).getD ""
    { w with ended := (label, r) :: w.ended }
  | .wrote .. => w
  | .answered k (.delivered n) => w.returned k (.number n)
  | .answered k (.finished (.ok ())) => w.returned k .done
  | .answered k (.finished (.error f)) => w.returned k (.failed f)

/-- What a call of a client came to. -/
def Answer.ofCall : CallAnswer → Answer
  | .failed f => .failed f
  | .done => .done
  | .packetId id => .number id.toNat
  | .codes codes => .codes codes
  | .message m => .message m

/-- The guest in a place has opened its session, or could not open it. The program has one client
of a name: once it has a new one, it is done with the earlier one. -/
def settleOpening (gs : List Guest) (i : Nat) (name : String) (succeeded : Bool) : List Guest :=
  gs.mapIdx fun j g =>
    if j == i then { g with opening := none, opened := succeeded }
    else if succeeded && g.opened && g.name == name then { g with left := true }
    else g

/-- Takes note of what is seen of a guest. -/
def noteGuest (w : World) (i : Nat) : ClientObservation → World
  | .wrote .. => w
  | .answered k a => w.returned k (Answer.ofCall a)
  | .opened r =>
    match w.guests[i]? with
    | none => w
    | some g =>
      let a := match r with
        | .ok () => .opened g.client.config.clientId g.client.config.version
        | .error f => .failed f
      let w := { w with guests := settleOpening w.guests i g.name r.isOk }
      match g.opening with
      | none => w
      | some step => { w with done := (step, a) :: w.done }

/-! ### Moves -/

/-- Makes a move of the broker. -/
def moveBroker (w : World) (a : Action) : Option World := do
  let b ← w.broker
  let (b, seen) ← b.step a
  return seen.foldl noteBroker { w with broker := some b }

/-- Does something to the broker. -/
def tellBroker (w : World) (i : BrokerInput) : World :=
  match w.broker with
  | none => w
  | some b =>
    let (b, seen) := b.accept i
    seen.foldl noteBroker { w with broker := some b }

/-- Makes a move of a guest. -/
def moveGuest (w : World) (i : Nat) (a : Client.Action) : Option World := do
  let g ← w.guests[i]?
  let l ← w.linkOf g
  let (c, l, seen) ← g.client.step l a
  return seen.foldl (fun w o => w.noteGuest i o) (w.putGuest i { g with client := c } l)

/-- Does something to a guest. -/
def tellGuest (w : World) (i : Nat) (x : ClientInput) : World :=
  match w.guests[i]? with
  | none => w
  | some g =>
    match w.linkOf g with
    | none => w
    | some l =>
      let (c, l, seen) := g.client.accept l x
      seen.foldl (fun w o => w.noteGuest i o) (w.putGuest i { g with client := c } l)

end World
end Mqtt.Simulation
