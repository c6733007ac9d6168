import Mqtt.Simulation.World
/-!
# Running a world

Of all the runs that a world has, one is chosen here: the tasks take turns in a fixed order, each
moves until it has to wait, and of several possible moves the first of a fixed list is made. When
no task can move, the peers push on what they have been told to send and read what has arrived, and
the tasks take turns again. A world has settled when nobody moves any more; the clock stands still
meanwhile.

Time passes from one timer to the next, and the tasks take turns at each. The peers take no part in
that: they push and read when the world settles, at the time that it has come to by then.
-/

namespace Mqtt.Simulation
namespace World

/-- More moves than any script asks for. -/
def patience : Nat := 1000000000000

/-! ### Tasks -/

/-- The moves of the broker's tasks, in the order in which they are tried. -/
def brokerMoves : List Move :=
  [.cancel, .send .push, .send .layOut, .send .giveUp, .send .enter, .reach, .stop, .dispatch,
    .receive, .expire, .close, .shut]

/-- The moves of a client's tasks and calls, in the order in which they are tried. -/
def clientMoves : List Client.Move :=
  [.take, .cancel, .send .giveUp, .send .push, .send .layOut, .send .enter, .dispatch, .receive,
    .wake, .enter, .shut, .expire]

/-- Something that moves. -/
inductive Mover where
  | task (t : Task)
  | relay (c : ConnId)
  | party (guest : Nat) (p : Party)
  | giveUp (guest : Nat)

/-- The first possible move of a mover. -/
def move? (w : World) : Mover → Option World
  | .task t => brokerMoves.findSome? fun m => w.moveBroker (.task t m)
  | .relay c => w.moveBroker (.relay c)
  | .party i p => clientMoves.findSome? fun m => w.moveGuest i (.party p m)
  | .giveUp i =>
    match w.guests[i]? with
    | none => none
    | some g =>
      if g.left && !g.client.dropped && g.client.calls.isEmpty then some (w.tellGuest i .drops)
      else w.moveGuest i .giveUp

/-- A mover moves until it has to wait. The answer says whether it has moved at all. -/
def runMover (x : Mover) : Nat → World × Bool → World × Bool
  | 0, s => s
  | fuel + 1, (w, moved) =>
    match w.move? x with
    | some w => runMover x fuel (w, true)
    | none => (w, moved)

/-- Everything that may move, in the order of the turns. -/
def movers (w : World) : List Mover :=
  let tasks := match w.broker with
    | none => []
    | some b =>
      (List.range b.conns.length).flatMap (fun c => [.relay c, .task (.conn c)]) ++
        b.calls.map fun call => .task (.host call.1)
  let parties := w.guests.zipIdx.flatMap fun (g, i) =>
    [.party i .reader, .party i .keeper] ++
      ((g.client.calls.keys.filter fun k => !g.kept.contains k).map fun k => .party i (.call k)) ++
      [.giveUp i]
  tasks ++ parties

/-- The tasks take turns until none can move. -/
def runAll : Nat → World × Bool → World × Bool
  | 0, s => s
  | fuel + 1, (w, moved) =>
    let (w, again) := w.movers.foldl (fun s x => runMover x patience s) (w, false)
    if again then runAll fuel (w, true) else (w, moved)

/-! ### Peers -/

/-- A peer pushes what fits of what it has been told to send. -/
def pushPeer (p : Peer) (l : Link) : Peer × Link × Bool :=
  if p.outgoing.isEmpty then (p, l, false)
  else if l.up.closed then ({ p with outgoing := .empty }, l, true)
  else
    let n := min l.up.free p.outgoing.size
    match l.up.write (p.outgoing.take n) with
    | .took up _ _ => ({ p with outgoing := p.outgoing.drop n }, { l with up := up }, true)
    | _ => (p, l, false)

/-- A peer reads what has arrived. -/
def pullPeer (p : Peer) (l : Link) : Peer × Link × Bool :=
  if p.held || p.sawEnd then (p, l, false)
  else
    match l.down.read l.down.unread.size with
    | .nothing => (p, l, false)
    | .ended => ({ p with sawEnd := true }, l, true)
    | .got bs down => ({ p with arrived := bs :: p.arrived }, { l with down := down }, true)

/-- A peer pushes and reads once. -/
def pumpPeer (s : World × Bool) (i : Nat) : World × Bool :=
  let (w, moved) := s
  match w.peers[i]? with
  | none => s
  | some p =>
    if !p.present then s
    else
      match w.peerLink p.endpoint with
      | none => s
      | some l =>
        let (p, l, pushed) := pushPeer p l
        let (p, l, pulled) := pullPeer p l
        if pushed || pulled then
          ({ w with peers := w.peers.set i p }.putPeerLink p.endpoint l, true)
        else (w, moved)

/-- Each peer pushes and reads once. -/
def pump (w : World) : World × Bool :=
  (List.range w.peers.length).foldl pumpPeer (w, false)

/-- Tasks and peers move until nobody can. -/
def settleWithin : Nat → World → World
  | 0, w => w
  | fuel + 1, w =>
    let (w, ran) := runAll patience (w, false)
    -- The peers come last, when every pipe is as full or as empty as the tasks leave it.
    let (w, pumped) := w.pump
    if ran || pumped then settleWithin fuel w else w

/-- Lets the world settle. -/
def settle (w : World) : World := settleWithin patience w

/-! ### Time -/

/-- The times at which a task of the broker stops waiting. -/
def brokerTimers (b : Broker) : List Nat :=
  b.conns.filterMap fun k =>
    match k.phase, k.session with
    | .reading since, some s => s.patience.map (since + ·)
    | _, _ => none

/-- The times at which a task or a call of a client stops waiting. -/
def clientTimers (c : Client) : List Nat :=
  (match c.keeper with
    | .sleeping wake => [wake]
    | _ => []) ++
  c.calls.foldl (fun timers _ call =>
    match call with
    | .receive (some deadline) _ => deadline :: timers
    | _ => timers) []

/-- The first timer after now and not after the given time. -/
def nextTimer (w : World) (limit : Nat) : Option Nat :=
  let timers := (w.broker.map brokerTimers).getD [] ++
    w.guests.flatMap fun g => clientTimers g.client
  (timers.filter fun t => w.now < t && t ≤ limit).min?

/-- Sets the clock. -/
def setClock (w : World) (now : Nat) : World :=
  { w with
    now := now
    broker := w.broker.map fun b => { b with now := now }
    guests := w.guests.map fun g => { g with client := { g.client with now := now } } }

/-- The tasks take turns until none can move; the peers do nothing. -/
def exhaust (w : World) : World := (runAll patience (w, false)).1

/-- Lets time pass up to the given time, with a stop at every timer. -/
def advanceTo (limit : Nat) : Nat → World → World
  | 0, w => (w.setClock limit).exhaust
  | fuel + 1, w =>
    match w.nextTimer limit with
    | some t => advanceTo limit fuel (w.setClock t).exhaust
    | none => (w.setClock limit).exhaust

/-- Lets so many milliseconds pass. What can be done at once is done before the clock moves. -/
def advance (w : World) (millis : Nat) : World :=
  let w := w.exhaust
  advanceTo (w.now + millis) (millis + 1) w

end World
end Mqtt.Simulation
