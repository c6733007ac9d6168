import Mqtt.Simulation.World
/-!
# Reports

After each step of a script a world tells what has come of it: the answer to the step itself, and
everything that was seen since the report before. What has been told once is not told again.
-/

namespace Mqtt.Simulation

/-- A session in the registry of the broker. -/
structure SessionEntry where
  id : Nat
  clientId : String
  /-- The label of the peer. -/
  label : String
  version : Version
deriving DecidableEq, Repr, Inhabited

/-- What is told after a step. -/
structure Report where
  /-- What the step itself comes to. -/
  result : Answer
  /-- The bytes that have arrived at each hand-driven peer. -/
  arrived : List (String × Bytes)
  /-- The hand-driven peers that have seen the end of the stream, in the order of their names. -/
  ends : List String
  /-- What the observers of the broker have been told, client by client. -/
  happenings : List Happening
  /-- The connections that have been served to their end. -/
  ended : List (String × Except Fault Unit)
  /-- The waiting calls that have returned, each under the step that made it. -/
  done : List (Nat × Answer)
  /-- The clients there are, and whether each is running. -/
  running : List (String × Bool)
  /-- The registry of the broker, if there is a broker. -/
  sessions : Option (List SessionEntry)

namespace World

/-- Sorts by a text, and leaves what has the same text in its order. -/
def sortedBy {α : Type} (key : α → String) (xs : List α) : List α :=
  xs.mergeSort fun a b => !decide (key b < key a)

/-- What has arrived at a peer. -/
def arrivedAt (p : Peer) : Option (String × Bytes) :=
  if p.present && !p.arrived.isEmpty then some (p.name, p.arrived.reverse.flatten) else none

/-- Whether a peer has seen the end of the stream and that has not been told. -/
def endIsNews (p : Peer) : Bool := p.present && p.sawEnd && !p.toldEnd

/-- The session of a connection, as it is listed. -/
def listed? (b : Broker) (c : ConnId) : Option SessionEntry := do
  let k ← b.conns[c]?
  let s ← k.session
  return ⟨s.id, s.clientId, k.label, s.version⟩

/-- The sessions in the registry of a broker. -/
def entries (b : Broker) : List SessionEntry := b.registry.filterMap (listed? b)

/-- The clients that have a session or had one, as long as the program uses them. -/
def runningGuests (w : World) : List (String × Bool) :=
  w.guests.filterMap fun g =>
    if g.opened && !g.left then some (g.name, g.client.isRunning) else none

/-- What is told after a step with the given answer. -/
def tell (w : World) (result : Answer) : Report where
  result := result
  arrived := w.peers.filterMap arrivedAt
  ends := sortedBy id ((w.peers.filter endIsNews).map Peer.name)
  happenings := sortedBy Happening.clientId w.happenings.reverse
  ended := w.ended.reverse
  done := w.done.reverse
  running := w.runningGuests
  sessions := w.broker.map entries

/-- The world once everything has been told; the next step comes. -/
def told (w : World) : World :=
  { w with
    peers := w.peers.map fun p => { p with arrived := [], toldEnd := p.sawEnd }
    steps := w.steps + 1
    happenings := []
    ended := []
    done := [] }

end World
end Mqtt.Simulation
