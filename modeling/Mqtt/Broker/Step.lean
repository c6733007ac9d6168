import Mqtt.Broker.Basic
/-!
# Brokers: how they move

`Broker.step` makes one move of one task, if the task can make it. A task that waits has no move,
or only those that end the waiting. Where a task waits for two things at once, for a frame and for
a token say, both are moves, and which one comes is left open: every order in which tasks may move
is a run.

What the host and the peers do to a broker is in `Mqtt.Broker.Host`.
-/

namespace Mqtt

/-- A move of a task. -/
inductive Move where
  /-- Takes bytes from the stream. -/
  | receive
  /-- Takes the frame that is whole. -/
  | dispatch
  /-- Stops waiting for a frame, since a token is cancelled. -/
  | cancel
  /-- Stops waiting for a frame, since it took too long. -/
  | expire
  /-- Goes on with the frame that is being written. -/
  | send (m : SendMove)
  /-- Looks at the next session that a message may be for. -/
  | reach
  /-- Stops forwarding, since its own token is cancelled. -/
  | stop
  /-- Comes to the turnstile to shut the stream. -/
  | close
  /-- Shuts the stream. -/
  | shut
deriving DecidableEq, Repr

/-- A move of a broker. -/
inductive Action where
  /-- A task moves. -/
  | task (t : Task) (m : Move)
  /-- A cancelled connection tells its session to end. -/
  | relay (c : ConnId)
deriving DecidableEq, Repr

namespace Broker

/-! ### Writing to a session -/

/-- A move of a delivery by a task: the broker after it, where the delivery stands or how it ended,
and the bytes that the stream took. A session that is to end takes no new frame. -/
def sendStep (b : Broker) (t : Task) (d : Delivery) (m : SendMove) :
    Option (Broker × (Sending ⊕ Except Fault Unit) × List Observation) := do
  let k ← b.conns[d.target]?
  let s ← k.session
  -- A frame that has come to the turnstile in time may still go on.
  if b.isCancelled s && d.state = .starting && m ≠ .giveUp then none
  else
    let sent ← Outlet.step ⟨s.turnstile, k.link.down⟩ t d.frame (b.isCancelled s) d.state m
    let b := b.modifyConn d.target fun k =>
      { k with
        link := { k.link with down := sent.outlet.pipe }
        session := k.session.map fun s => { s with turnstile := sent.outlet.turnstile } }
    let seen := if sent.pushed.isEmpty then [] else [.wrote d.target t sent.pushed]
    return (b, sent.state, seen)

/-- A task drops a delivery where it stands. -/
def abandon (b : Broker) (t : Task) (d : Delivery) : Broker :=
  b.modifySession d.target fun s =>
    { s with turnstile := (Outlet.abandon ⟨s.turnstile, .empty 0⟩ t d.state).turnstile }

/-! ### Forwarding -/

/-- A move of a task that forwards a message: the forwarding after it, or to how many sessions the
message went. A delivery that fails ends the session it was for, unless that has ended anyway. -/
def fanOutStep (b : Broker) (t : Task) (stopped : Bool) (o : FanOut) (m : Move) :
    Option (Broker × (FanOut ⊕ Nat) × List Observation) :=
  match o.current, m with
  | none, .reach =>
    match o.left with
    | [] => some (b, .inr o.delivered, [])
    | c :: rest =>
      -- What counts are the filters of this moment, not those when forwarding began.
      let current := if b.isSubscribed c o.topic then some ⟨c, o.frame, .starting⟩ else none
      some (b, .inl { o with left := rest, current := current }, [])
  | some d, .send m => do
    let (b, state, seen) ← b.sendStep t d m
    match state with
    | .inl s => return (b, .inl { o with current := some { d with state := s } }, seen)
    | .inr (.ok ()) =>
      return (b, .inl { o with delivered := o.delivered + 1, current := none }, seen)
    | .inr (.error f) =>
      -- The target is to blame, and only the target.
      let b := if f.isDisconnect then b else b.cancelSession d.target
      return (b, .inl { o with current := none }, seen)
  | some d, .stop => if stopped then some (b.abandon t d, .inr o.delivered, []) else none
  | _, _ => none

/-! ### The task of a connection -/

/-- The first frame was no CONNECT that can be served: both ends of the stream are given up. -/
def refuse (b : Broker) (c : ConnId) (f : Fault) : Broker × List Observation :=
  let result := if f.isDisconnect then .ok () else .error f
  (b.modifyConn c fun k => { k with link := k.link.drop, phase := .over result },
    [.ended c result])

/-- The session ends: it leaves the registry, and no new frame is written to it. -/
def finish (b : Broker) (c : ConnId) (result : Except Fault Unit) : Broker :=
  let b := (b.cancelSession c).setPhase c (.closing result)
  { b with registry := b.registry.erase c }

/-- The task waits for the next frame from now on. -/
def readOn (b : Broker) (c : ConnId) : Broker :=
  b.modifyConn c fun k => { k with phase := .reading b.now, assembler := k.assembler.retire }

/-- The task writes an answer. -/
def reply (b : Broker) (c : ConnId) (v : Version) (p : Packet) (after : AfterReply) : Broker :=
  b.setPhase c (.replying (.ofPacket c v p) after)

/-- What a first frame asks for. -/
def greet (f : Frame) : Except Fault (Version × Connect) := do
  let v ← f.version
  match ← Packet.decode v f with
  | .connect c => return (v, c)
  | p => violate (.notConnect p.kind)

/-- The session that a CONNECT opens. -/
def newSession (b : Broker) (v : Version) (c : Connect) : Session where
  id := b.nextId
  clientId := if c.clientId.isEmpty then "auto-" ++ toString b.nextId else c.clientId
  version := v
  patience := Session.patienceFor c.keepAlive
  filters := .empty
  turnstile := .empty
  cancelled := false

/-- Opens a session: it gets the next number, is registered, and its CONNACK is written. -/
def openSession (b : Broker) (c : ConnId) (v : Version) (p : Connect) : Broker :=
  let b := b.modifyConn c fun k => { k with session := some (b.newSession v p) }
  let b := { b with registry := b.registry ++ [c], nextId := b.nextId + 1 }
  b.reply c v (.connAck .accepted) .announce

/-- Adds the filters of a SUBSCRIBE one after the other, and answers each. -/
def subscribeAll (filters : FilterIndex) : List Subscription → FilterIndex × List SubscribeCode
  | [] => (filters, [])
  | w :: rest =>
    match filters.subscribe w.filter with
    | .ok (_, filters) =>
      let (filters, codes) := subscribeAll filters rest
      (filters, .granted w.qos :: codes)
    | .error _ =>
      let (filters, codes) := subscribeAll filters rest
      (filters, .refused :: codes)

/-- Removes the filters of an UNSUBSCRIBE. -/
def unsubscribeAll (filters : FilterIndex) (gone : List String) : FilterIndex :=
  gone.foldl (fun filters f => (filters.unsubscribe f).2) filters

/-- The task begins to forward a message. -/
def forward (b : Broker) (c : ConnId) (p : Publish) (f : Frame) : Broker :=
  b.setPhase c (.forwarding p (b.fanOut p.topic f))

/-- The task takes a packet of a running session. -/
def handle (b : Broker) (c : ConnId) (s : Session) (f : Frame) : Packet → Broker
  | .connect _ => b.finish c (violate .secondConnect)
  | .publish p =>
    match Topic.validate p.topic with
    | .error e => b.finish c (.error e)
    | .ok () =>
      match p.qos, p.packetId with
      | .atLeastOnce, some id => b.reply c s.version (.pubAck id) (.forward p f)
      | .exactlyOnce, some id => b.reply c s.version (.pubRec id) (.forward p f)
      | _, _ => b.forward c p f
  | .pubRel id => b.reply c s.version (.pubComp id) .read
  | .subscribe id wanted =>
    let (filters, codes) := subscribeAll s.filters wanted
    let b := b.modifySession c fun s => { s with filters := filters }
    b.reply c s.version (.subAck id codes) .read
  | .unsubscribe id gone =>
    let b := b.modifySession c fun s => { s with filters := unsubscribeAll s.filters gone }
    b.reply c s.version (.unsubAck id) .read
  | .pingReq => b.reply c s.version .pingResp .read
  | .disconnect => b.finish c (.ok ())
  | _ => b.readOn c

/-- The task goes on once its answer is written. -/
def afterReply (b : Broker) (c : ConnId) (s : Session) : AfterReply → Broker × List Observation
  | .announce => (b.readOn c, [.connected c s.clientId])
  | .read => (b.readOn c, [])
  | .forward p f => (b.forward c p f, [])

/-- The task takes bytes from the stream, or finds that no more will come. It does so only while
it has no whole frame. -/
def receive (b : Broker) (c : ConnId) (k : Conn) : Option (Broker × Option Fault) :=
  match k.assembler.next with
  | .ok none =>
    match k.link.up.read readSize with
    | .nothing => none
    | .ended => some (b, some .connectionClosed)
    | .got bs up =>
      some (b.modifyConn c fun k =>
        { k with link := { k.link with up := up }, assembler := k.assembler.receive bs }, none)
  | _ => none

/-- Whether the task waits for bytes that have not come. -/
def isStarved (k : Conn) : Bool :=
  match k.assembler.next with
  | .ok none => k.link.up.isDry
  | _ => false

/-- A move of the task of a connection. -/
def connStep (b : Broker) (c : ConnId) (m : Move) : Option (Broker × List Observation) := do
  let k ← b.conns[c]?
  match k.phase, m with
  | .greeting, .receive =>
    match ← b.receive c k with
    | (b, none) => return (b, [])
    | (b, some f) => return b.refuse c f
  | .greeting, .dispatch =>
    match k.assembler.next with
    | .ok none => none
    | .error f => return b.refuse c f
    | .ok (some (f, a)) =>
      match greet f with
      | .error e => return b.refuse c e
      | .ok (v, p) =>
        return ((b.modifyConn c fun k => { k with assembler := a }).openSession c v p, [])
  | .greeting, .cancel =>
    if k.cancelled || b.shutdown then return b.refuse c .cancelled else none
  | .over _, _ => none
  | phase, m =>
    let s ← k.session
    match phase, m with
    | .reading _, .receive =>
      match ← b.receive c k with
      | (b, none) => return (b, [])
      | (b, some f) => return (b.finish c (.error f), [])
    | .reading _, .dispatch =>
      match k.assembler.next with
      | .ok none => none
      | .error f => return (b.finish c (.error f), [])
      | .ok (some (f, a)) =>
        let b := b.modifyConn c fun k => { k with assembler := a }
        match Packet.decode s.version f with
        | .error e => return (b.finish c (.error e), [])
        | .ok p => return (b.handle c s f p, [])
    | .reading _, .cancel =>
      if k.cancelled || b.isCancelled s then return (b.finish c (.error .cancelled), []) else none
    | .reading since, .expire =>
      let limit ← s.patience
      -- Whatever has come by now is looked at first.
      if since + limit ≤ b.now && isStarved k then
        return (b.finish c (.error (.keepAliveExpired limit)), [])
      else none
    | .replying d after, .send m =>
      let (b, state, seen) ← b.sendStep (.conn c) d m
      match state with
      | .inl s => return (b.setPhase c (.replying { d with state := s } after), seen)
      | .inr (.error f) => return (b.finish c (.error f), seen)
      | .inr (.ok ()) =>
        let (b, more) := b.afterReply c s after
        return (b, seen ++ more)
    | .forwarding p o, m =>
      let (b, state, seen) ← b.fanOutStep (.conn c) (b.isCancelled s) o m
      match state with
      | .inl o => return (b.setPhase c (.forwarding p o), seen)
      | .inr _ => return (b.readOn c, seen ++ [.message c s.clientId p.message])
    | .closing r, .close =>
      -- Others may be inside or in line; they leave soon, for the session is cancelled.
      let b := b.modifySession c fun s => { s with turnstile := s.turnstile.enter (.conn c) }
      return (b.setPhase c (.shutting r), [])
    | .shutting r, .shut =>
      if s.turnstile.holds (.conn c) then
        let result := match r with
          | .error f => if f.isDisconnect then .ok () else .error f
          | .ok () => .ok ()
        let b := b.modifyConn c fun k =>
          { k with
            link := { k.link with down := k.link.down.close }
            session := k.session.map fun s => { s with turnstile := s.turnstile.leave (.conn c) }
            phase := .over result }
        return (b, [.disconnected c s.clientId, .ended c result])
      else none
    | _, _ => none

/-! ### Calls of the host -/

/-- A move of a call of the host. -/
def callStep (b : Broker) (n : Nat) (m : Move) : Option (Broker × List Observation) := do
  match ← b.call? n, m with
  | .publish o, m =>
    let (b, state, seen) ← b.fanOutStep (.host n) b.shutdown o m
    match state with
    | .inl o => return (b.setCall n (.publish o), seen)
    | .inr count => return (b.dropCall n, seen ++ [.answered n (.delivered count)])
  | .write d, .send m =>
    let (b, state, seen) ← b.sendStep (.host n) d m
    match state with
    | .inl s => return (b.setCall n (.write { d with state := s }), seen)
    | .inr r => return (b.dropCall n, seen ++ [.answered n (.finished r)])
  | .serve, .cancel =>
    if b.shutdown then return (b.dropCall n, [.answered n (.finished (.ok ()))]) else none
  | _, _ => none

/-- One move of a broker, with what is seen of it. Nothing if the move is not possible. -/
def step (b : Broker) : Action → Option (Broker × List Observation)
  | .task (.conn c) m => b.connStep c m
  | .task (.host n) m => b.callStep n m
  | .relay c => do
    let k ← b.conns[c]?
    let s ← k.session
    if k.cancelled && !s.cancelled then return (b.cancelSession c, []) else none

end Broker
end Mqtt
