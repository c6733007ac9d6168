import Mqtt.Client.Step
/-!
# Clients: what others do to them

The program that uses a client opens it, calls it, and gives it up; the broker at the other end
writes, reads and closes; and time passes. A call that is refused at once answers at once; any
other becomes a call of the client that moves on its own and answers later.

A run is any sequence of such inputs and of moves of the client's tasks and calls.
-/

namespace Mqtt

/-- What a client is asked for. -/
inductive ClientCall where
  /-- A message that is not acknowledged. -/
  | publish (topic : String) (payload : Bytes) (retain : Bool)
  /-- A message that is acknowledged. -/
  | publishAcknowledged (topic : String) (payload : Bytes)
  | subscribe (wanted : List Subscription)
  | unsubscribe (filters : List String)
  | ping
  | disconnect
  /-- A message, perhaps within so many milliseconds. -/
  | receive (millis : Option Nat)

/-- What a client meets from outside. -/
inductive ClientInput where
  | calls (k : Nat) (call : ClientCall)
  /-- A call is dropped by its caller. -/
  | abandons (k : Nat)
  /-- The token of the connection is cancelled. -/
  | cancels
  /-- The program gives the client up. -/
  | drops
  /-- The broker writes; what does not fit is not written. -/
  | peerWrites (bs : Bytes)
  /-- The broker reads at most so many bytes. -/
  | peerReads (n : Nat)
  /-- The broker says that it will write nothing more. -/
  | peerShuts
  /-- The broker gives up its end. -/
  | peerDrops
  /-- So many milliseconds pass. -/
  | elapses (millis : Nat)

namespace Client

/-- A client that begins to open its session. -/
def connect (config : ClientConfig) (now : Nat) : Except Fault Client := do
  config.validate
  let bs ← (Packet.connect config.connect).toBytes config.version
  return fresh config bs now

/-- Begins to send a packet that is not acknowledged. -/
def startSend (c : Client) (k : Nat) (p : Packet) : Client :=
  c.setCall k (.send (c.frameOf p) .starting)

/-- Takes a packet id for a call. -/
def reserve (c : Client) (k : Nat) : Except Fault (UInt16 × Client) :=
  match c.ids.reserve k with
  | (some id, ids) => .ok (id, { c with ids := ids })
  | (none, _) => violate .packetIdsExhausted

/-- Begins a request under a packet id. -/
def startRequest (c : Client) (k : Nat) (purpose : Purpose) (id : UInt16) (p : Packet) : Client :=
  c.setCall k (.request purpose id (c.frameOf p) .waiting (some .starting))

/-- Begins a call, unless it answers at once. -/
def start (c : Client) (k : Nat) : ClientCall → Except CallAnswer Client
  | .publish topic payload retain =>
    match Topic.validate topic with
    | .error f => .error (.failed f)
    | .ok () => .ok (c.startSend k (.publish ((Publish.plain topic payload).withRetain retain)))
  | .publishAcknowledged topic payload =>
    match (do Topic.validate topic; c.reserve k) with
    | .error f => .error (.failed f)
    | .ok (id, c) =>
      let p := (Publish.plain topic payload).withQoS .atLeastOnce (some id)
      .ok (c.startRequest k .publish id (.publish p))
  | .subscribe wanted =>
    if wanted.isEmpty then .error (.codes [])
    else
      match (do
        wanted.forM fun w => Topic.validateFilter w.filter
        c.reserve k) with
      | .error f => .error (.failed f)
      | .ok (id, c) =>
        -- Active at once: a message may come before the acknowledgement.
        let (c, added) := c.addFilters (wanted.map Subscription.filter)
        .ok (c.startRequest k (.subscribe wanted added) id (.subscribe id wanted))
  | .unsubscribe filters =>
    if filters.isEmpty then .error .done
    else
      match c.reserve k with
      | .error f => .error (.failed f)
      | .ok (id, c) =>
        .ok (c.startRequest k (.unsubscribe filters) id (.unsubscribe id filters))
  | .ping => .ok (c.startSend k .pingReq)
  | .disconnect => .ok (c.setCall k (.leave (c.frameOf .disconnect) .starting))
  | .receive millis => .ok (c.setCall k (.receive (millis.map (c.now + ·)) false))

/-- A call is dropped where it stands. What it has written stays written, and the filters of a
SUBSCRIBE stay active; the packet id of a request is given back. -/
def abandon (c : Client) (k : Nat) : Client :=
  let leaves (state : Sending) : Client :=
    { c with
      turnstile := (Outlet.abandon ⟨c.turnstile, .empty 0⟩ (Party.call k) state).turnstile }
  let gone (c : Client) : Client := { c with calls := c.calls.erase k }
  match c.calls[k]? with
  | some (.send _ state) | some (.leave _ state) => gone (leaves state)
  | some (.request _ id _ _ (some state)) => (leaves state).release k id
  | some (.request _ id _ _ none) => c.release k id
  | some (.receive _ true) => gone { c with receivers := c.receivers.leave k }
  | some (.leaving _ true) => gone { c with turnstile := c.turnstile.leave (.call k) }
  | some (.receive _ false) | some (.leaving _ false) | none => gone c

/-- The token of the connection is cancelled. -/
def cancel (c : Client) : Client := { c with cancelled := true }

/-- The program gives the client up. -/
def drop (c : Client) : Client := { c with cancelled := true, dropped := true }

/-- What an input does at once. -/
def accept (c : Client) (l : Link) : ClientInput → Next
  | .calls k call =>
    match c.start k call with
    | .ok c => (c, l, [])
    | .error a => (c, l, [.answered k a])
  | .abandons k => (c.abandon k, l, [])
  | .cancels => (c.cancel, l, [])
  | .drops => (c.drop, l, [])
  | .peerWrites bs =>
    (c, (match l.down.write bs with
      | .took down _ _ => { l with down := down }
      | _ => l), [])
  | .peerReads n =>
    (c, (match l.up.read n with
      | .got _ up => { l with up := up }
      | _ => l), [])
  | .peerShuts => (c, { l with down := l.down.close }, [])
  | .peerDrops => (c, l.drop, [])
  | .elapses millis => ({ c with now := c.now + millis }, l, [])

/-! ### Runs -/

/-- What comes next in a run: an input or a move. -/
inductive Event where
  | input (i : ClientInput)
  | move (a : Action)

/-- What an event leads to, if it is possible. -/
def next? (c : Client) (l : Link) : Event → Option Next
  | .input i => some (c.accept l i)
  | .move a => c.step l a

/-- Neither a task nor a call can move while time stands still. -/
def Quiescent (c : Client) (l : Link) : Prop := ∀ a, c.step l a = none

end Client
end Mqtt
