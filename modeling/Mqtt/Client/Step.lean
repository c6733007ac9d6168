import Mqtt.Client.Basic
/-!
# Clients: how they move

`Client.step` makes one move of one task or call, if it can be made; the link is the connection to
the broker, of which the client writes one pipe and reads the other. Where a task waits for two
things at once both are moves, and which one comes is left open.

What the program that uses the client does is in `Mqtt.Client.Calls`.
-/

namespace Mqtt
namespace Client

/-- A move of a task or a call. -/
inductive Move where
  /-- Takes bytes from the stream. -/
  | receive
  /-- Takes the frame that is whole. -/
  | dispatch
  /-- Stops waiting, since the token is cancelled. -/
  | cancel
  /-- Goes on with the frame that is being written. -/
  | send (m : SendMove)
  /-- Wakes up. -/
  | wake
  /-- Takes what the call waited for. -/
  | take
  /-- Stops waiting, since it took too long. -/
  | expire
  /-- Comes to a turnstile. -/
  | enter
  /-- Shuts the stream. -/
  | shut
deriving DecidableEq, Repr

/-- A move of a client. -/
inductive Action where
  /-- A task or a call moves. -/
  | party (p : Party) (m : Move)
  /-- The stream is given up, since nobody is left who could use it. -/
  | giveUp
deriving DecidableEq, Repr

/-- A client after a move, its link, and what is seen. -/
abbrev Next := Client × Link × List ClientObservation

/-! ### Writing and reading -/

/-- A move of a party that writes a frame. -/
def sendStep (c : Client) (l : Link) (p : Party) (frame : Except Fault Bytes) (state : Sending)
    (m : SendMove) :
    Option (Client × Link × (Sending ⊕ Except Fault Unit) × List ClientObservation) := do
  let sent ← Outlet.step ⟨c.turnstile, l.up⟩ p frame c.cancelled state m
  let seen := if sent.pushed.isEmpty then [] else [.wrote p sent.pushed]
  return ({ c with turnstile := sent.outlet.turnstile }, { l with up := sent.outlet.pipe },
    sent.state, seen)

/-- Takes bytes from the stream, or finds that no more will come. This happens only while there is
no whole frame. -/
def receiveStep (c : Client) (l : Link) : Option (Client × Link × Option Fault) :=
  match c.assembler.next with
  | .ok none =>
    match l.down.read readSize with
    | .nothing => none
    | .ended => some (c, l, some .connectionClosed)
    | .got bs down =>
      some ({ c with assembler := c.assembler.receive bs }, { l with down := down }, none)
  | _ => none

/-! ### Opening the session -/

/-- The session could not be opened: the stream is given up. -/
def fail (c : Client) (l : Link) (f : Fault) : Next :=
  ({ c with stage := .closed }, l.drop, [.opened (.error f)])

/-- The session is open: both tasks begin. -/
def run (c : Client) (l : Link) : Next :=
  ({ c with
      stage := .running
      assembler := c.assembler.retire
      reader := .reading
      keeper := match pingInterval c.config with
        | some n => .sleeping (c.now + n)
        | none => .over }, l, [.opened (.ok ())])

/-- What the first frame of the broker says. -/
def greet (c : Client) (f : Frame) : Except Fault Unit := do
  match ← Packet.decode c.config.version f with
  | .connAck a => if a.code = .accepted then return () else .error (.refused a.code)
  | p => .error (.unexpectedPacket .connAck p)

/-- A move of the call that opens the session. -/
def openStep (c : Client) (l : Link) (m : Move) : Option Next := do
  match c.stage, m with
  | .connecting left, .send .push =>
    match l.up.write left with
    | .broken => return c.fail l brokenPipe
    | .full => none
    | .took up taken left =>
      let stage := if left.isEmpty then .awaiting else .connecting left
      return ({ c with stage := stage }, { l with up := up }, [.wrote .reader taken])
  | .awaiting, .cancel => if c.cancelled then return c.fail l .cancelled else none
  | .awaiting, .receive =>
    match ← c.receiveStep l with
    | (c, l, none) => return (c, l, [])
    | (c, l, some f) => return c.fail l f
  | .awaiting, .dispatch =>
    match c.assembler.next with
    | .ok none => none
    | .error f => return c.fail l f
    | .ok (some (f, a)) =>
      let c := { c with assembler := a }
      match c.greet f with
      | .error e => return c.fail l e
      | .ok () => return c.run l
  | _, _ => none

/-! ### The reading task -/

/-- The task waits for the next frame. -/
def readOn (c : Client) : Client :=
  { c with reader := .reading, assembler := c.assembler.retire }

/-- Keeps a message that some active filter wants, and drops any other. Nothing is kept for a
program that is gone. -/
def keep (c : Client) (p : Publish) : Client :=
  if !c.isSubscribed p.topic then c.readOn
  else if c.dropped then c.endReader
  else { c with inbox := c.inbox ++ [p.message] }.readOn

/-- The task acknowledges a packet. -/
def answer (c : Client) (ack : Packet) (p : Option Publish) : Client :=
  { c with reader := .answering (c.frameOf ack) .starting p }

/-- The task takes a packet. -/
def handle (c : Client) : Packet → Client
  | .publish p =>
    match p.qos, p.packetId with
    | .atLeastOnce, some id => c.answer (.pubAck id) (some p)
    | .exactlyOnce, some id => c.answer (.pubRec id) (some p)
    | _, _ => c.keep p
  | .pubRel id => c.answer (.pubComp id) none
  | .pubAck id => (c.complete id (.pubAck id)).readOn
  | .subAck id codes => (c.complete id (.subAck id codes)).readOn
  | .unsubAck id => (c.complete id (.unsubAck id)).readOn
  | .disconnect => c.endReader
  | _ => c.readOn

/-- A move of the reading task. -/
def readerStep (c : Client) (l : Link) (m : Move) : Option Next := do
  match c.reader, m with
  | .reading, .cancel => if c.cancelled then return (c.endReader, l, []) else none
  | .reading, .receive =>
    match ← c.receiveStep l with
    | (c, l, none) => return (c, l, [])
    -- Nobody asks the task why it ended.
    | (c, l, some _) => return (c.endReader, l, [])
  | .reading, .dispatch =>
    match c.assembler.next with
    | .ok none => none
    | .error _ => return (c.endReader, l, [])
    | .ok (some (f, a)) =>
      let c := { c with assembler := a }
      match Packet.decode c.config.version f with
      | .error _ => return (c.endReader, l, [])
      | .ok p => return (c.handle p, l, [])
  | .answering frame state p, .send m =>
    let (c, l, state, seen) ← c.sendStep l .reader frame state m
    match state, p with
    | .inl s, _ => return ({ c with reader := .answering frame s p }, l, seen)
    | .inr (.error _), _ => return (c.endReader, l, seen)
    | .inr (.ok ()), some p => return (c.keep p, l, seen)
    | .inr (.ok ()), none => return (c.readOn, l, seen)
  | _, _ => none

/-! ### The pinging task -/

/-- A move of the pinging task. -/
def keeperStep (c : Client) (l : Link) (m : Move) : Option Next := do
  match c.keeper, m with
  | .sleeping _, .cancel => if c.cancelled then return ({ c with keeper := .over }, l, []) else none
  | .sleeping wake, .wake =>
    if wake ≤ c.now then return ({ c with keeper := .pinging .starting }, l, []) else none
  | .pinging state, .send m =>
    let (c, l, state, seen) ← c.sendStep l .keeper (c.frameOf .pingReq) state m
    match state with
    | .inl s => return ({ c with keeper := .pinging s }, l, seen)
    | .inr (.ok ()) =>
      let next := match pingInterval c.config with
        | some n => .sleeping (c.now + n)
        | none => .over
      return ({ c with keeper := next }, l, seen)
    | .inr (.error f) =>
      -- A stream that cannot be written to is of no use to anybody else.
      return ({ c with keeper := .over, cancelled := c.cancelled || !f.isDisconnect }, l, seen)
  | _, _ => none

/-! ### Calls -/

/-- A call returns. -/
def returns (c : Client) (l : Link) (k : Nat) (a : CallAnswer)
    (seen : List ClientObservation) : Next :=
  ({ c with calls := c.calls.erase k }, l, seen ++ [.answered k a])

/-- A call that has nothing to tell returns. -/
def returnsUnit (c : Client) (l : Link) (k : Nat) (r : Except Fault Unit)
    (seen : List ClientObservation) : Next :=
  c.returns l k (match r with
    | .ok () => .done
    | .error f => .failed f) seen

/-- The filters of a failed SUBSCRIBE that were not active before are inactive again. -/
def rollBack (c : Client) (filters : List String) : Client :=
  filters.foldl dropFilter c

/-- Of the filters that a SUBSCRIBE made active, those that the broker refused are inactive again.
A code that belongs to no filter, and a filter without a code, change nothing. -/
def dropRefused (c : Client) (added : List String) :
    List (Subscription × SubscribeCode) → Client
  | [] => c
  | (w, code) :: rest =>
    let c := if code = .refused && added.contains w.filter then c.dropFilter w.filter else c
    c.dropRefused added rest

/-- A request fails: the id is given back, and what the request had changed is undone. -/
def requestFails (c : Client) (l : Link) (k : Nat) (purpose : Purpose) (id : UInt16) (f : Fault)
    (seen : List ClientObservation) : Next :=
  let c := c.release k id
  let c := match purpose with
    | .subscribe _ added => c.rollBack added
    | _ => c
  (c, l, seen ++ [.answered k (.failed f)])

/-- A request has its acknowledgement. -/
def requestReturns (c : Client) (l : Link) (k : Nat) (purpose : Purpose) (id : UInt16)
    (ack : Packet) : Next :=
  let done (c : Client) (a : CallAnswer) : Next := (c, l, [.answered k a])
  match purpose, ack with
  | .publish, .pubAck id' => done (c.release k id) (.packetId id')
  | .publish, p => c.requestFails l k purpose id (.unexpectedPacket .pubAck p) []
  | .subscribe wanted added, .subAck _ codes =>
    done ((c.release k id).dropRefused added (wanted.zip codes)) (.codes codes)
  | .subscribe .., p => c.requestFails l k purpose id (.unexpectedPacket .subAck p) []
  | .unsubscribe filters, .unsubAck _ => done ((c.release k id).rollBack filters) .done
  | .unsubscribe _, p => c.requestFails l k purpose id (.unexpectedPacket .unsubAck p) []

/-- Whether a call that receives has something to take. -/
def canTake (c : Client) (k : Nat) : Bool :=
  c.receivers.holds k && (!c.inbox.isEmpty || !c.inboxOpen)

/-- A move of a call. -/
def callStep (c : Client) (l : Link) (k : Nat) (m : Move) : Option Next := do
  match ← c.calls[k]?, m with
  | .send frame state, .send m =>
    let (c, l, state, seen) ← c.sendStep l (.call k) frame state m
    match state with
    | .inl s => return (c.setCall k (.send frame s), l, seen)
    | .inr r => return c.returnsUnit l k r seen
  | .request purpose id frame slot (some state), .send m =>
    let (c, l, state, seen) ← c.sendStep l (.call k) frame state m
    match state with
    | .inl s => return (c.setCall k (.request purpose id frame slot (some s)), l, seen)
    | .inr (.ok ()) => return (c.setCall k (.request purpose id frame slot none), l, seen)
    | .inr (.error f) => return c.requestFails l k purpose id f seen
  | .request purpose id _ (.filled p) none, .take => return c.requestReturns l k purpose id p
  | .request purpose id _ .lost none, .take =>
    return c.requestFails l k purpose id .connectionClosed []
  | .request purpose id _ _ none, .cancel =>
    if c.cancelled then return c.requestFails l k purpose id .cancelled [] else none
  | .receive deadline false, .enter =>
    return ({ c.setCall k (.receive deadline true) with
      receivers := c.receivers.enter k }, l, [])
  | .receive _ true, .take =>
    if c.receivers.holds k then
      let left := { c with receivers := c.receivers.leave k }
      match c.inbox with
      | m :: rest => return { left with inbox := rest }.returns l k (.message (some m)) []
      | [] =>
        if c.inboxOpen then none else return left.returns l k (.failed .connectionClosed) []
    else none
  | .receive (some deadline) true, .expire =>
    if deadline ≤ c.now && !c.canTake k then
      return { c with receivers := c.receivers.leave k }.returns l k (.message none) []
    else none
  | .leave frame state, .send m =>
    let (c, l, state, seen) ← c.sendStep l (.call k) frame state m
    match state with
    | .inl s => return (c.setCall k (.leave frame s), l, seen)
    -- The turnstile is free until the call comes to it again, and others may go first.
    | .inr r => return (c.setCall k (.leaving r false), l, seen)
  | .leaving r false, .enter =>
    return ({ c.setCall k (.leaving r true) with turnstile := c.turnstile.enter (.call k) }, l, [])
  | .leaving r true, .shut =>
    if c.turnstile.holds (.call k) then
      return { c with turnstile := c.turnstile.leave (.call k), cancelled := true }.returnsUnit
        { l with up := l.up.close } k r []
    else none
  | _, _ => none

/-! ### All together -/

/-- Whether nobody is left who could use the stream. -/
def isForsaken (c : Client) : Bool :=
  c.dropped && c.calls.isEmpty &&
    match c.stage, c.reader, c.keeper with
    | .running, .over, .over => true
    | _, _, _ => false

/-- One move of a client, with what is seen of it. Nothing if the move is not possible. -/
def step (c : Client) (l : Link) : Action → Option Next
  | .party .reader m =>
    match c.stage with
    | .running => c.readerStep l m
    | _ => c.openStep l m
  | .party .keeper m => c.keeperStep l m
  | .party (.call k) m => c.callStep l k m
  | .giveUp =>
    if c.isForsaken then some ({ c with stage := .closed }, l.drop, []) else none

end Client
end Mqtt
