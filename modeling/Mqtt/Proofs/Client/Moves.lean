import Mqtt.Client.Calls
import Mqtt.Proofs.Packet.Filters
import Mqtt.Proofs.Stream.Sending
/-!
# What a client can do

The moves of a client as rules, by who moves: `Sends` for a party that sends a frame, `Opens` for
the opening of the session, `Reads` for the reading task, with `Handles` for a packet that it has
taken, `Keeps` for the pinging task and `Calls` for a call. `step_cases` says that these are all of
them, so a proof about every move is a case for each rule, and never looks into `Client.step`.

Each rule holds what the move needs and the client it leads to.
-/

namespace Mqtt
namespace Client

variable {c : Client} {l : Link} {n : Next}

/-! ### Writing and reading -/

/-- What is seen of bytes that the stream has taken. -/
def wrote (i : Party) (bs : Bytes) : List ClientObservation :=
  if bs.isEmpty then [] else [.wrote i bs]

/-- The moves of a party that sends a frame. -/
inductive Sends (c : Client) (l : Link) (i : Party) (frame : Except Fault Bytes) (s : Sending)
    (m : SendMove) :
    Client → Link → Sending ⊕ Except Fault Unit → List ClientObservation → Prop
  | intro {sent : Sent Party} :
    Outlet.Moves ⟨c.turnstile, l.up⟩ i frame c.cancelled s m sent →
    Sends c l i frame s m { c with turnstile := sent.outlet.turnstile }
      { l with up := sent.outlet.pipe } sent.state (wrote i sent.pushed)

theorem sends_of_sendStep {c' : Client} {l' : Link} {i : Party} {frame : Except Fault Bytes}
    {s : Sending} {m : SendMove} {r : Sending ⊕ Except Fault Unit}
    {seen : List ClientObservation} (h : c.sendStep l i frame s m = some (c', l', r, seen)) :
    Sends c l i frame s m c' l' r seen := by
  rw [sendStep] at h
  obtain ⟨sent, hsent, h⟩ := Option.bind_eq_some_iff.1 h
  cases h
  exact .intro (Outlet.moves_of_step_eq_some hsent)

/-- The client after it has taken bytes. -/
def takeBytes (c : Client) (bs : Bytes) : Client :=
  { c with assembler := c.assembler.receive bs }

/-- The client after it has taken a frame. -/
def takeFrame (c : Client) (a : Assembler) : Client := { c with assembler := a }

theorem receive_cases {c' : Client} {l' : Link} {r : Option Fault}
    (h : c.receiveStep l = some (c', l', r)) :
    c.assembler.next = .ok none ∧
      ((l.down.read readSize = .ended ∧ c' = c ∧ l' = l ∧ r = some .connectionClosed) ∨
        ∃ bs down, l.down.read readSize = .got bs down ∧ c' = c.takeBytes bs ∧
          l' = { l with down := down } ∧ r = none) := by
  rw [receiveStep] at h
  split at h
  · next hnext =>
    refine ⟨hnext, ?_⟩
    split at h
    · cases h
    · next hread =>
      cases h
      exact .inl ⟨hread, rfl, rfl, rfl⟩
    · next bs down hread =>
      cases h
      exact .inr ⟨bs, down, hread, rfl, rfl, rfl⟩
  · cases h

/-! ### Opening the session -/

/-- Why a session cannot be opened. -/
inductive Fails (c : Client) (l : Link) : Move → Fault → Prop
  | broken {left : Bytes} : c.stage = .connecting left → l.up.closed = true →
    Fails c l (.send .push) brokenPipe
  | cancelled : c.stage = .awaiting → c.cancelled = true → Fails c l .cancel .cancelled
  | ended : c.stage = .awaiting → c.assembler.next = .ok none →
    l.down.read readSize = .ended → Fails c l .receive .connectionClosed
  | malformed {f : Fault} : c.stage = .awaiting → c.assembler.next = .error f →
    Fails c l .dispatch f

/-- The moves of the call that opens the session. -/
inductive Opens (c : Client) (l : Link) : Move → Next → Prop
  | connects {left taken rest : Bytes} {up : Pipe} : c.stage = .connecting left →
    l.up.write left = .took up taken rest →
    Opens c l (.send .push)
      ({ c with stage := if rest.isEmpty then .awaiting else .connecting rest },
        { l with up := up }, [.wrote .reader taken])
  | fails {m : Move} {f : Fault} : Fails c l m f → Opens c l m (c.fail l f)
  | reads {bs : Bytes} {down : Pipe} : c.stage = .awaiting → c.assembler.next = .ok none →
    l.down.read readSize = .got bs down →
    Opens c l .receive (c.takeBytes bs, { l with down := down }, [])
  | unwelcome {f : Frame} {a : Assembler} {e : Fault} : c.stage = .awaiting →
    c.assembler.next = .ok (some (f, a)) → (c.takeFrame a).greet f = .error e →
    Opens c l .dispatch ((c.takeFrame a).fail l e)
  | opens {f : Frame} {a : Assembler} : c.stage = .awaiting →
    c.assembler.next = .ok (some (f, a)) → (c.takeFrame a).greet f = .ok () →
    Opens c l .dispatch ((c.takeFrame a).run l)

theorem opens_of_openStep {m : Move} (h : c.openStep l m = some n) : Opens c l m n := by
  unfold openStep at h
  split at h
  · next left hstage =>
    -- The CONNECT is being written.
    split at h
    · next hw =>
      cases h
      exact .fails (.broken hstage (Pipe.write_eq_broken.1 hw))
    · cases h
    · next up taken rest hw =>
      cases h
      exact .connects hstage hw
  · next hstage =>
    split_ifs at h with hc
    cases h
    exact .fails (.cancelled hstage hc)
  · next hstage =>
    replace h := Option.bind_eq_some_iff.1 h
    -- The answer is awaited: the stream ends, or there are bytes.
    obtain ⟨⟨c₁, l₁, r⟩, hreceive, h⟩ := h
    obtain ⟨hnext, ⟨hread, rfl, rfl, rfl⟩ | ⟨bs, down, hread, rfl, rfl, rfl⟩⟩ :=
      receive_cases hreceive
    · cases h
      exact .fails (.ended hstage hnext hread)
    · cases h
      exact .reads hstage hnext hread
  · next hstage =>
    split at h
    · cases h
    · next f hnext =>
      -- What is in front is malformed.
      cases h
      exact .fails (.malformed hstage hnext)
    · next f a hnext =>
      dsimp only at h
      split at h
      · next e hgreet =>
        cases h
        exact .unwelcome hstage hnext hgreet
      · next hgreet =>
        cases h
        exact .opens hstage hnext hgreet
  · cases h

/-! ### The reading task -/

/-- What the reading task does with a packet. -/
inductive Handles (c : Client) : Packet → Client → Prop
  | acknowledges {p : Publish} {ack : Packet} : Packet.Acknowledges p ack →
    Handles c (.publish p) (c.answer ack (some p))
  | keeps {p : Publish} : (∀ ack, ¬Packet.Acknowledges p ack) → Handles c (.publish p) (c.keep p)
  | releases {id : UInt16} : Handles c (.pubRel id) (c.answer (.pubComp id) none)
  | completes {id : UInt16} {p : Packet} : p.Answers id → Handles c p (c.complete id p).readOn
  | disconnects : Handles c .disconnect c.endReader
  -- No call waits for such a packet.
  | ignores {p : Packet} :
    p.kind ∈ ([.connect, .connAck, .pubRec, .pubComp, .subscribe, .unsubscribe, .pingReq,
      .pingResp] : List PacketKind) →
    Handles c p c.readOn

theorem handles_handle (p : Packet) : Handles c p (c.handle p) := by
  cases p with
  | publish p =>
    unfold handle
    dsimp only
    split
    · next hqos hid => exact .acknowledges (.atLeastOnce hqos hid)
    · next hqos hid => exact .acknowledges (.exactlyOnce hqos hid)
    · next hleast hexactly =>
      refine .keeps ?_
      rintro ack (⟨hqos, hid⟩ | ⟨hqos, hid⟩)
      · exact hleast _ hqos hid
      · exact hexactly _ hqos hid
  | pubRel _ => exact .releases
  | pubAck _ => exact .completes .pubAck
  | subAck _ _ => exact .completes .subAck
  | unsubAck _ => exact .completes .unsubAck
  | disconnect => exact .disconnects
  | _ => exact .ignores (by simp [Packet.kind])

/-- The reading task goes on once its answer is written. -/
def afterAnswer (c : Client) : Option Publish → Client
  | some p => c.keep p
  | none => c.readOn

/-- Why the reading task ends while it waits for a frame. -/
inductive Ceases (c : Client) (l : Link) : Move → Prop
  | cancelled : c.cancelled = true → Ceases c l .cancel
  | ended : c.assembler.next = .ok none → l.down.read readSize = .ended → Ceases c l .receive
  | malformed {f : Fault} : c.assembler.next = .error f → Ceases c l .dispatch

/-- The moves of the reading task. -/
inductive Reads (c : Client) (l : Link) : Move → Next → Prop
  | ceases {m : Move} : c.reader = .reading → Ceases c l m → Reads c l m (c.endReader, l, [])
  | reads {bs : Bytes} {down : Pipe} : c.reader = .reading → c.assembler.next = .ok none →
    l.down.read readSize = .got bs down →
    Reads c l .receive (c.takeBytes bs, { l with down := down }, [])
  | undecodable {f : Frame} {a : Assembler} {e : Fault} : c.reader = .reading →
    c.assembler.next = .ok (some (f, a)) → Packet.decode c.config.version f = .error e →
    Reads c l .dispatch ((c.takeFrame a).endReader, l, [])
  | handles {f : Frame} {a : Assembler} {p : Packet} : c.reader = .reading →
    c.assembler.next = .ok (some (f, a)) → Packet.decode c.config.version f = .ok p →
    Reads c l .dispatch ((c.takeFrame a).handle p, l, [])
  | answers {frame : Except Fault Bytes} {s s' : Sending} {p : Option Publish} {m : SendMove}
    {c' : Client} {l' : Link} {seen : List ClientObservation} : c.reader = .answering frame s p →
    Sends c l .reader frame s m c' l' (.inl s') seen →
    Reads c l (.send m) ({ c' with reader := .answering frame s' p }, l', seen)
  | answerFails {frame : Except Fault Bytes} {s : Sending} {p : Option Publish} {m : SendMove}
    {c' : Client} {l' : Link} {f : Fault} {seen : List ClientObservation} :
    c.reader = .answering frame s p → Sends c l .reader frame s m c' l' (.inr (.error f)) seen →
    Reads c l (.send m) (c'.endReader, l', seen)
  | answered {frame : Except Fault Bytes} {s : Sending} {p : Option Publish} {m : SendMove}
    {c' : Client} {l' : Link} {seen : List ClientObservation} :
    c.reader = .answering frame s p → Sends c l .reader frame s m c' l' (.inr (.ok ())) seen →
    Reads c l (.send m) (c'.afterAnswer p, l', seen)

theorem reads_of_readerStep {m : Move} (h : c.readerStep l m = some n) : Reads c l m n := by
  unfold readerStep at h
  split at h
  · next hreader =>
    split_ifs at h with hc
    cases h
    exact .ceases hreader (.cancelled hc)
  · next hreader =>
    replace h := Option.bind_eq_some_iff.1 h
    -- No frame is in front: the stream ends, or there are bytes.
    obtain ⟨⟨c₁, l₁, r⟩, hreceive, h⟩ := h
    obtain ⟨hnext, ⟨hread, rfl, rfl, rfl⟩ | ⟨bs, down, hread, rfl, rfl, rfl⟩⟩ :=
      receive_cases hreceive
    · cases h
      exact .ceases hreader (.ended hnext hread)
    · cases h
      exact .reads hreader hnext hread
  · next hreader =>
    split at h
    · cases h
    · next f hnext =>
      cases h
      exact .ceases hreader (.malformed hnext)
    · next f a hnext =>
      dsimp only at h
      split at h
      · next e hdecode =>
        cases h
        exact .undecodable hreader hnext hdecode
      · next p hdecode =>
        cases h
        exact .handles hreader hnext hdecode
  · next frame s p m hreader =>
    -- An answer is being written.
    replace h := Option.bind_eq_some_iff.1 h
    obtain ⟨⟨c₁, l₁, state, seen⟩, hsend, h⟩ := h
    have hsends := sends_of_sendStep hsend
    rcases state with s' | f | ⟨⟩
    · cases h
      exact .answers hreader hsends
    · cases h
      exact .answerFails hreader hsends
    · cases p with
      | none =>
        cases h
        exact .answered hreader hsends
      | some p =>
        cases h
        exact .answered hreader hsends
  · cases h

/-! ### The pinging task -/

/-- Where the pinging task stands after a ping. -/
def nextPing (c : Client) : Keeper :=
  match pingInterval c.config with
  | some n => .sleeping (c.now + n)
  | none => .over

/-- The moves of the pinging task. -/
inductive Keeps (c : Client) (l : Link) : Move → Next → Prop
  | ceases {wake : Nat} : c.keeper = .sleeping wake → c.cancelled = true →
    Keeps c l .cancel ({ c with keeper := .over }, l, [])
  | wakes {wake : Nat} : c.keeper = .sleeping wake → wake ≤ c.now →
    Keeps c l .wake ({ c with keeper := .pinging .starting }, l, [])
  | pings {s s' : Sending} {m : SendMove} {c' : Client} {l' : Link}
    {seen : List ClientObservation} : c.keeper = .pinging s →
    Sends c l .keeper (c.frameOf .pingReq) s m c' l' (.inl s') seen →
    Keeps c l (.send m) ({ c' with keeper := .pinging s' }, l', seen)
  | pinged {s : Sending} {m : SendMove} {c' : Client} {l' : Link}
    {seen : List ClientObservation} : c.keeper = .pinging s →
    Sends c l .keeper (c.frameOf .pingReq) s m c' l' (.inr (.ok ())) seen →
    Keeps c l (.send m) ({ c' with keeper := c'.nextPing }, l', seen)
  | pingFails {s : Sending} {m : SendMove} {c' : Client} {l' : Link} {f : Fault}
    {seen : List ClientObservation} : c.keeper = .pinging s →
    Sends c l .keeper (c.frameOf .pingReq) s m c' l' (.inr (.error f)) seen →
    Keeps c l (.send m)
      ({ c' with keeper := .over, cancelled := c'.cancelled || !f.isDisconnect }, l', seen)

theorem keeps_of_keeperStep {m : Move} (h : c.keeperStep l m = some n) : Keeps c l m n := by
  unfold keeperStep at h
  split at h
  · next hkeeper =>
    split_ifs at h with hc
    cases h
    exact .ceases hkeeper hc
  · next hkeeper =>
    split_ifs at h with hwake
    cases h
    exact .wakes hkeeper hwake
  · next hkeeper =>
    replace h := Option.bind_eq_some_iff.1 h
    obtain ⟨⟨c₁, l₁, state, seen⟩, hsend, h⟩ := h
    have hsends := sends_of_sendStep hsend
    rcases state with s' | f | ⟨⟩
    · cases h
      exact .pings hkeeper hsends
    · cases h
      exact .pingFails hkeeper hsends
    · cases h
      exact .pinged hkeeper hsends
  · cases h

/-! ### Calls -/

/-- The client after a receiving call has left the line. -/
def leaveReceivers (c : Client) (k : Nat) : Client :=
  { c with receivers := c.receivers.leave k }

/-- The moves of a call that sends, asks for something, or leaves. -/
inductive Calls (c : Client) (l : Link) (k : Nat) : Call → Move → Next → Prop
  | sends {frame : Except Fault Bytes} {s s' : Sending} {m : SendMove} {c' : Client} {l' : Link}
    {seen : List ClientObservation} : Sends c l (.call k) frame s m c' l' (.inl s') seen →
    Calls c l k (.send frame s) (.send m) (c'.setCall k (.send frame s'), l', seen)
  | sent {frame : Except Fault Bytes} {s : Sending} {m : SendMove} {c' : Client} {l' : Link}
    {r : Except Fault Unit} {seen : List ClientObservation} :
    Sends c l (.call k) frame s m c' l' (.inr r) seen →
    Calls c l k (.send frame s) (.send m) (c'.returnsUnit l' k r seen)
  | requests {purpose : Purpose} {id : UInt16} {frame : Except Fault Bytes} {slot : Slot}
    {s s' : Sending} {m : SendMove} {c' : Client} {l' : Link} {seen : List ClientObservation} :
    Sends c l (.call k) frame s m c' l' (.inl s') seen →
    Calls c l k (.request purpose id frame slot (some s)) (.send m)
      (c'.setCall k (.request purpose id frame slot (some s')), l', seen)
  | requested {purpose : Purpose} {id : UInt16} {frame : Except Fault Bytes} {slot : Slot}
    {s : Sending} {m : SendMove} {c' : Client} {l' : Link} {seen : List ClientObservation} :
    Sends c l (.call k) frame s m c' l' (.inr (.ok ())) seen →
    Calls c l k (.request purpose id frame slot (some s)) (.send m)
      (c'.setCall k (.request purpose id frame slot none), l', seen)
  | requestFails {purpose : Purpose} {id : UInt16} {frame : Except Fault Bytes} {slot : Slot}
    {s : Sending} {m : SendMove} {c' : Client} {l' : Link} {f : Fault}
    {seen : List ClientObservation} : Sends c l (.call k) frame s m c' l' (.inr (.error f)) seen →
    Calls c l k (.request purpose id frame slot (some s)) (.send m)
      (c'.requestFails l' k purpose id f seen)
  | acknowledged {purpose : Purpose} {id : UInt16} {frame : Except Fault Bytes} {p : Packet} :
    Calls c l k (.request purpose id frame (.filled p) none) .take
      (c.requestReturns l k purpose id p)
  | forgotten {purpose : Purpose} {id : UInt16} {frame : Except Fault Bytes} :
    Calls c l k (.request purpose id frame .lost none) .take
      (c.requestFails l k purpose id .connectionClosed [])
  | cancelled {purpose : Purpose} {id : UInt16} {frame : Except Fault Bytes} {slot : Slot} :
    c.cancelled = true →
    Calls c l k (.request purpose id frame slot none) .cancel
      (c.requestFails l k purpose id .cancelled [])
  | waits {deadline : Option Nat} :
    Calls c l k (.receive deadline false) .enter
      ({ c.setCall k (.receive deadline true) with receivers := c.receivers.enter k }, l, [])
  | receives {deadline : Option Nat} {m : Message} {rest : List Message} :
    c.receivers.inside = some k → c.inbox = m :: rest →
    Calls c l k (.receive deadline true) .take
      ({ c.leaveReceivers k with inbox := rest }.returns l k (.message (some m)) [])
  | exhausts {deadline : Option Nat} : c.receivers.inside = some k → c.inbox = [] →
    c.inboxOpen = false →
    Calls c l k (.receive deadline true) .take
      ((c.leaveReceivers k).returns l k (.failed .connectionClosed) [])
  | expires {deadline : Nat} : deadline ≤ c.now → c.canTake k = false →
    Calls c l k (.receive (some deadline) true) .expire
      ((c.leaveReceivers k).returns l k (.message none) [])
  | leaves {frame : Except Fault Bytes} {s s' : Sending} {m : SendMove} {c' : Client} {l' : Link}
    {seen : List ClientObservation} : Sends c l (.call k) frame s m c' l' (.inl s') seen →
    Calls c l k (.leave frame s) (.send m) (c'.setCall k (.leave frame s'), l', seen)
  | left {frame : Except Fault Bytes} {s : Sending} {m : SendMove} {c' : Client} {l' : Link}
    {r : Except Fault Unit} {seen : List ClientObservation} :
    Sends c l (.call k) frame s m c' l' (.inr r) seen →
    Calls c l k (.leave frame s) (.send m) (c'.setCall k (.leaving r false), l', seen)
  | comes {r : Except Fault Unit} :
    Calls c l k (.leaving r false) .enter
      ({ c.setCall k (.leaving r true) with turnstile := c.turnstile.enter (.call k) }, l, [])
  | shuts {r : Except Fault Unit} : c.turnstile.inside = some (.call k) →
    Calls c l k (.leaving r true) .shut
      ({ c with turnstile := c.turnstile.leave (.call k), cancelled := true }.returnsUnit
        { l with up := l.up.close } k r [])

theorem calls_of_callStep {k : Nat} {m : Move} (h : c.callStep l k m = some n) :
    ∃ call, c.calls[k]? = some call ∧ Calls c l k call m n := by
  unfold callStep at h
  replace h := Option.bind_eq_some_iff.1 h
  obtain ⟨call, hcall, h⟩ := h
  refine ⟨call, hcall, ?_⟩
  -- From here on the cases are those of `callStep`, in its order.
  split at h
  · replace h := Option.bind_eq_some_iff.1 h
    obtain ⟨⟨c₁, l₁, state, seen⟩, hsend, h⟩ := h
    have hsends := sends_of_sendStep hsend
    rcases state with s' | r
    · cases h
      exact .sends hsends
    · cases h
      exact .sent hsends
  · replace h := Option.bind_eq_some_iff.1 h
    obtain ⟨⟨c₁, l₁, state, seen⟩, hsend, h⟩ := h
    have hsends := sends_of_sendStep hsend
    rcases state with s' | f | ⟨⟩
    · cases h
      exact .requests hsends
    · cases h
      exact .requestFails hsends
    · cases h
      exact .requested hsends
  · cases h
    exact .acknowledged
  · cases h
    exact .forgotten
  · split_ifs at h with hc
    cases h
    exact .cancelled hc
  · cases h
    exact .waits
  · split at h
    · next hholds =>
      dsimp only at h
      split at h
      · next m rest hinbox =>
        cases h
        exact .receives (Turnstile.holds_iff.1 hholds) hinbox
      · next hinbox =>
        split_ifs at h with hopen
        cases h
        exact .exhausts (Turnstile.holds_iff.1 hholds) hinbox (by simpa using hopen)
    · cases h
  · split_ifs at h with hlate
    rw [Bool.and_eq_true, decide_eq_true_eq, Bool.not_eq_true'] at hlate
    cases h
    exact .expires hlate.1 hlate.2
  · replace h := Option.bind_eq_some_iff.1 h
    obtain ⟨⟨c₁, l₁, state, seen⟩, hsend, h⟩ := h
    have hsends := sends_of_sendStep hsend
    rcases state with s' | r
    · cases h
      exact .leaves hsends
    · cases h
      exact .left hsends
  · cases h
    exact .comes
  · split_ifs at h with hholds
    cases h
    exact .shuts (Turnstile.holds_iff.1 hholds)
  · cases h

/-! ### All together -/

/-- **The moves of a client**, by who moves. -/
inductive Steps (c : Client) (l : Link) : Action → Next → Prop
  | opening {m : Move} {n : Next} : Opens c l m n → Steps c l (.party .reader m) n
  | reader {m : Move} {n : Next} : c.stage = .running → Reads c l m n →
    Steps c l (.party .reader m) n
  | keeper {m : Move} {n : Next} : Keeps c l m n → Steps c l (.party .keeper m) n
  | call {k : Nat} {call : Call} {m : Move} {n : Next} : c.calls[k]? = some call →
    Calls c l k call m n → Steps c l (.party (.call k) m) n
  | givesUp : c.isForsaken = true →
    Steps c l .giveUp ({ c with stage := .closed }, l.drop, [])

theorem step_cases {a : Action} (h : c.step l a = some n) : Steps c l a n := by
  rcases a with ⟨⟨⟩ | ⟨⟩ | k, m⟩ | _
  · rw [step] at h
    split at h
    · next hstage => exact .reader hstage (reads_of_readerStep h)
    · exact .opening (opens_of_openStep h)
  · exact .keeper (keeps_of_keeperStep h)
  · obtain ⟨call, hcall, hcalls⟩ := calls_of_callStep h
    exact .call hcall hcalls
  · rw [step] at h
    split_ifs at h with hforsaken
    cases h
    exact .givesUp hforsaken

/-! ### Calls that begin -/

/-- The packet ids after one has been taken for a call. -/
def reserved (c : Client) (ids : PacketIds) : Client := { c with ids := ids }

/-- How a call begins, unless it answers at once. -/
inductive Starts (c : Client) (k : Nat) : ClientCall → Client → Prop
  | publish {topic : String} {payload : Bytes} {retain : Bool} : Topic.validate topic = .ok () →
    Starts c k (.publish topic payload retain)
      (c.startSend k (.publish ((Publish.plain topic payload).withRetain retain)))
  | publishAcknowledged {topic : String} {payload : Bytes} {id : UInt16} {ids : PacketIds} :
    Topic.validate topic = .ok () → c.ids.reserve k = (some id, ids) →
    Starts c k (.publishAcknowledged topic payload)
      ((c.reserved ids).startRequest k .publish id
        (.publish ((Publish.plain topic payload).withQoS .atLeastOnce (some id))))
  | subscribe {wanted : List Subscription} {id : UInt16} {ids : PacketIds} : wanted ≠ [] →
    (∀ w ∈ wanted, Topic.validateFilter w.filter = .ok ()) → c.ids.reserve k = (some id, ids) →
    Starts c k (.subscribe wanted)
      (((c.reserved ids).addFilters (wanted.map Subscription.filter)).1.startRequest k
        (.subscribe wanted ((c.reserved ids).addFilters (wanted.map Subscription.filter)).2) id
        (.subscribe id wanted))
  | unsubscribe {gone : List String} {id : UInt16} {ids : PacketIds} : gone ≠ [] →
    c.ids.reserve k = (some id, ids) →
    Starts c k (.unsubscribe gone)
      ((c.reserved ids).startRequest k (.unsubscribe gone) id (.unsubscribe id gone))
  | ping : Starts c k .ping (c.startSend k .pingReq)
  | disconnect : Starts c k .disconnect (c.setCall k (.leave (c.frameOf .disconnect) .starting))
  | receive {millis : Option Nat} :
    Starts c k (.receive millis) (c.setCall k (.receive (millis.map (c.now + ·)) false))

theorem forM_eq_ok {α : Type} {check : α → Except Fault Unit} {as : List α} :
    as.forM check = .ok () ↔ ∀ a ∈ as, check a = .ok () := by
  induction as with
  | nil => simp [pure, Except.pure]
  | cons a as ih =>
    rw [List.forM, List.forall_mem_cons, ← ih]
    rcases check a with f | ⟨⟩
    · simp [bind, Except.bind]
    · simp [bind, Except.bind]

theorem reserve_eq_ok {k : Nat} {id : UInt16} {c' : Client} (h : c.reserve k = .ok (id, c')) :
    ∃ ids, c.ids.reserve k = (some id, ids) ∧ c' = c.reserved ids := by
  rw [reserve] at h
  split at h
  · next id' ids hids =>
    cases h
    exact ⟨ids, hids, rfl⟩
  · cases h

theorem starts_of_start {k : Nat} {call : ClientCall} {c' : Client} (h : c.start k call = .ok c') :
    Starts c k call c' := by
  cases call with
  | publish topic payload retain =>
    rw [start] at h
    rcases hv : Topic.validate topic with f | ⟨⟩
    · rw [hv] at h
      cases h
    · rw [hv] at h
      cases h
      exact .publish hv
  | publishAcknowledged topic payload =>
    rw [start] at h
    rcases hv : Topic.validate topic with f | ⟨⟩
    · rw [hv] at h
      cases h
    · rw [hv] at h
      rcases hr : c.reserve k with f | ⟨id, c₁⟩
      · simp only [bind, Except.bind, hr] at h
        cases h
      · obtain ⟨ids, hids, rfl⟩ := reserve_eq_ok hr
        simp only [bind, Except.bind, hr] at h
        cases h
        exact .publishAcknowledged hv hids
  | subscribe wanted =>
    rw [start] at h
    split_ifs at h with hempty
    -- Every filter is checked before an id is taken.
    rcases hv : (wanted.forM fun w => Topic.validateFilter w.filter) with f | ⟨⟩
    · simp only [bind, Except.bind, hv] at h
      cases h
    · rcases hr : c.reserve k with f | ⟨id, c₁⟩
      · simp only [bind, Except.bind, hv, hr] at h
        cases h
      · obtain ⟨ids, hids, rfl⟩ := reserve_eq_ok hr
        simp only [bind, Except.bind, hv, hr] at h
        cases h
        exact .subscribe (by simpa using hempty) (forM_eq_ok.1 hv) hids
  | unsubscribe gone =>
    rw [start] at h
    split_ifs at h with hempty
    rcases hr : c.reserve k with f | ⟨id, c₁⟩
    · rw [hr] at h
      cases h
    · obtain ⟨ids, hids, rfl⟩ := reserve_eq_ok hr
      rw [hr] at h
      cases h
      exact .unsubscribe (by simpa using hempty) hids
  | ping =>
    cases h
    exact .ping
  | disconnect =>
    cases h
    exact .disconnect
  | receive millis =>
    cases h
    exact .receive

/-! ### Calls that are dropped -/

/-- The client after a call has left the line in front of the stream, if it stood there. -/
def quit (c : Client) (k : Nat) (s : Sending) : Client :=
  { c with turnstile := (Outlet.abandon ⟨c.turnstile, .empty 0⟩ (Party.call k) s).turnstile }

/-- What is left when a call is dropped where it stands. -/
inductive Drops (c : Client) (k : Nat) : Option Call → Client → Prop
  | sends {frame : Except Fault Bytes} {s : Sending} :
    Drops c k (some (.send frame s)) { c.quit k s with calls := c.calls.erase k }
  | leaves {frame : Except Fault Bytes} {s : Sending} :
    Drops c k (some (.leave frame s)) { c.quit k s with calls := c.calls.erase k }
  | requests {purpose : Purpose} {id : UInt16} {frame : Except Fault Bytes} {slot : Slot}
    {s : Sending} :
    Drops c k (some (.request purpose id frame slot (some s))) ((c.quit k s).release k id)
  | waits {purpose : Purpose} {id : UInt16} {frame : Except Fault Bytes} {slot : Slot} :
    Drops c k (some (.request purpose id frame slot none)) (c.release k id)
  | receives {deadline : Option Nat} :
    Drops c k (some (.receive deadline true)) { c.leaveReceivers k with calls := c.calls.erase k }
  | shuts {r : Except Fault Unit} :
    Drops c k (some (.leaving r true))
      { c with turnstile := c.turnstile.leave (.call k), calls := c.calls.erase k }
  | outside {deadline : Option Nat} :
    Drops c k (some (.receive deadline false)) { c with calls := c.calls.erase k }
  | apart {r : Except Fault Unit} :
    Drops c k (some (.leaving r false)) { c with calls := c.calls.erase k }
  | absent : Drops c k none { c with calls := c.calls.erase k }

theorem drops_abandon (k : Nat) : Drops c k c.calls[k]? (c.abandon k) := by
  unfold abandon
  rcases c.calls[k]? with
    _ | ⟨frame, s⟩ | ⟨purpose, id, frame, slot, _ | s⟩ | ⟨deadline, _ | _⟩ | ⟨frame, s⟩ |
    ⟨r, _ | _⟩
  · exact .absent
  · exact .sends
  · exact .waits
  · exact .requests
  · exact .outside
  · exact .receives
  · exact .leaves
  · exact .apart
  · exact .shuts

end Client
end Mqtt
