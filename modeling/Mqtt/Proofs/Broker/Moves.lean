import Mqtt.Broker.Host
import Mqtt.Proofs.Packet.Filters
import Mqtt.Proofs.Stream.Sending
/-!
# What a broker can do

The moves of a broker as rules, layer by layer: `Sends` for a frame on its way into the stream of a
session, `Forwards` for a message on its way to every session, `Handles` for a packet that a session
has received, `Serves` for the task of a connection and `Calls` for a call of the host. `step_cases`
says that these are all of them, so a proof about every move is a case for each rule, and never
looks into `Broker.step`. `Accepts` holds the inputs in the same way.

Each rule holds what the move needs and the broker it leads to.
-/

namespace Mqtt

/-- The connection whose peer acts. -/
def BrokerInput.peer? : BrokerInput → Option ConnId
  | peerWrites c _ | peerReads c _ | peerShuts c | peerDrops c => some c
  | _ => none

namespace Broker

variable {b b' : Broker} {c : ConnId} {t : Task}

/-! ### Writing to a session -/

/-- The broker after a move at the turnstile and the pipe towards a client. -/
def putSent (b : Broker) (c : ConnId) (sent : Sent Task) : Broker :=
  b.modifyConn c fun k =>
    { k with
      link := { k.link with down := sent.outlet.pipe }
      session := k.session.map fun s => { s with turnstile := sent.outlet.turnstile } }

/-- What is seen of bytes that a stream has taken. -/
def wrote (c : ConnId) (t : Task) (bs : Bytes) : List Observation :=
  if bs.isEmpty then [] else [.wrote c t bs]

/-- The moves of a delivery. -/
inductive Sends (b : Broker) (t : Task) (d : Delivery) (m : SendMove) :
    Broker → Sending ⊕ Except Fault Unit → List Observation → Prop
  | intro {k : Conn} {s : Session} {sent : Sent Task} :
    b.conns[d.target]? = some k → k.session = some s →
    -- A session that is to end takes no new frame.
    ¬(b.isCancelled s = true ∧ d.state = .starting ∧ m ≠ .giveUp) →
    Outlet.Moves ⟨s.turnstile, k.link.down⟩ t d.frame (b.isCancelled s) d.state m sent →
    Sends b t d m (b.putSent d.target sent) sent.state (wrote d.target t sent.pushed)

theorem sends_of_sendStep {d : Delivery} {m : SendMove} {r : Sending ⊕ Except Fault Unit}
    {seen : List Observation} (h : b.sendStep t d m = some (b', r, seen)) :
    Sends b t d m b' r seen := by
  rw [sendStep] at h
  simp only [Option.bind_eq_bind, Option.bind_eq_some_iff] at h
  obtain ⟨k, hk, s, hs, h⟩ := h
  split_ifs at h with hc
  obtain ⟨sent, hsent, h⟩ := Option.bind_eq_some_iff.1 h
  cases h
  refine .intro hk hs ?_ (Outlet.moves_of_step_eq_some hsent)
  simpa [and_assoc] using hc

theorem sendStep_of_sends {d : Delivery} {m : SendMove} {r : Sending ⊕ Except Fault Unit}
    (h : Sends b t d m b' r seen) : b.sendStep t d m = some (b', r, seen) := by
  cases h with
  | @intro k s sent hk hs hc hmoves =>
    have hallowed : ¬(b.isCancelled s && d.state = .starting && m ≠ .giveUp) = true := by
      simpa [and_assoc] using hc
    rw [sendStep, hk, Option.bind_eq_bind, Option.bind_some, hs, Option.bind_eq_bind,
      Option.bind_some, if_neg hallowed, Outlet.step_eq_some.2 hmoves]
    rfl

/-! ### Forwarding -/

/-- The moves of a task that forwards a message: the forwarding after each, or to how many sessions
the message went. -/
inductive Forwards (b : Broker) (t : Task) (stopped : Bool) (o : FanOut) :
    Move → Broker → FanOut ⊕ Nat → List Observation → Prop
  | exhausts : o.current = none → o.left = [] →
    Forwards b t stopped o .reach b (.inr o.delivered) []
  | passes {c : ConnId} {rest : List ConnId} : o.current = none → o.left = c :: rest →
    b.isSubscribed c o.topic = false →
    Forwards b t stopped o .reach b (.inl { o with left := rest, current := none }) []
  | reaches {c : ConnId} {rest : List ConnId} : o.current = none → o.left = c :: rest →
    b.isSubscribed c o.topic = true →
    Forwards b t stopped o .reach b
      (.inl { o with left := rest, current := some ⟨c, o.frame, .starting⟩ }) []
  | goesOn {d : Delivery} {m : SendMove} {b' : Broker} {s : Sending} {seen : List Observation} :
    o.current = some d → Sends b t d m b' (.inl s) seen →
    Forwards b t stopped o (.send m) b' (.inl { o with current := some { d with state := s } }) seen
  | delivers {d : Delivery} {m : SendMove} {b' : Broker} {seen : List Observation} :
    o.current = some d → Sends b t d m b' (.inr (.ok ())) seen →
    Forwards b t stopped o (.send m) b'
      (.inl { o with delivered := o.delivered + 1, current := none }) seen
  | fails {d : Delivery} {m : SendMove} {b' : Broker} {f : Fault} {seen : List Observation} :
    o.current = some d → Sends b t d m b' (.inr (.error f)) seen →
    Forwards b t stopped o (.send m) (if f.isDisconnect then b' else b'.cancelSession d.target)
      (.inl { o with current := none }) seen
  | stops {d : Delivery} : o.current = some d → stopped = true →
    Forwards b t stopped o .stop (b.abandon t d) (.inr o.delivered) []

theorem Forwards.ne_dispatch {stopped : Bool} {o : FanOut} {m : Move} {r : FanOut ⊕ Nat}
    {seen : List Observation} (h : Forwards b t stopped o m b' r seen) : m ≠ .dispatch := by
  cases h <;> nofun

theorem forwards_of_fanOutStep {stopped : Bool} {o : FanOut} {m : Move} {r : FanOut ⊕ Nat}
    {seen : List Observation} (h : b.fanOutStep t stopped o m = some (b', r, seen)) :
    Forwards b t stopped o m b' r seen := by
  unfold fanOutStep at h
  split at h
  · next hcurrent =>
    -- It is at no session: the next one is looked at.
    split at h
    · next hleft =>
      cases h
      exact .exhausts hcurrent hleft
    · next c rest hleft =>
      cases h
      by_cases hsub : b.isSubscribed c o.topic = true
      · rw [if_pos hsub]
        exact .reaches hcurrent hleft hsub
      · rw [if_neg hsub]
        exact .passes hcurrent hleft (by simpa using hsub)
  · next d m hcurrent =>
    -- It is at a session, and goes on with the frame for it.
    obtain ⟨⟨b₁, state, seen₁⟩, hsend, h⟩ := Option.bind_eq_some_iff.1 h
    have hsends := sends_of_sendStep hsend
    rcases state with s | f | ⟨⟩ <;> cases h
    · exact .goesOn hcurrent hsends
    · exact .fails hcurrent hsends
    · exact .delivers hcurrent hsends
  · next d hcurrent =>
    -- It is at a session, and drops the frame.
    split_ifs at h with hstopped
    cases h
    exact .stops hcurrent hstopped
  · cases h

/-! ### A packet that has come -/

/-- What a running session does with a packet. -/
inductive Handles (b : Broker) (c : ConnId) (s : Session) (f : Frame) : Packet → Broker → Prop
  | unexpected {p : Connect} : Handles b c s f (.connect p) (b.finish c (violate .secondConnect))
  | invalid {p : Publish} {e : Fault} : Topic.validate p.topic = .error e →
    Handles b c s f (.publish p) (b.finish c (.error e))
  | acknowledges {p : Publish} {ack : Packet} : Topic.validate p.topic = .ok () →
    Packet.Acknowledges p ack → Handles b c s f (.publish p)
      (b.reply c s.version ack (.forward p f))
  | forwards {p : Publish} : Topic.validate p.topic = .ok () → (∀ ack, ¬Packet.Acknowledges p ack) →
    Handles b c s f (.publish p) (b.forward c p f)
  | releases {id : UInt16} : Handles b c s f (.pubRel id) (b.reply c s.version (.pubComp id) .read)
  | subscribes {id : UInt16} {wanted : List Subscription} :
    Handles b c s f (.subscribe id wanted)
      ((b.modifySession c fun s' =>
        { s' with filters := (subscribeAll s.filters wanted).1 }).reply c s.version
        (.subAck id (subscribeAll s.filters wanted).2) .read)
  | unsubscribes {id : UInt16} {gone : List String} :
    Handles b c s f (.unsubscribe id gone)
      ((b.modifySession c fun s' =>
        { s' with filters := unsubscribeAll s'.filters gone }).reply c s.version (.unsubAck id)
        .read)
  | pings : Handles b c s f .pingReq (b.reply c s.version .pingResp .read)
  | disconnects : Handles b c s f .disconnect (b.finish c (.ok ()))
  -- An answer, but a session asks nothing of its client.
  | ignores {p : Packet} :
    p.kind ∈
      ([.connAck, .pubAck, .pubRec, .pubComp, .subAck, .unsubAck, .pingResp] : List PacketKind) →
    Handles b c s f p (b.readOn c)

theorem handles_handle {s : Session} {f : Frame} (p : Packet) :
    Handles b c s f p (b.handle c s f p) := by
  cases p with
  | publish p =>
    unfold handle
    dsimp only
    rcases hvalid : Topic.validate p.topic with e | ⟨⟩
    · exact .invalid hvalid
    · dsimp only
      split
      · next hqos hid => exact .acknowledges hvalid (.atLeastOnce hqos hid)
      · next hqos hid => exact .acknowledges hvalid (.exactlyOnce hqos hid)
      · next hleast hexactly =>
        -- No answer is due: at QoS 0, or where the id that an answer needs is missing.
        refine .forwards hvalid ?_
        rintro ack (⟨hqos, hid⟩ | ⟨hqos, hid⟩)
        · exact hleast _ hqos hid
        · exact hexactly _ hqos hid
  | connect _ => exact .unexpected
  | pubRel _ => exact .releases
  | subscribe _ _ => exact .subscribes
  | unsubscribe _ _ => exact .unsubscribes
  | pingReq => exact .pings
  | disconnect => exact .disconnects
  | _ => exact .ignores (by simp [Packet.kind])

/-! ### The task of a connection -/

/-- Why a connection is refused. -/
inductive Refuses (b : Broker) (k : Conn) : Move → Fault → Prop
  | ended : k.assembler.next = .ok none → k.link.up.read readSize = .ended →
    Refuses b k .receive .connectionClosed
  | malformed {e : Fault} : k.assembler.next = .error e → Refuses b k .dispatch e
  | unwelcome {f : Frame} {a : Assembler} {e : Fault} :
    k.assembler.next = .ok (some (f, a)) → greet f = .error e → Refuses b k .dispatch e
  | cancelled : (k.cancelled || b.shutdown) = true → Refuses b k .cancel .cancelled

/-- Why a session ends while it waits for a frame. -/
inductive Ends (b : Broker) (k : Conn) (s : Session) (since : Nat) : Move → Fault → Prop
  | ended : k.assembler.next = .ok none → k.link.up.read readSize = .ended →
    Ends b k s since .receive .connectionClosed
  | malformed {e : Fault} : k.assembler.next = .error e → Ends b k s since .dispatch e
  | cancelled : (k.cancelled || b.isCancelled s) = true → Ends b k s since .cancel .cancelled
  | expired {limit : Nat} : s.patience = some limit → since + limit ≤ b.now → isStarved k = true →
    Ends b k s since .expire (.keepAliveExpired limit)

/-- The result of a connection whose session ended with this one. -/
def settle : Except Fault Unit → Except Fault Unit
  | .error f => if f.isDisconnect then .ok () else .error f
  | .ok () => .ok ()

/-- The broker after a connection has been served to its end. -/
def shutStream (b : Broker) (c : ConnId) (r : Except Fault Unit) : Broker :=
  b.modifyConn c fun k =>
    { k with
      link := { k.link with down := k.link.down.close }
      session := k.session.map fun s => { s with turnstile := s.turnstile.leave (.conn c) }
      phase := .over (settle r) }

/-- The broker after a connection has taken bytes. -/
def takeBytes (b : Broker) (c : ConnId) (bs : Bytes) (up : Pipe) : Broker :=
  b.modifyConn c fun k =>
    { k with link := { k.link with up := up }, assembler := k.assembler.receive bs }

/-- The broker after a connection has taken a frame. -/
def takeFrame (b : Broker) (c : ConnId) (a : Assembler) : Broker :=
  b.modifyConn c fun k => { k with assembler := a }

/-- The moves of the task of a connection. -/
inductive Serves (b : Broker) (c : ConnId) (k : Conn) :
    Move → Broker → List Observation → Prop
  | greets {bs : Bytes} {up : Pipe} : k.phase = .greeting → k.assembler.next = .ok none →
    k.link.up.read readSize = .got bs up → Serves b c k .receive (b.takeBytes c bs up) []
  | refuses {m : Move} {f : Fault} : k.phase = .greeting → Refuses b k m f →
    Serves b c k m (b.refuse c f).1 (b.refuse c f).2
  | opens {f : Frame} {a : Assembler} {v : Version} {p : Connect} : k.phase = .greeting →
    k.assembler.next = .ok (some (f, a)) → greet f = .ok (v, p) →
    Serves b c k .dispatch ((b.takeFrame c a).openSession c v p) []
  | reads {since : Nat} {s : Session} {bs : Bytes} {up : Pipe} : k.phase = .reading since →
    k.session = some s → k.assembler.next = .ok none → k.link.up.read readSize = .got bs up →
    Serves b c k .receive (b.takeBytes c bs up) []
  | handles {since : Nat} {s : Session} {f : Frame} {a : Assembler} {p : Packet} :
    k.phase = .reading since → k.session = some s → k.assembler.next = .ok (some (f, a)) →
    Packet.decode s.version f = .ok p →
    Serves b c k .dispatch ((b.takeFrame c a).handle c s f p) []
  | undecodable {since : Nat} {s : Session} {f : Frame} {a : Assembler} {e : Fault} :
    k.phase = .reading since → k.session = some s → k.assembler.next = .ok (some (f, a)) →
    Packet.decode s.version f = .error e →
    Serves b c k .dispatch ((b.takeFrame c a).finish c (.error e)) []
  | ends {since : Nat} {s : Session} {m : Move} {f : Fault} : k.phase = .reading since →
    k.session = some s → Ends b k s since m f → Serves b c k m (b.finish c (.error f)) []
  | answers {d : Delivery} {after : AfterReply} {s : Session} {m : SendMove} {b' : Broker}
    {state : Sending} {seen : List Observation} : k.phase = .replying d after →
    k.session = some s → Sends b (.conn c) d m b' (.inl state) seen →
    Serves b c k (.send m) (b'.setPhase c (.replying { d with state := state } after)) seen
  | answerFails {d : Delivery} {after : AfterReply} {s : Session} {m : SendMove} {b' : Broker}
    {f : Fault} {seen : List Observation} : k.phase = .replying d after →
    k.session = some s → Sends b (.conn c) d m b' (.inr (.error f)) seen →
    Serves b c k (.send m) (b'.finish c (.error f)) seen
  | answered {d : Delivery} {after : AfterReply} {s : Session} {m : SendMove} {b' : Broker}
    {seen : List Observation} : k.phase = .replying d after →
    k.session = some s → Sends b (.conn c) d m b' (.inr (.ok ())) seen →
    Serves b c k (.send m) (b'.afterReply c s after).1 (seen ++ (b'.afterReply c s after).2)
  | forwards {p : Publish} {o o' : FanOut} {s : Session} {m : Move} {b' : Broker}
    {seen : List Observation} : k.phase = .forwarding p o → k.session = some s →
    Forwards b (.conn c) (b.isCancelled s) o m b' (.inl o') seen →
    Serves b c k m (b'.setPhase c (.forwarding p o')) seen
  | forwarded {p : Publish} {o : FanOut} {s : Session} {m : Move} {b' : Broker} {n : Nat}
    {seen : List Observation} : k.phase = .forwarding p o → k.session = some s →
    Forwards b (.conn c) (b.isCancelled s) o m b' (.inr n) seen →
    Serves b c k m (b'.readOn c) (seen ++ [.message c s.clientId p.message])
  | closes {r : Except Fault Unit} {s : Session} : k.phase = .closing r → k.session = some s →
    Serves b c k .close
      ((b.modifySession c fun s => { s with turnstile := s.turnstile.enter (.conn c) }).setPhase c
        (.shutting r)) []
  | shuts {r : Except Fault Unit} {s : Session} : k.phase = .shutting r → k.session = some s →
    s.turnstile.inside = some (.conn c) →
    Serves b c k .shut (b.shutStream c r) [.disconnected c s.clientId, .ended c (settle r)]

theorem receive_cases {k : Conn} {r : Option Fault} (h : b.receive c k = some (b', r)) :
    k.assembler.next = .ok none ∧
      ((k.link.up.read readSize = .ended ∧ b' = b ∧ r = some .connectionClosed) ∨
        ∃ bs up, k.link.up.read readSize = .got bs up ∧ b' = b.takeBytes c bs up ∧ r = none) := by
  rw [receive] at h
  split at h
  · next hnext =>
    refine ⟨hnext, ?_⟩
    split at h
    · cases h
    · next hread =>
      cases h
      exact .inl ⟨hread, rfl, rfl⟩
    · next bs up hread =>
      cases h
      exact .inr ⟨bs, up, hread, rfl, rfl⟩
  · cases h

/-- **The moves of the task of a connection are those of the rules.** -/
theorem serves_of_connStep {m : Move} {seen : List Observation}
    (h : b.connStep c m = some (b', seen)) :
    ∃ k, b.conns[c]? = some k ∧ Serves b c k m b' seen := by
  unfold connStep at h
  replace h := Option.bind_eq_some_iff.1 h
  obtain ⟨k, hk, h⟩ := h
  refine ⟨k, hk, ?_⟩
  -- First the moves of a connection that is greeted, then those of one with a session.
  split at h
  · next hphase =>
    replace h := Option.bind_eq_some_iff.1 h
    obtain ⟨⟨b₁, r⟩, hreceive, h⟩ := h
    obtain ⟨hnext, ⟨hread, rfl, rfl⟩ | ⟨bs, up, hread, rfl, rfl⟩⟩ := receive_cases hreceive
    · cases h
      exact .refuses hphase (.ended hnext hread)
    · cases h
      exact .greets hphase hnext hread
  · next hphase =>
    split at h
    · cases h
    · next f hnext =>
      cases h
      exact .refuses hphase (.malformed hnext)
    · next f a hnext =>
      split at h
      · next e hgreet =>
        cases h
        exact .refuses hphase (.unwelcome hnext hgreet)
      · next v p hgreet =>
        cases h
        exact .opens hphase hnext hgreet
  · next hphase =>
    split_ifs at h with hc
    cases h
    exact .refuses hphase (.cancelled hc)
  · cases h
  · -- Every other phase asks for the session first.
    replace h := Option.bind_eq_some_iff.1 h
    obtain ⟨s, hs, h⟩ := h
    split at h
    · next hphase _ _ _ =>
      replace h := Option.bind_eq_some_iff.1 h
      obtain ⟨⟨b₁, r⟩, hreceive, h⟩ := h
      obtain ⟨hnext, ⟨hread, rfl, rfl⟩ | ⟨bs, up, hread, rfl, rfl⟩⟩ := receive_cases hreceive
      · cases h
        exact .ends hphase hs (.ended hnext hread)
      · cases h
        exact .reads hphase hs hnext hread
    · next hphase _ _ _ =>
      split at h
      · cases h
      · next f hnext =>
        cases h
        exact .ends hphase hs (.malformed hnext)
      · next f a hnext =>
        dsimp only at h
        split at h
        · next e hdecode =>
          cases h
          exact .undecodable hphase hs hnext hdecode
        · next p hdecode =>
          cases h
          exact .handles hphase hs hnext hdecode
    · next hphase _ _ _ =>
      split_ifs at h with hc
      cases h
      exact .ends hphase hs (.cancelled hc)
    · next hphase _ _ _ =>
      replace h := Option.bind_eq_some_iff.1 h
      obtain ⟨limit, hlimit, h⟩ := h
      split_ifs at h with hlate
      cases h
      rw [Bool.and_eq_true, decide_eq_true_eq] at hlate
      exact .ends hphase hs (.expired hlimit hlate.1 hlate.2)
    · next hphase _ _ _ =>
      replace h := Option.bind_eq_some_iff.1 h
      obtain ⟨⟨b₁, state, seen₁⟩, hsend, h⟩ := h
      have hsends := sends_of_sendStep hsend
      rcases state with s' | f | ⟨⟩ <;> cases h
      · exact .answers hphase hs hsends
      · exact .answerFails hphase hs hsends
      · exact .answered hphase hs hsends
    · next hphase _ _ _ =>
      replace h := Option.bind_eq_some_iff.1 h
      obtain ⟨⟨b₁, state, seen₁⟩, hfan, h⟩ := h
      have hforwards := forwards_of_fanOutStep hfan
      rcases state with o' | n <;> cases h
      · exact .forwards hphase hs hforwards
      · exact .forwarded hphase hs hforwards
    · next hphase _ _ _ =>
      cases h
      exact .closes hphase hs
    · next hphase _ _ _ =>
      split_ifs at h with hholds
      cases h
      exact .shuts hphase hs (Turnstile.holds_iff.1 hholds)
    · cases h

/-! ### Calls of the host -/

/-- The moves of a call of the host. -/
inductive Calls (b : Broker) (n : Nat) : HostCall → Move → Broker → List Observation → Prop
  | publishes {o o' : FanOut} {m : Move} {b' : Broker} {seen : List Observation} :
    Forwards b (.host n) b.shutdown o m b' (.inl o') seen →
    Calls b n (.publish o) m (b'.setCall n (.publish o')) seen
  | published {o : FanOut} {m : Move} {b' : Broker} {count : Nat} {seen : List Observation} :
    Forwards b (.host n) b.shutdown o m b' (.inr count) seen →
    Calls b n (.publish o) m (b'.dropCall n) (seen ++ [.answered n (.delivered count)])
  | writes {d : Delivery} {m : SendMove} {b' : Broker} {state : Sending}
    {seen : List Observation} : Sends b (.host n) d m b' (.inl state) seen →
    Calls b n (.write d) (.send m) (b'.setCall n (.write { d with state := state })) seen
  | written {d : Delivery} {m : SendMove} {b' : Broker} {r : Except Fault Unit}
    {seen : List Observation} : Sends b (.host n) d m b' (.inr r) seen →
    Calls b n (.write d) (.send m) (b'.dropCall n) (seen ++ [.answered n (.finished r)])
  | served : b.shutdown = true →
    Calls b n .serve .cancel (b.dropCall n) [.answered n (.finished (.ok ()))]

theorem calls_of_callStep {n : Nat} {m : Move} {seen : List Observation}
    (h : b.callStep n m = some (b', seen)) :
    ∃ call, b.call? n = some call ∧ Calls b n call m b' seen := by
  unfold callStep at h
  replace h := Option.bind_eq_some_iff.1 h
  obtain ⟨call, hcall, h⟩ := h
  refine ⟨call, hcall, ?_⟩
  split at h
  · replace h := Option.bind_eq_some_iff.1 h
    obtain ⟨⟨b₁, state, seen₁⟩, hfan, h⟩ := h
    have hforwards := forwards_of_fanOutStep hfan
    rcases state with o' | count <;> cases h
    · exact .publishes hforwards
    · exact .published hforwards
  · replace h := Option.bind_eq_some_iff.1 h
    obtain ⟨⟨b₁, state, seen₁⟩, hsend, h⟩ := h
    have hsends := sends_of_sendStep hsend
    rcases state with s | r <;> cases h
    · exact .writes hsends
    · exact .written hsends
  · split_ifs at h with hshutdown
    cases h
    exact .served hshutdown
  · cases h

/-! ### Moves -/

/-- **The moves of a broker**, by who moves. -/
inductive Steps (b : Broker) : Action → Broker → List Observation → Prop
  | conn {c : ConnId} {k : Conn} {m : Move} {b' : Broker} {seen : List Observation} :
    b.conns[c]? = some k → Serves b c k m b' seen → Steps b (.task (.conn c) m) b' seen
  | host {n : Nat} {call : HostCall} {m : Move} {b' : Broker} {seen : List Observation} :
    b.call? n = some call → Calls b n call m b' seen → Steps b (.task (.host n) m) b' seen
  | relay {c : ConnId} {k : Conn} {s : Session} : b.conns[c]? = some k → k.session = some s →
    k.cancelled = true → s.cancelled = false → Steps b (.relay c) (b.cancelSession c) []

theorem step_cases {a : Action} {seen : List Observation} (h : b.step a = some (b', seen)) :
    Steps b a b' seen := by
  rcases a with ⟨c | n, m⟩ | c
  · obtain ⟨k, hk, hserves⟩ := serves_of_connStep h
    exact .conn hk hserves
  · obtain ⟨call, hcall, hcalls⟩ := calls_of_callStep h
    exact .host hcall hcalls
  · replace h := Option.bind_eq_some_iff.1 h
    obtain ⟨k, hk, h⟩ := h
    replace h := Option.bind_eq_some_iff.1 h
    obtain ⟨s, hs, h⟩ := h
    split_ifs at h with hc
    cases h
    rw [Bool.and_eq_true, Bool.not_eq_true'] at hc
    exact .relay hk hs hc.1 hc.2

/-! ### Inputs -/

/-- What the host asks for that takes time, as the call that begins. -/
inductive Requests (b : Broker) : BrokerInput → Nat → HostCall → Prop
  | publishes {n : Nat} {topic : String} {payload : Bytes} {f : Frame} :
    publishFrame topic payload = .ok f →
    Requests b (.publishes n topic payload) n (.publish (b.fanOut topic f))
  | writesPacket {n : Nat} {c : ConnId} {p : Packet} {s : Session} : b.session? c = some s →
    Requests b (.writesPacket n c p) n (.write ⟨c, p.toBytes s.version, .starting⟩)
  | writesFrame {n : Nat} {c : ConnId} {f : Frame} {s : Session} : b.session? c = some s →
    Requests b (.writesFrame n c f) n (.write ⟨c, f.toBytes, .starting⟩)

/-- What the host asks for and does not get, with the answer. -/
inductive Declines (b : Broker) : BrokerInput → List Observation → Prop
  | invalid {n : Nat} {topic : String} {payload : Bytes} {e : Fault} :
    publishFrame topic payload = .error e →
    Declines b (.publishes n topic payload) [.answered n (.finished (.error e))]
  -- A write to a session that is not there has no answer.
  | packetAstray {n : Nat} {c : ConnId} {p : Packet} : b.session? c = none →
    Declines b (.writesPacket n c p) []
  | frameAstray {n : Nat} {c : ConnId} {f : Frame} : b.session? c = none →
    Declines b (.writesFrame n c f) []
  | serving {n : Nat} : b.serving = true →
    Declines b (.serves n) [.answered n (.finished (.error .alreadyRunning))]

/-- **The inputs of a broker**, by what they change. -/
inductive Accepts (b : Broker) : BrokerInput → Broker → List Observation → Prop
  | opens {label : String} {capacity : Nat} :
    Accepts b (.opens label capacity) (b.addConn label capacity) []
  -- The peer opens no end that is closed.
  | links {i : BrokerInput} {c : ConnId} {f : Link → Link} : i.peer? = some c →
    (∀ l, l.up.closed = true → (f l).up.closed = true) →
    (∀ l, l.down.closed = true → (f l).down.closed = true) → Accepts b i (b.modifyLink c f) []
  | cancels {c : ConnId} :
    Accepts b (.cancels c) (b.modifyConn c fun k => { k with cancelled := true }) []
  | closes {c : ConnId} : Accepts b (.closes c) (b.cancelSession c) []
  | shutsDown : Accepts b .shutsDown b.shutDown []
  | elapses {millis : Nat} : Accepts b (.elapses millis) { b with now := b.now + millis } []
  | begins {i : BrokerInput} {n : Nat} {call : HostCall} : Requests b i n call →
    Accepts b i (b.addCall n call) []
  | serves {n : Nat} : b.serving = false →
    Accepts b (.serves n) ({ b with serving := true }.addCall n .serve) []
  | declines {i : BrokerInput} {seen : List Observation} : Declines b i seen → Accepts b i b seen

theorem accepts_accept (i : BrokerInput) : Accepts b i (b.accept i).1 (b.accept i).2 := by
  cases i with
  | opens label capacity => exact .opens
  | peerWrites c bs =>
    -- Whatever the pipe takes, an end that is closed stays closed.
    dsimp only [accept]
    refine .links rfl (fun l hc => ?_) (fun l hc => ?_)
    · split
      · next hw => exact (Pipe.closed_of_write hw).trans hc
      · exact hc
    · split <;> exact hc
  | peerReads c n =>
    dsimp only [accept]
    refine .links rfl (fun l hc => ?_) (fun l hc => ?_)
    · split <;> exact hc
    · split
      · next hr => exact (Pipe.closed_of_read hr).trans hc
      · exact hc
  | peerShuts c =>
    -- To shut one end leaves the other as it is; to drop the link closes both.
    dsimp only [accept]
    exact .links rfl (fun _ _ => rfl) fun _ hc => hc
  | peerDrops c =>
    dsimp only [accept]
    exact .links rfl (fun _ _ => rfl) fun _ _ => rfl
  | cancels c => exact .cancels
  | closes c => exact .closes
  | shutsDown => exact .shutsDown
  | publishes n topic payload =>
    rw [accept, publish]
    split
    · next hframe => exact .declines (.invalid hframe)
    · next hframe => exact .begins (.publishes hframe)
  | writesPacket n c p =>
    rw [accept, write]
    split
    · next hs => exact .declines (.packetAstray hs)
    · next hs => exact .begins (.writesPacket hs)
  | writesFrame n c f =>
    rw [accept, write]
    split
    · next hs => exact .declines (.frameAstray hs)
    · next hs => exact .begins (.writesFrame hs)
  | serves n =>
    rw [accept, serve]
    split_ifs with hserving
    · exact .declines (.serving hserving)
    · exact .serves (by simpa using hserving)
  | elapses millis => exact .elapses

theorem accepts_of_next {i : BrokerInput} {seen : List Observation}
    (h : b.next? (.input i) = some (b', seen)) : Accepts b i b' seen := by
  obtain ⟨rfl, rfl⟩ := Prod.mk.inj (Option.some.inj h)
  exact accepts_accept i

theorem steps_of_next {a : Action} {seen : List Observation}
    (h : b.next? (.move a) = some (b', seen)) : Steps b a b' seen :=
  step_cases h

end Broker
end Mqtt
