import Mqtt.Proofs.Broker.Arrivals
/-!
# The turns of a session

What the task of a connection does in one move, as its client and the host can tell (`Turns`): which
frame it takes, which answer it has written, whether it joins or leaves the registry, and what is
reported of it. `next?_turns` says that every event is such a turn or leaves all this alone, so what
is to hold of a session at every moment is proved turn by turn.

What a session does with a packet, as far as its client can tell, is `Packet.response`.
-/

namespace Mqtt

/-! ### Responses -/

/-- What a session does with a packet. -/
inductive Response where
  /-- It says nothing to its client. -/
  | silent
  /-- It answers with a packet. -/
  | answers (q : Packet)
  /-- It ends. -/
  | ends

/-- The return code for a filter in a SUBSCRIBE. -/
def Subscription.code (w : Subscription) : SubscribeCode :=
  match Topic.validateFilter w.filter with
  | .ok () => .granted w.qos
  | .error _ => .refused

/-- What a session does with a message that its client publishes. -/
def Publish.response (p : Publish) : Response :=
  match Topic.validate p.topic with
  | .error _ => .ends
  | .ok () =>
    match p.qos, p.packetId with
    | .atLeastOnce, some id => .answers (.pubAck id)
    | .exactlyOnce, some id => .answers (.pubRec id)
    | _, _ => .silent

/-- What a session does with a packet that has come after the CONNECT. -/
def Packet.response : Packet → Response
  | .connect _ | .disconnect => .ends
  | .publish p => p.response
  | .pubRel id => .answers (.pubComp id)
  | .subscribe id wanted => .answers (.subAck id (wanted.map Subscription.code))
  | .unsubscribe id _ => .answers (.unsubAck id)
  | .pingReq => .answers .pingResp
  | _ => .silent

namespace Packet

variable {p : Publish} {ack : Packet}

theorem response_of_invalid {e : Fault} (h : Topic.validate p.topic = .error e) :
    (publish p).response = .ends := by
  change p.response = .ends
  rw [Publish.response, h]

/-- A message that asks for an acknowledgement. -/
theorem response_of_acknowledges (h : Topic.validate p.topic = .ok ()) (hack : Acknowledges p ack) :
    (publish p).response = .answers ack := by
  change p.response = .answers ack
  rw [Publish.response, h]
  cases hack with
  | atLeastOnce hqos hid | exactlyOnce hqos hid =>
    rw [hqos, hid]

/-- A message that asks for none. -/
theorem response_of_not_acknowledges (h : Topic.validate p.topic = .ok ())
    (hack : ∀ ack, ¬Acknowledges p ack) : (publish p).response = .silent := by
  change p.response = .silent
  rw [Publish.response, h]
  dsimp only
  split
  · next hqos hid => exact absurd (.atLeastOnce hqos hid) (hack _)
  · next hqos hid => exact absurd (.exactlyOnce hqos hid) (hack _)
  · rfl

/-- What is an answer itself is not answered. -/
theorem response_of_kind {q : Packet} (h : q.kind ∈ ([.connAck, .pubAck, .pubRec, .pubComp,
    .subAck, .unsubAck, .pingResp] : List PacketKind)) : q.response = .silent := by
  cases q with
  | connAck _ | pubAck _ | pubRec _ | pubComp _ | subAck _ _ | unsubAck _ | pingResp => rfl
  | _ => simp [kind] at h

end Packet

/-- What a session does with a frame. -/
def Frame.response (v : Version) (f : Frame) : Response :=
  match Packet.decode v f with
  | .ok p => p.response
  | .error _ => .ends

/-- The task serves its session, and has no answer to write. -/
def Phase.owesNothing : Phase → Bool
  | reading _ | forwarding _ _ => true
  | _ => false

/-- The session is open. -/
def Phase.isServing : Phase → Bool
  | reading _ | replying _ _ | forwarding _ _ => true
  | _ => false

/-- The session has ended, and its stream is still to be shut. -/
def Phase.isEnding : Phase → Bool
  | closing _ | shutting _ => true
  | _ => false

theorem Phase.isServing_of_owesNothing {phase : Phase} (h : phase.owesNothing = true) :
    phase.isServing = true := by
  cases phase with
  | reading _ | forwarding _ _ => rfl
  | _ => cases h

/-- The frame in front of the task of a connection, if it waits for one. -/
def Conn.frame? (k : Conn) : Option Frame :=
  match k.phase, k.assembler.next with
  | .greeting, .ok (some (f, _)) | .reading _, .ok (some (f, _)) => some f
  | _, _ => none

/-- The connection that is reported of. -/
def Observation.client? : Observation → Option ConnId
  | connected c _ | disconnected c _ | ended c _ => some c
  | _ => none

/-- The frame that is written, if this session answers its client with it. -/
def Deed.answer? (c : ConnId) : Deed → Option Bytes
  | .writes t d bs forwarded => if t = .conn c ∧ d = c ∧ forwarded = false then some bs else none
  | _ => none

namespace Broker

variable {b b' b₁ : Broker} {c d : ConnId} {t : Task} {m : Move} {m' : SendMove} {e : Event}
  {k k₁ : Conn} {s : Session} {f : Frame} {p : Packet} {phase : Phase}
  {seen seen₁ more : List Observation} {log log' : List Deed}

/-- What is reported of a connection. -/
def reports (c : ConnId) (seen : List Observation) : List Observation :=
  seen.filter fun o => o.client? = some c

/-- The frames with which a session has answered its client. -/
def answersOf (c : ConnId) (log : List Deed) : List Bytes := log.filterMap (Deed.answer? c)

/-- The frames that a connection takes in an event; there is one at most. -/
def framesTaken (b : Broker) (c : ConnId) : Event → List Frame
  | .move (.task (.conn c') .dispatch) =>
    if c' = c then (b.conns[c]?.bind Conn.frame?).toList else []
  | _ => []

/-! ### Turns -/

/-- What the task of a connection does in a move: where it stands after it, the frame that it has
taken, the answer that it has written, and what is reported of it. -/
inductive Turns (b b' : Broker) (c : ConnId) (k : Conn) (m : Move) :
    Phase → Option Frame → Option Bytes → List Observation → Prop
  /-- It goes on waiting for the first frame. -/
  | waits : k.phase = .greeting → b'.registry = b.registry →
    Turns b b' c k m .greeting none none []
  /-- It refuses the connection. -/
  | refuses {f : Option Frame} {r : Except Fault Unit} : k.phase = .greeting →
    b'.registry = b.registry → (∀ g ∈ f, ∃ e, greet g = .error e) →
    Turns b b' c k m (.over r) f none [.ended c r]
  /-- It opens a session. -/
  | opens {f : Frame} {v : Version} {p : Connect} {s : Session} : k.phase = .greeting →
    greet f = .ok (v, p) → b'.registry = b.registry ++ [c] → b'.session? c = some s →
    s.version = v →
    Turns b b' c k m (.replying (.ofPacket c v (.connAck .accepted)) .announce) (some f) none []
  /-- It goes on with what it is at. -/
  | goesOn {φ : Phase} : k.phase.owesNothing = true → φ.owesNothing = true →
    b'.registry = b.registry → Turns b b' c k m φ none none []
  /-- It takes a frame that asks for no answer. -/
  | passes {f : Frame} {s : Session} {φ : Phase} : k.phase.owesNothing = true →
    k.session = some s → f.response s.version = .silent → φ.owesNothing = true →
    b'.registry = b.registry → Turns b b' c k m φ (some f) none []
  /-- It takes a frame that asks for an answer. -/
  | answers {f : Frame} {s : Session} {q : Packet} {after : AfterReply} :
    k.phase.owesNothing = true → k.session = some s → f.response s.version = .answers q →
    after ≠ .announce → b'.registry = b.registry →
    Turns b b' c k m (.replying (.ofPacket c s.version q) after) (some f) none []
  /-- It ends the session, because of a frame or of something else. -/
  | ends {f : Option Frame} {s : Session} {r : Except Fault Unit} : k.phase.owesNothing = true →
    k.session = some s → (∀ g ∈ f, g.response s.version = .ends) →
    b'.registry = b.registry.erase c → Turns b b' c k m (.closing r) f none []
  /-- It goes on with its answer. -/
  | writes {d : Delivery} {after : AfterReply} {state : Sending} : k.phase = .replying d after →
    b'.registry = b.registry →
    Turns b b' c k m (.replying { d with state := state } after) none none []
  /-- It cannot write its answer. -/
  | fails {d : Delivery} {after : AfterReply} {m' : SendMove} {f : Fault} {b₁ : Broker}
    {seen₁ : List Observation} : k.phase = .replying d after → m = .send m' →
    Sends b (.conn c) d m' b₁ (.inr (.error f)) seen₁ → b'.registry = b.registry.erase c →
    Turns b b' c k m (.closing (.error f)) none none []
  /-- It has accepted the connection. -/
  | announces {d : Delivery} {s : Session} {bs : Bytes} {φ : Phase} :
    k.phase = .replying d .announce → k.session = some s → d.frame = .ok bs →
    φ.owesNothing = true → b'.registry = b.registry →
    Turns b b' c k m φ none (some bs) [.connected c s.clientId]
  /-- It has written another answer. -/
  | answered {d : Delivery} {after : AfterReply} {bs : Bytes} {φ : Phase} :
    k.phase = .replying d after → after ≠ .announce → d.frame = .ok bs → φ.owesNothing = true →
    b'.registry = b.registry → Turns b b' c k m φ none (some bs) []
  /-- It comes to the turnstile to shut the stream. -/
  | closes {r : Except Fault Unit} : k.phase = .closing r → b'.registry = b.registry →
    Turns b b' c k m (.shutting r) none none []
  /-- It shuts the stream. -/
  | shuts {r : Except Fault Unit} {s : Session} : k.phase = .shutting r → k.session = some s →
    b'.registry = b.registry →
    Turns b b' c k m (.over (settle r)) none none
      [.disconnected c s.clientId, .ended c (settle r)]

/-- What others leave alone. -/
structure Leaves (b b' : Broker) (c : ConnId) (e : Event) (seen : List Observation) : Prop where
  phase : b'.phase? c = b.phase? c ∨ b.phase? c = none ∧ b'.phase? c = some .greeting
  session : (b'.session? c).isSome = true → (b.session? c).isSome = true
  registry : c ∈ b'.registry ↔ c ∈ b.registry
  taken : b.framesTaken c e = []
  answers : answersOf c (b.deeds e b' seen) = []
  reports : Broker.reports c seen = []

/-! ### What is reported -/

theorem reports_append : reports c (seen ++ more) = reports c seen ++ reports c more :=
  List.filter_append ..

theorem reports_wrote {bs : Bytes} : reports c (wrote d t bs) = [] := by
  rw [wrote]
  split_ifs <;> rfl

theorem Sends.reports {d : Delivery} {r : Sending ⊕ Except Fault Unit}
    (h : Sends b t d m' b' r seen) : Broker.reports c seen = [] := by
  cases h with
  | intro _ _ _ _ => exact reports_wrote

theorem Forwards.reports {stopped : Bool} {o : FanOut} {r : FanOut ⊕ Nat}
    (h : Forwards b t stopped o m b' r seen) : Broker.reports c seen = [] := by
  cases h with
  | exhausts _ _ | passes _ _ _ | reaches _ _ _ | stops _ _ => rfl
  | goesOn _ hsends | delivers _ hsends | fails _ hsends => exact hsends.reports

theorem Calls.reports {n : Nat} {call : HostCall} (h : Calls b n call m b' seen) :
    Broker.reports c seen = [] := by
  cases h with
  | publishes hforwards => exact hforwards.reports
  | writes hsends => exact hsends.reports
  | published hforwards =>
    rw [reports_append, hforwards.reports]
    rfl
  | written hsends =>
    rw [reports_append, hsends.reports]
    rfl
  | served _ => rfl

theorem Accepts.reports {i : BrokerInput} (h : Accepts b i b' seen) :
    Broker.reports c seen = [] := by
  cases h with
  | declines hdeclines => cases hdeclines <;> rfl
  | _ => rfl

/-! ### Answers -/

theorem answersOf_append : answersOf c (log ++ log') = answersOf c log ++ answersOf c log' :=
  List.filterMap_append

/-- Of what is noted of an event, only a frame written to the end is an answer. -/
theorem answersOf_deeds : answersOf c (b.deeds (.move (.task t m)) b' seen) =
    answersOf c (b.completions b' t seen) :=
  filterMap_deeds_task (fun _ _ _ => rfl) (fun _ _ => rfl) (fun _ _ _ => rfl) fun _ _ _ => rfl

theorem answersOf_deeds_of_ne (h : ∀ m, e ≠ .move (.task (.conn c) m)) :
    answersOf c (b.deeds e b' seen) = [] := by
  refine filterMap_deeds_eq_nil fun deed hnotes => ?_
  cases hnotes with
  | @writes t m =>
    refine if_neg ?_
    rintro ⟨rfl, -⟩
    exact h m rfl
  | _ => rfl

theorem delivery?_of_phase? (h : b.phase? c = some phase) :
    b.delivery? (.conn c) = phase.work?.bind Work.delivery? := by
  obtain ⟨k, hk, rfl⟩ := phase?_eq_some.1 h
  exact delivery?_of_phase hk rfl

/-- What is seen besides, without bytes in a stream, does not count as written. -/
theorem completions_append_of_nil (h : ∀ d, streamOf d more = []) :
    b.completions b' t (seen ++ more) = b.completions b' t seen := by
  unfold completions
  split
  · rw [streamOf_append, h, List.append_nil]
  · rfl

/-- A task with no answer to write has written none. -/
theorem answersOf_completions_of_ne (hk : b.conns[c]? = some k)
    (h : ∀ d after, k.phase ≠ .replying d after) :
    answersOf c (b.completions b' (.conn c) seen) = [] := by
  have hidle (hnone : k.phase.work?.bind Work.delivery? = none) :
      answersOf c (b.completions b' (.conn c) seen) = [] := by
    rw [completions_of_none ((delivery?_of_phase hk rfl).trans hnone)]
    rfl
  cases hphase : k.phase with
  | replying d after => exact absurd hphase (h d after)
  | forwarding p o =>
    refine filterMap_eq_nil fun deed hdeed => ?_
    obtain ⟨d, bs, -, rfl⟩ := mem_completions hdeed
    rw [isForwarding_of_forwarding hk hphase]
    exact if_neg fun h => nomatch h.2.2
  | _ => exact hidle (by rw [hphase]; rfl)

/-- A frame that is taken. -/
theorem framesTaken_dispatch (hk : b.conns[c]? = some k) :
    b.framesTaken c (.move (.task (.conn c) .dispatch)) = k.frame?.toList := by
  rw [framesTaken, if_pos rfl, hk, Option.bind_some]

theorem framesTaken_of_ne (h : m ≠ .dispatch) :
    b.framesTaken c (.move (.task (.conn c) m)) = [] := by
  unfold framesTaken
  split
  · next heq =>
    cases heq
    exact absurd rfl h
  · rfl

/-- Only the task of a connection takes frames. -/
theorem framesTaken_of_others (h : ∀ m, e ≠ .move (.task (.conn c) m)) :
    b.framesTaken c e = [] := by
  unfold framesTaken
  split
  · next d =>
    refine if_neg fun hd => h .dispatch ?_
    rw [hd]
  · rfl

theorem frame?_of_greeting {a : Assembler} (hphase : k.phase = .greeting)
    (hnext : k.assembler.next = .ok (some (f, a))) : k.frame? = some f := by
  rw [Conn.frame?, hphase, hnext]

theorem frame?_of_reading {since : Nat} {a : Assembler} (hphase : k.phase = .reading since)
    (hnext : k.assembler.next = .ok (some (f, a))) : k.frame? = some f := by
  rw [Conn.frame?, hphase, hnext]

theorem frame?_of_malformed {e : Fault} (hnext : k.assembler.next = .error e) :
    k.frame? = none := by
  unfold Conn.frame?
  split
  · next _ h =>
    rw [hnext] at h
    cases h
  · next _ h =>
    rw [hnext] at h
    cases h
  · rfl

/-! ### The task of a connection -/

/-- The return codes for a SUBSCRIBE, one for each filter. -/
theorem subscribeAll_snd (filters : FilterIndex) (wanted : List Subscription) :
    (subscribeAll filters wanted).2 = wanted.map Subscription.code := by
  induction wanted generalizing filters with
  | nil => rfl
  | cons w wanted ih =>
    have hiff := FilterIndex.exists_subscribe_eq_ok (x := filters) (f := w.filter)
    rw [subscribeAll, List.map_cons, Subscription.code]
    rcases hsubscribe : filters.subscribe w.filter with e | ⟨new, filters'⟩
    · rcases hvalid : Topic.validateFilter w.filter with e' | ⟨⟩
      · simp only [ih]
      · obtain ⟨r, hr⟩ := hiff.2 hvalid
        rw [hsubscribe] at hr
        cases hr
    · rw [hiff.1 ⟨_, hsubscribe⟩]
      simp only [ih]

/-- What the task has done with the frame in front. -/
def Takes (b b' : Broker) (c : ConnId) (k : Conn) (m : Move) (f : Frame) : Prop :=
  ∃ φ, b'.phase? c = some φ ∧ Turns b b' c k m φ (some f) none []

theorem registry_finish {r : Except Fault Unit} (hregistry : b₁.registry = b.registry) :
    (b₁.finish c r).registry = b.registry.erase c := by
  rw [← hregistry]
  rfl

/-- The task takes a packet. -/
theorem Handles.takes (h : Handles b₁ c s f p b') (howes : k.phase.owesNothing = true)
    (hs : k.session = some s) (hdecode : Packet.decode s.version f = .ok p)
    (hk₁ : b₁.conns[c]? = some k₁) (hregistry : b₁.registry = b.registry) :
    Takes b b' c k m f := by
  have hresponse : f.response s.version = p.response := by
    rw [Frame.response, hdecode]
  -- The three things that a packet may lead to, each with the answer that `Packet.response`
  -- foresees.
  have hends {r : Except Fault Unit} (hp : p.response = .ends) :
      Takes b (b₁.finish c r) c k m f := by
    refine ⟨_, phase?_finish hk₁, .ends howes hs ?_ (registry_finish hregistry)⟩
    rintro g hg
    obtain rfl := Option.some.inj hg
    rw [hresponse, hp]
  have hanswers {b₂ : Broker} {k₂ : Conn} {q : Packet} {after : AfterReply}
      (hk₂ : b₂.conns[c]? = some k₂) (hregistry₂ : b₂.registry = b.registry)
      (hp : p.response = .answers q) (hafter : after ≠ .announce) :
      Takes b (b₂.reply c s.version q after) c k m f :=
    ⟨_, phase?_setPhase _ hk₂, .answers howes hs (hresponse.trans hp) hafter hregistry₂⟩
  have hpasses {b₂ : Broker} {φ : Phase} (hφ : φ.owesNothing = true)
      (hphase : b₂.phase? c = some φ) (hregistry₂ : b₂.registry = b.registry)
      (hp : p.response = .silent) : Takes b b₂ c k m f :=
    ⟨φ, hphase, .passes howes hs (hresponse.trans hp) hφ hregistry₂⟩
  cases h with
  | unexpected | disconnects => exact hends rfl
  | invalid hvalid => exact hends (Packet.response_of_invalid hvalid)
  | acknowledges hvalid hack =>
    exact hanswers hk₁ hregistry (Packet.response_of_acknowledges hvalid hack) nofun
  | forwards hvalid hack =>
    exact hpasses rfl (phase?_setPhase _ hk₁) hregistry
      (Packet.response_of_not_acknowledges hvalid hack)
  | releases | pings => exact hanswers hk₁ hregistry rfl nofun
  | @subscribes id wanted =>
    -- The codes of the SUBACK do not depend on what the index held before.
    refine hanswers (conns_modifySession_self hk₁) hregistry ?_ nofun
    rw [subscribeAll_snd]
    rfl
  | unsubscribes => exact hanswers (conns_modifySession_self hk₁) hregistry rfl nofun
  | ignores hkind =>
    exact hpasses rfl (phase?_readOn hk₁) hregistry (Packet.response_of_kind hkind)

/-- The task goes on once its answer is written. -/
theorem turns_afterReply {d : Delivery} {after : AfterReply} {bs : Bytes}
    (hphase : k.phase = .replying d after) (hs : k.session = some s)
    (hk₁ : b₁.conns[c]? = some k₁) (hregistry : b₁.registry = b.registry)
    (hframe : d.frame = .ok bs) :
    ∃ φ, (b₁.afterReply c s after).1.phase? c = some φ ∧
      Turns b (b₁.afterReply c s after).1 c k m φ none (some bs)
        (reports c (b₁.afterReply c s after).2) := by
  cases after with
  | announce =>
    refine ⟨.reading b₁.now, phase?_readOn hk₁, ?_⟩
    have hreports : reports c [.connected c s.clientId] = [.connected c s.clientId] := by
      simp [reports, Observation.client?]
    show Turns b _ c k m _ none (some bs) (reports c [.connected c s.clientId])
    rw [hreports]
    exact .announces hphase hs hframe rfl hregistry
  | read =>
    exact ⟨.reading b₁.now, phase?_readOn hk₁, .answered hphase nofun hframe rfl hregistry⟩
  | forward p f =>
    exact ⟨.forwarding p (b₁.fanOut p.topic f), phase?_setPhase _ hk₁,
      .answered hphase nofun hframe rfl hregistry⟩

/-- A refused connection may have sent a frame. -/
theorem Refuses.turns {e : Fault} (hk : b.conns[c]? = some k) (hphase : k.phase = .greeting)
    (h : Refuses b k m e) : ∃ f : Option Frame, (∀ g ∈ f, ∃ e, greet g = .error e) ∧
      b.framesTaken c (.move (.task (.conn c) m)) = f.toList := by
  cases h with
  | ended _ _ => exact ⟨none, nofun, framesTaken_of_ne nofun⟩
  | cancelled _ => exact ⟨none, nofun, framesTaken_of_ne nofun⟩
  | malformed hnext =>
    refine ⟨none, nofun, ?_⟩
    rw [framesTaken_dispatch hk, frame?_of_malformed hnext]
  | @unwelcome f a e hnext hgreet =>
    refine ⟨some f, ?_, ?_⟩
    · rintro g hg
      obtain rfl := Option.some.inj hg
      exact ⟨e, hgreet⟩
    · rw [framesTaken_dispatch hk, frame?_of_greeting hphase hnext]

/-- A move of the task of a connection is one of its turns. -/
def TakesTurn (b b' : Broker) (c : ConnId) (k : Conn) (m : Move) (seen : List Observation) :
    Prop :=
  ∃ φ f a, b'.phase? c = some φ ∧ Turns b b' c k m φ f a (reports c seen) ∧
    b.framesTaken c (.move (.task (.conn c) m)) = f.toList ∧
    answersOf c (b.completions b' (.conn c) seen) = a.toList

/-- A task that has no answer to write writes none. -/
theorem takesTurn_of_ne {φ : Phase} {f : Option Frame} (hk : b.conns[c]? = some k)
    (hphase : k.phase = phase) (hne : ∀ d after, phase ≠ .replying d after)
    (hφ : b'.phase? c = some φ) (hturns : Turns b b' c k m φ f none (reports c seen))
    (htaken : b.framesTaken c (.move (.task (.conn c) m)) = f.toList) :
    TakesTurn b b' c k m seen := by
  refine ⟨φ, f, none, hφ, hturns, htaken, answersOf_completions_of_ne hk fun d after h => ?_⟩
  exact hne d after (hphase.symm.trans h)

/-- It takes a frame only when it looks for one. -/
theorem takesTurn_of_ne_dispatch {φ : Phase} (hk : b.conns[c]? = some k) (hphase : k.phase = phase)
    (hne : ∀ d after, phase ≠ .replying d after) (hm : m ≠ .dispatch)
    (hφ : b'.phase? c = some φ) (hturns : Turns b b' c k m φ none none (reports c seen)) :
    TakesTurn b b' c k m seen :=
  takesTurn_of_ne hk hphase hne hφ hturns (framesTaken_of_ne hm)

theorem delivery?_of_replying {d : Delivery} {after : AfterReply} (hk : b.conns[c]? = some k)
    (hphase : k.phase = .replying d after) : b.delivery? (.conn c) = some d := by
  rw [delivery?_of_phase hk hphase]
  rfl

/-- The answer is not yet written. -/
theorem Sends.takesTurn_of_goesOn {d : Delivery} {after : AfterReply} {state : Sending}
    (h : Sends b (.conn c) d m' b₁ (.inl state) seen) (hk : b.conns[c]? = some k)
    (hphase : k.phase = .replying d after) :
    TakesTurn b (b₁.setPhase c (.replying { d with state := state } after)) c k (.send m')
      seen := by
  obtain ⟨k₁, hk₁⟩ := h.evolves.exists_conn hk
  have hφ := phase?_setPhase (.replying { d with state := state } after) hk₁
  refine ⟨_, none, none, hφ, ?_, framesTaken_of_ne (by simp), ?_⟩
  · rw [h.reports]
    exact .writes hphase h.keeps.registry
  · rw [completions_of_sending (delivery?_of_replying hk hphase) (delivery?_of_phase? hφ) rfl]
    rfl

/-- The answer cannot be written. -/
theorem Sends.takesTurn_of_error {d : Delivery} {after : AfterReply} {e : Fault}
    (h : Sends b (.conn c) d m' b₁ (.inr (.error e)) seen) (hk : b.conns[c]? = some k)
    (hphase : k.phase = .replying d after) :
    TakesTurn b (b₁.finish c (.error e)) c k (.send m') seen := by
  obtain ⟨k₁, hk₁⟩ := h.evolves.exists_conn hk
  refine ⟨_, none, none, phase?_finish hk₁, ?_, framesTaken_of_ne (by simp), ?_⟩
  · rw [h.reports]
    exact .fails hphase rfl h (registry_finish h.keeps.registry)
  · rw [completions_of_nil h.streamOf_of_error]
    rfl

/-- The answer is written. -/
theorem Sends.takesTurn_of_ok {d : Delivery} {after : AfterReply}
    (h : Sends b (.conn c) d m' b₁ (.inr (.ok ())) seen) (hexclusive : ∀ d, (b.lane d).Exclusive)
    (htarget : d.target = c) (hk : b.conns[c]? = some k) (hphase : k.phase = .replying d after)
    (hs : k.session = some s) :
    TakesTurn b (b₁.afterReply c s after).1 c k (.send m')
      (seen ++ (b₁.afterReply c s after).2) := by
  obtain ⟨k₁, hk₁⟩ := h.evolves.exists_conn hk
  obtain ⟨w, hwork, -, hw⟩ := exists_work?_afterReply s after hk₁
  have hdone : (b₁.afterReply c s after).1.delivery? (.conn c) = none := by
    rw [delivery?, hwork, if_pos rfl, hw]
  have hseen (d : ConnId) : streamOf d (b₁.afterReply c s after).2 = [] := by
    cases after <;> rfl
  obtain ⟨bs, hframe, hcompletions⟩ :=
    completions_of_delivered (hexclusive _) (delivery?_of_replying hk hphase) hdone h
  obtain ⟨φ, hφ, hturns⟩ := turns_afterReply (b := b) (m := .send m') hphase hs hk₁
    h.keeps.registry hframe
  refine ⟨φ, none, some bs, hφ, ?_, framesTaken_of_ne (by simp), ?_⟩
  · rw [reports_append, h.reports]
    exact hturns
  · rw [completions_append_of_nil hseen, hcompletions,
      isForwarding_of_ne hk (ne_forwarding_of_replying hphase), htarget]
    simp [answersOf, Deed.answer?]

/-- **What the task of a connection does in a move.** -/
theorem Serves.takesTurn (hexclusive : ∀ d, (b.lane d).Exclusive)
    (htarget : ∀ d after, k.phase = .replying d after → d.target = c)
    (hk : b.conns[c]? = some k) (h : Serves b c k m b' seen) : TakesTurn b b' c k m seen := by
  have htake {a : Assembler} : (b.takeFrame c a).conns[c]? = some { k with assembler := a } :=
    conns_modifyConn_self hk
  have howes {phase : Phase} (hphase : k.phase = phase) (h : phase.owesNothing = true) :
      k.phase.owesNothing = true := by
    rw [hphase, h]
  cases h with
  | @greets bs up hphase _ _ =>
    -- Bytes are read into the assembler; no frame is taken from it yet.
    have hsame : (b.takeBytes c bs up).phase? c = b.phase? c :=
      phase?_modifyConn_of_same fun _ => rfl
    rw [phase?_of_conn hk, hphase] at hsame
    exact takesTurn_of_ne_dispatch hk hphase (by simp) (by simp) hsame (.waits hphase rfl)
  | @refuses _ e hphase hrefuses =>
    -- The first frame may be there and be refused, or may never become whole.
    obtain ⟨f, hf, htaken⟩ := hrefuses.turns hk hphase
    refine takesTurn_of_ne hk hphase (by simp) (phase?_of_conn (conns_modifyConn_self hk)) ?_ htaken
    have hended : reports c [.ended c (settle (.error e))] = [.ended c (settle (.error e))] := by
      simp [reports, Observation.client?]
    show Turns b _ c k m _ f none (reports c [.ended c (settle (.error e))])
    rw [hended]
    exact .refuses hphase rfl hf
  | @opens f a v p hphase hnext hgreet =>
    obtain ⟨k', s, hk', -, -, -, hs, hv⟩ :=
      exists_conn_openSession (v := v) (p := p) (htake (a := a))
    -- This is the one place where the registry grows.
    have hregistry : ((b.takeFrame c a).openSession c v p).registry = b.registry ++ [c] := rfl
    refine takesTurn_of_ne (f := some f) hk hphase (by simp) (phase?_openSession htake) ?_ ?_
    · exact .opens hphase hgreet hregistry (session?_eq_some.2 ⟨k', hk', hs⟩) hv
    · rw [framesTaken_dispatch hk, frame?_of_greeting hphase hnext]
  | reads hphase _ _ _ =>
    have hreading := howes hphase rfl
    exact takesTurn_of_ne_dispatch hk hphase (by simp) (by simp)
      (phase?_of_conn (conns_modifyConn_self hk)) (.goesOn hreading hreading rfl)
  | @handles since s f a p hphase hs hnext hdecode =>
    obtain ⟨φ, hφ, hturns⟩ :=
      (handles_handle _).takes (b := b) (m := .dispatch) (howes hphase rfl) hs hdecode htake rfl
    refine takesTurn_of_ne hk hphase (by simp) hφ hturns ?_
    rw [framesTaken_dispatch hk, frame?_of_reading hphase hnext]
  | @undecodable since s f a e hphase hs hnext hdecode =>
    refine takesTurn_of_ne (f := some f) hk hphase (by simp) (phase?_finish htake)
      (.ends (howes hphase rfl) hs ?_ (registry_finish rfl)) ?_
    · -- A packet that the version does not decode is one that ends the session.
      rintro g hg
      obtain rfl := Option.some.inj hg
      rw [Frame.response, hdecode]
    · rw [framesTaken_dispatch hk, frame?_of_reading hphase hnext]
  | ends hphase hs hends =>
    refine takesTurn_of_ne (f := none) hk hphase (by simp) (phase?_finish hk)
      (.ends (howes hphase rfl) hs (by simp) (registry_finish rfl)) ?_
    cases hends with
    -- Only a malformed frame is met by looking at what is in front, and it is not taken.
    | malformed hnext => rw [framesTaken_dispatch hk, frame?_of_malformed hnext]
    | ended _ _ | cancelled _ | expired _ _ _ => exact framesTaken_of_ne (by simp)
  | answers hphase _ hsends => exact hsends.takesTurn_of_goesOn hk hphase
  | answerFails hphase _ hsends => exact hsends.takesTurn_of_error hk hphase
  | answered hphase hs hsends =>
    exact hsends.takesTurn_of_ok hexclusive (htarget _ _ hphase) hk hphase hs
  | forwards hphase _ hforwards =>
    -- Forwarding writes to others. What the task owes its own client does not change.
    obtain ⟨k₁, hk₁⟩ := hforwards.evolves.exists_conn hk
    refine takesTurn_of_ne_dispatch hk hphase (by simp) hforwards.ne_dispatch
      (phase?_setPhase _ hk₁) ?_
    rw [hforwards.reports]
    exact .goesOn (howes hphase rfl) rfl hforwards.keeps.registry
  | forwarded hphase _ hforwards =>
    obtain ⟨k₁, hk₁⟩ := hforwards.evolves.exists_conn hk
    refine takesTurn_of_ne_dispatch hk hphase (by simp) hforwards.ne_dispatch (phase?_readOn hk₁) ?_
    rw [reports_append, hforwards.reports]
    exact .goesOn (howes hphase rfl) rfl hforwards.keeps.registry
  | closes hphase hs =>
    exact takesTurn_of_ne_dispatch hk hphase (by simp) (by simp)
      (phase?_setPhase _ (conns_modifySession_self hk)) (.closes hphase rfl)
  | @shuts r s hphase hs _ =>
    -- The stream is shut: the end of the session and its result are reported together.
    have hreports : reports c [.disconnected c s.clientId, .ended c (settle r)] =
        [.disconnected c s.clientId, .ended c (settle r)] := by
      simp [reports, Observation.client?]
    refine takesTurn_of_ne_dispatch hk hphase (by simp) (by simp)
      (phase?_of_conn (conns_modifyConn_self hk)) ?_
    rw [hreports]
    exact .shuts hphase hs rfl

/-! ### Every event -/

theorem Turns.mem_registry_of_ne {φ : Phase} {f : Option Frame} {a : Option Bytes}
    (h : Turns b b' d k m φ f a seen) (hne : c ≠ d) : c ∈ b'.registry ↔ c ∈ b.registry := by
  -- Only the opening and the end of a session change the registry, and only in the number of that
  -- session.
  have hends (hregistry : b'.registry = b.registry.erase d) :
      c ∈ b'.registry ↔ c ∈ b.registry := by
    rw [hregistry, List.mem_erase_of_ne hne]
  cases h with
  | opens _ _ hregistry _ _ =>
    rw [hregistry, List.mem_append, List.mem_singleton]
    exact or_iff_left hne
  | ends _ _ _ hregistry | fails _ _ _ hregistry => exact hends hregistry
  | waits _ hregistry | refuses _ hregistry _ | goesOn _ _ hregistry | passes _ _ _ _ hregistry
  | answers _ _ _ _ hregistry | writes _ hregistry | announces _ _ _ _ hregistry
  | answered _ _ _ _ hregistry | closes _ hregistry | shuts _ _ hregistry => rw [hregistry]

/-- The task of another connection is not reported as this one. -/
theorem Serves.reports_of_ne (h : Serves b d k m b' seen) (hne : c ≠ d) :
    Broker.reports c seen = [] := by
  cases h with
  | refuses _ _ | shuts _ _ _ => simp [Broker.reports, refuse, Observation.client?, Ne.symm hne]
  | answers _ _ hsends | answerFails _ _ hsends => exact hsends.reports
  | @answered _ after _ _ _ _ _ _ hsends =>
    rw [reports_append, hsends.reports]
    cases after with
    | announce => simp [Broker.reports, afterReply, Observation.client?, Ne.symm hne]
    | read | forward _ _ => rfl
  | forwards _ _ hforwards => exact hforwards.reports
  | forwarded _ _ hforwards =>
    rw [reports_append, hforwards.reports]
    rfl
  | _ => rfl

/-- Others than the task of a connection leave alone what a turn of it changes. -/
theorem leaves_of_others (hg : b.Greets) (h : b.next? e = some (b', seen))
    (hne : ∀ m, e ≠ .move (.task (.conn c) m))
    (hregistry : c ∈ b'.registry ↔ c ∈ b.registry) (hreports : reports c seen = []) :
    Leaves b b' c e seen where
  phase := phase?_of_others h hne
  session := (next?_joins hg h).session hne
  registry := hregistry
  taken := framesTaken_of_others hne
  answers := answersOf_deeds_of_ne hne
  reports := hreports

/-- **Every event is a turn of the task of a connection, or leaves alone what such a turn
changes.** -/
theorem next?_turns (hg : b.Greets) (hexclusive : ∀ d, (b.lane d).Exclusive)
    (htarget : ∀ c d after, b.phase? c = some (.replying d after) → d.target = c)
    (h : b.next? e = some (b', seen)) (c : ConnId) :
    (∃ m k φ f a, e = .move (.task (.conn c) m) ∧ b.conns[c]? = some k ∧ b'.phase? c = some φ ∧
      Turns b b' c k m φ f a (reports c seen) ∧ b.framesTaken c e = f.toList ∧
      answersOf c (b.deeds e b' seen) = a.toList) ∨ Leaves b b' c e seen := by
  have hconn {d : ConnId} {k : Conn} (hk : b.conns[d]? = some k) (d' : Delivery)
      (after : AfterReply) (hphase : k.phase = .replying d' after) : d'.target = d := by
    refine htarget d d' after ?_
    rw [phase?_of_conn hk, hphase]
  cases e with
  | input i =>
    have haccepts := accepts_of_next h
    refine .inr (leaves_of_others hg h nofun ?_ haccepts.reports)
    rw [haccepts.keeps.registry]
  | move a =>
    cases step_cases h with
    | @conn d k m _ _ hk hserves =>
      -- The task of `d` moves. For any other connection that is as good as nothing.
      obtain ⟨φ, f, a, hφ, hturns, htaken, hanswers⟩ := hserves.takesTurn hexclusive (hconn hk) hk
      by_cases hd : c = d
      · subst hd
        exact .inl ⟨m, k, φ, f, a, rfl, hk, hφ, hturns, htaken, answersOf_deeds.trans hanswers⟩
      · refine .inr (leaves_of_others hg h (fun m' heq => hd ?_) (hturns.mem_registry_of_ne hd)
          (hserves.reports_of_ne hd))
        cases heq
        rfl
    | host _ hcalls =>
      refine .inr (leaves_of_others hg h nofun ?_ hcalls.reports)
      rw [hcalls.keeps.registry]
    | relay _ _ _ _ => exact .inr (leaves_of_others hg h nofun Iff.rfl rfl)

/-! ### Every run -/

/-- Where the task of a connection stands, in view of its session, of the registry and of what has
been seen. -/
structure Attends (c : ConnId) (b : Broker) (seen : List Observation) : Prop where
  /-- The task answers its own client. -/
  target : ∀ d after, b.phase? c = some (.replying d after) → d.target = c
  session : ∀ φ, b.phase? c = some φ → (φ.isServing || φ.isEnding) = true →
    (b.session? c).isSome = true
  registry : c ∈ b.registry ↔ ∃ φ, b.phase? c = some φ ∧ φ.isServing = true
  ended : ∀ r, b.phase? c = some (.over r) → .ended c r ∈ seen

theorem attends_start (maxPacketSize now : Nat) : Attends c (start maxPacketSize now) [] where
  target _ _ := nofun
  session _ := nofun
  registry := ⟨nofun, fun ⟨_, h, _⟩ => nomatch h⟩
  ended _ := nofun

/-- A task that serves a session, or brings it to its end, finds it at its connection. -/
theorem Attends.exists_session {k : Conn} (h : Attends c b seen) (hk : b.conns[c]? = some k)
    (hphase : (k.phase.isServing || k.phase.isEnding) = true) : ∃ s, k.session = some s := by
  rw [← Option.isSome_iff_exists, ← session?_of_conn hk]
  exact h.session _ (phase?_of_conn hk) hphase

/-- What is to be shown once the task has moved. -/
theorem attends_of_phase {φ : Phase} (hφ : b.phase? c = some φ)
    (htarget : ∀ d after, φ = .replying d after → d.target = c)
    (hsession : (φ.isServing || φ.isEnding) = true → (b.session? c).isSome = true)
    (hregistry : c ∈ b.registry ↔ φ.isServing = true)
    (hended : ∀ r, φ = .over r → .ended c r ∈ seen) : Attends c b seen where
  target d after h := htarget d after (Option.some.inj (hφ.symm.trans h))
  session φ' h hφ' := by
    obtain rfl := Option.some.inj (hφ.symm.trans h)
    exact hsession hφ'
  registry := by
    rw [hregistry]
    refine ⟨fun h => ⟨φ, hφ, h⟩, ?_⟩
    rintro ⟨φ', h, hφ'⟩
    obtain rfl := Option.some.inj (hφ.symm.trans h)
    exact hφ'
  ended r h := hended r (Option.some.inj (hφ.symm.trans h))

theorem Attends.registered (h : Attends c b seen) (hk : b.conns[c]? = some k) :
    c ∈ b.registry ↔ k.phase.isServing = true := by
  rw [h.registry]
  refine ⟨?_, fun hserving => ⟨_, phase?_of_conn hk, hserving⟩⟩
  rintro ⟨φ, hφ, hserving⟩
  obtain rfl := Option.some.inj ((phase?_of_conn hk).symm.trans hφ)
  exact hserving

theorem Attends.session_after (h : Attends c b seen) (he : b.Evolves b')
    (hk : b.conns[c]? = some k) (hphase : (k.phase.isServing || k.phase.isEnding) = true) :
    (b'.session? c).isSome = true :=
  he.session?_isSome (h.session _ (phase?_of_conn hk) hphase)

/-- The session goes on, and stays registered. -/
theorem Attends.goesOn {φ : Phase} (h : Attends c b seen) (he : b.Evolves b')
    (hk : b.conns[c]? = some k) (hφ : b'.phase? c = some φ) (hbefore : k.phase.isServing = true)
    (hregistry : b'.registry = b.registry) (hafter : φ.isServing = true)
    (htarget : ∀ d after, φ = .replying d after → d.target = c) :
    Attends c b' (seen ++ more) := by
  refine attends_of_phase hφ htarget (fun _ => h.session_after he hk ?_) ?_ fun r heq => ?_
  · rw [hbefore, Bool.true_or]
  · rw [hregistry, h.registered hk, hbefore, hafter]
  · rw [heq] at hafter
    cases hafter

/-- The session ends. -/
theorem Attends.ends {r : Except Fault Unit} (h : Attends c b seen) (hnodup : b.registry.Nodup)
    (he : b.Evolves b') (hk : b.conns[c]? = some k) (hφ : b'.phase? c = some (.closing r))
    (hbefore : k.phase.isServing = true) (hregistry : b'.registry = b.registry.erase c) :
    Attends c b' (seen ++ more) := by
  refine attends_of_phase hφ (by simp) (fun _ => h.session_after he hk ?_) ?_ (by simp)
  · rw [hbefore, Bool.true_or]
  · rw [hregistry, hnodup.mem_erase_iff]
    simp [Phase.isServing]

/-- A turn of the task keeps it attending. -/
theorem Attends.turn {φ : Phase} {f : Option Frame} {a : Option Bytes}
    (h : Attends c b seen) (hnodup : b.registry.Nodup) (he : b.Evolves b')
    (hk : b.conns[c]? = some k) (hφ : b'.phase? c = some φ)
    (hturns : Turns b b' c k m φ f a (reports c more)) : Attends c b' (seen ++ more) := by
  have hreported {o : Observation} (ho : o ∈ reports c more) : o ∈ seen ++ more :=
    List.mem_append_right _ (List.mem_of_mem_filter ho)
  have hregistered := h.registered hk
  have hserving {phase : Phase} (hphase : k.phase = phase) (h : phase.isServing = true) :
      k.phase.isServing = true := by
    rw [hphase, h]
  have hquiet {φ : Phase} (howes : φ.owesNothing = true) (d : Delivery) (after : AfterReply)
      (heq : φ = .replying d after) : d.target = c := by
    rw [heq] at howes
    cases howes
  generalize reports c more = heard at hturns hreported
  cases hturns with
  | waits hphase hregistry =>
    -- Who is still waiting for a first frame has no session, and is not registered.
    refine attends_of_phase hφ (by simp) (by simp [Phase.isServing, Phase.isEnding]) ?_ (by simp)
    rw [hregistry, hregistered, hphase]
  | refuses hphase hregistry _ =>
    refine attends_of_phase hφ (by simp) (by simp [Phase.isServing, Phase.isEnding]) ?_
      fun r hr => ?_
    · rw [hregistry, hregistered, hphase]
      rfl
    · cases hr
      exact hreported (List.mem_singleton_self _)
  | opens hphase _ hregistry hs _ =>
    -- The new session is the last in the registry, and its CONNACK goes to its own client.
    refine attends_of_phase hφ (fun d after hd => ?_) (fun _ => ?_) ?_ (by simp)
    · cases hd
      rfl
    · rw [hs]
      rfl
    · rw [hregistry]
      simp [Phase.isServing]
  | goesOn howes howes' hregistry | passes howes _ _ howes' hregistry =>
    exact h.goesOn he hk hφ (Phase.isServing_of_owesNothing howes) hregistry
      (Phase.isServing_of_owesNothing howes') (hquiet howes')
  | answers howes _ _ _ hregistry =>
    refine h.goesOn he hk hφ (Phase.isServing_of_owesNothing howes) hregistry rfl ?_
    rintro _ _ ⟨⟩
    rfl
  | ends howes _ _ hregistry =>
    -- A session ends in the same step in which its number is erased, and the registry holds that
    -- once.
    exact h.ends hnodup he hk hφ (Phase.isServing_of_owesNothing howes) hregistry
  | @writes d after state hphase hregistry =>
    refine h.goesOn he hk hφ (hserving hphase rfl) hregistry rfl ?_
    rintro _ _ ⟨⟩
    exact h.target d after ((phase?_of_conn hk).trans (congrArg some hphase))
  | fails hphase _ _ hregistry => exact h.ends hnodup he hk hφ (hserving hphase rfl) hregistry
  | announces hphase _ _ howes hregistry | answered hphase _ _ howes hregistry =>
    exact h.goesOn he hk hφ (hserving hphase rfl) hregistry (Phase.isServing_of_owesNothing howes)
      (hquiet howes)
  | closes hphase hregistry =>
    -- The session left the registry before its task closes: closing changes nothing there.
    refine attends_of_phase hφ (by simp) (fun _ => h.session_after he hk ?_) ?_ (by simp)
    · rw [hphase]
      rfl
    · rw [hregistry, hregistered, hphase]
      rfl
  | shuts hphase _ hregistry =>
    refine attends_of_phase hφ (by simp) (by simp [Phase.isServing, Phase.isEnding]) ?_
      fun r hr => ?_
    · rw [hregistry, hregistered, hphase]
      rfl
    · cases hr
      exact hreported (List.mem_of_mem_tail (List.mem_singleton_self _))

/-- What others do leaves the task attending. -/
theorem Attends.leaves (h : Attends c b seen) (he : b.Evolves b')
    (hleaves : Leaves b b' c e more) : Attends c b' (seen ++ more) := by
  rcases hleaves.phase with hphase | ⟨hnone, hphase⟩
  · refine ⟨fun d after hd => ?_, fun φ hφ hsession => ?_, ?_, fun r hr => ?_⟩
    · exact h.target d after (hphase ▸ hd)
    · exact he.session?_isSome (h.session φ (hphase ▸ hφ) hsession)
    · rw [hleaves.registry, h.registry, hphase]
    · exact List.mem_append_left _ (h.ended r (hphase ▸ hr))
  · refine attends_of_phase hphase (by simp) (by simp [Phase.isServing, Phase.isEnding]) ?_
      (by simp)
    rw [hleaves.registry, h.registry, hnone]
    simp [Phase.isServing]

/-- **In every run every task attends to its connection.** -/
theorem attends_of_replay {maxPacketSize now : Nat} {es : List Event}
    (h : (start maxPacketSize now).replay es = some (b, seen)) (c : ConnId) :
    Attends c b seen := by
  refine replay_induction (P := fun _ b seen => ∀ c, Attends c b seen)
    (fun _ => attends_start _ _) ?_ h c
  intro es e b₁ seen₁ b₂ more hrun hnext ih c
  obtain ⟨hw, hexclusive⟩ := exclusive_of_replay hrun
  have he := next?_evolves hw.greets hnext
  rcases next?_turns hw.greets hexclusive (fun c => (ih c).target) hnext c with
    ⟨m, k, φ, f, a, -, hk, hφ, hturns, -, -⟩ | hleaves
  · exact (ih c).turn (registered_of_replay hrun).nodup he hk hφ hturns
  · exact (ih c).leaves he hleaves

/-- What an event of a run is for a connection. -/
theorem turns_of_replay {maxPacketSize now : Nat} {es : List Event}
    (h : (start maxPacketSize now).replay es = some (b, seen))
    (hnext : b.next? e = some (b', more)) (c : ConnId) :
    (∃ m k φ f a, e = .move (.task (.conn c) m) ∧ b.conns[c]? = some k ∧ b'.phase? c = some φ ∧
      Turns b b' c k m φ f a (reports c more) ∧ b.framesTaken c e = f.toList ∧
      answersOf c (b.deeds e b' more) = a.toList) ∨ Leaves b b' c e more := by
  obtain ⟨hw, hexclusive⟩ := exclusive_of_replay h
  exact next?_turns hw.greets hexclusive (fun c => (attends_of_replay h c).target) hnext c

end Broker
end Mqtt
