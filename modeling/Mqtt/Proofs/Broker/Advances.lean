import Mqtt.Proofs.Broker.History
import Mqtt.Proofs.Broker.Intake
import Mqtt.Proofs.Broker.Registry
import Mqtt.Proofs.Frame.Assembler
/-!
# What an event does for the message that a session forwards

A session takes a message, acknowledges it if it has to, and looks at the sessions that were
registered then, one after the other. `next?_advances` says of every event what it does to this:
which deeds of the session it notes, and where the task of the session goes (`Advances`).

It speaks of runs in which nothing ends (`Broker.Calm`), so a task neither stops forwarding nor
finds a stream closed. That a frame cannot be laid out is left to those who know the frame.
-/

namespace Mqtt

/-- The task has a message to forward. -/
def Phase.isBusy : Phase → Bool
  | replying _ (.forward _ _) | forwarding _ _ => true
  | _ => false

theorem Phase.ne_forwarding_of_not_busy {phase : Phase} (h : phase.isBusy = false) (p : Publish)
    (o : FanOut) : phase ≠ .forwarding p o := by
  rintro rfl
  cases h

namespace Broker

variable {b b' b₁ : Broker} {c d : ConnId} {t : Task} {m : Move} {m' : SendMove}
  {e : Event} {k : Conn}
  {phase : Phase} {seen more : List Observation} {log log' : List Deed}

/-- No session is to end, and no stream towards one is closed. -/
structure Calm (b : Broker) : Prop where
  shutdown : b.shutdown = false
  session : ∀ (c : ConnId) (s : Session), b.session? c = some s → s.cancelled = false
  stream : ∀ (c : ConnId) (k : Conn), b.conns[c]? = some k → k.session.isSome = true →
    k.link.down.closed = false

/-- What an event does for the message that a session forwards: from where its task goes to where,
and what is noted. -/
inductive Advances (b : Broker) (c : ConnId) : Option Phase → List Deed → Option Phase → Prop
  /-- There is no message before and none after. -/
  | rests {x y : Option Phase} : (∀ φ ∈ x, φ.isBusy = false) → (∀ φ ∈ y, φ.isBusy = false) →
    Advances b c x [] y
  /-- The task does not move. -/
  | stays {x : Option Phase} : Advances b c x [] x
  /-- A message comes that is acknowledged first. -/
  | takes {phase : Phase} {f : Frame} {p : Publish} {d : Delivery} : phase.isBusy = false →
    Topic.validate p.topic = .ok () → f.body.length ≤ RemainingLength.limit →
    Advances b c (some phase) [.takes c f p] (some (.replying d (.forward p f)))
  /-- A message comes that is forwarded at once. -/
  | takesOn {phase : Phase} {f : Frame} {p : Publish} : phase.isBusy = false →
    Topic.validate p.topic = .ok () → f.body.length ≤ RemainingLength.limit →
    (b.session? c).isSome = true →
    Advances b c (some phase) [.takes c f p, .begins c b.registry]
      (some (.forwarding p (b.fanOut p.topic f)))
  | answers {d d' : Delivery} {p : Publish} {f : Frame} :
    Advances b c (some (.replying d (.forward p f))) [] (some (.replying d' (.forward p f)))
  /-- The message is acknowledged. -/
  | answered {d : Delivery} {p : Publish} {f : Frame} : (b.session? c).isSome = true →
    Advances b c (some (.replying d (.forward p f))) [.begins c b.registry]
      (some (.forwarding p (b.fanOut p.topic f)))
  | passes {p : Publish} {o : FanOut} {d : ConnId} {rest : List ConnId} : o.current = none →
    o.left = d :: rest → b.isSubscribed d o.topic = false →
    Advances b c (some (.forwarding p o)) [.reaches c d (b.isSubscribed d p.topic)]
      (some (.forwarding p { o with left := rest, current := none }))
  | reaches {p : Publish} {o : FanOut} {d : ConnId} {rest : List ConnId} : o.current = none →
    o.left = d :: rest → b.isSubscribed d o.topic = true →
    Advances b c (some (.forwarding p o)) [.reaches c d (b.isSubscribed d p.topic)]
      (some (.forwarding p { o with left := rest, current := some ⟨d, o.frame, .starting⟩ }))
  | goesOn {p : Publish} {o : FanOut} {d : Delivery} {s : Sending} : o.current = some d →
    Advances b c (some (.forwarding p o)) []
      (some (.forwarding p { o with current := some { d with state := s } }))
  | delivers {p : Publish} {o : FanOut} {d : Delivery} {bs : Bytes} : o.current = some d →
    d.frame = .ok bs →
    Advances b c (some (.forwarding p o)) [.writes (.conn c) d.target bs true]
      (some (.forwarding p { o with delivered := o.delivered + 1, current := none }))
  /-- The frame cannot be laid out. -/
  | fails {p : Publish} {o : FanOut} {d : Delivery} {f : Fault} : o.current = some d →
    d.frame = .error f →
    Advances b c (some (.forwarding p o)) [] (some (.forwarding p { o with current := none }))
  /-- Every session has been looked at. -/
  | exhausts {p : Publish} {o : FanOut} {clientId : String} {since : Nat} : o.current = none →
    o.left = [] →
    Advances b c (some (.forwarding p o)) [.hands c clientId p.message] (some (.reading since))

/-! ### Runs in which nothing ends -/

theorem Calm.isCancelled (h : b.Calm) {s : Session} (hs : b.session? c = some s) :
    b.isCancelled s = false := by
  rw [Broker.isCancelled, h.session c s hs, h.shutdown]
  rfl

theorem calm_iff : b.Calm ↔ b.shutdown = false ∧
    ∀ k ∈ b.conns, ∀ s ∈ k.session, s.cancelled = false ∧ k.link.down.closed = false := by
  constructor
  · intro h
    refine ⟨h.shutdown, fun k hk s hs => ?_⟩
    obtain ⟨c, hk⟩ := List.mem_iff_getElem?.1 hk
    exact ⟨h.session c s (session?_eq_some.2 ⟨k, hk, hs⟩), h.stream c k hk (by rw [hs]; rfl)⟩
  · rintro ⟨hshutdown, hconns⟩
    refine ⟨hshutdown, fun c s hs => ?_, fun c k hk hs => ?_⟩
    · obtain ⟨k, hk, hs⟩ := session?_eq_some.1 hs
      exact (hconns k (List.mem_of_getElem? hk) s hs).1
    · obtain ⟨s, hs⟩ := Option.isSome_iff_exists.1 hs
      exact (hconns k (List.mem_of_getElem? hk) s hs).2

instance : Decidable b.Calm := decidable_of_iff _ calm_iff.symm

/-- What is calm at the end was so before. -/
theorem Calm.of_evolves (h : b'.Calm) (he : b.Evolves b') : b.Calm where
  shutdown := by
    have hopen := h.shutdown
    by_contra hs
    rw [he.shutdown (by simpa using hs)] at hopen
    cases hopen
  session c s hs := by
    obtain ⟨s', hs', hsame⟩ := he.exists_session hs
    have hlives := h.session c s' hs'
    by_contra hc
    rw [hsame.cancelled (by simpa using hc)] at hlives
    cases hlives
  stream c k hk hs := by
    obtain ⟨s, hs⟩ := Option.isSome_iff_exists.1 hs
    obtain ⟨k', hk', hconn⟩ := he.conns c k hk
    obtain ⟨s', hs', -⟩ := hconn.session s hs
    have hopen := h.stream c k' hk' (by rw [hs']; rfl)
    by_contra hc
    rw [hconn.down (by simpa using hc)] at hopen
    cases hopen

/-- A session that has ended is to end. -/
theorem not_calm_finish {r : Except Fault Unit} {s : Session} (hk : b.conns[c]? = some k)
    (hs : k.session = some s) : ¬(b.finish c r).Calm := by
  intro h
  have hcancel : (b.cancelSession c).conns[c]? = _ := conns_modifySession_self hk
  have hfinish : (b.finish c r).session? c = some { s with cancelled := true } := by
    refine session?_eq_some.2 ⟨_, conns_modifyConn_self hcancel, ?_⟩
    show k.session.map _ = _
    rw [hs]
    rfl
  have hlives := h.session c _ hfinish
  cases hlives

/-! ### The notes of one session -/

theorem forwardings_append :
    forwardings c (log ++ log') = forwardings c log ++ forwardings c log' :=
  List.filter_append _ _

theorem forwardings_self (h : ∀ deed ∈ log, deed.publisher? = some c) :
    forwardings c log = log := by
  refine List.filter_eq_self.2 fun deed hdeed => ?_
  rw [h deed hdeed]
  exact decide_eq_true rfl

theorem forwardings_singleton {deed : Deed} (h : deed.publisher? = some c) :
    forwardings c [deed] = [deed] :=
  forwardings_self fun _ hdeed => List.mem_singleton.1 hdeed ▸ h

theorem forwardings_of_ne (h : ∀ deed ∈ log, deed.publisher? ≠ some c) :
    forwardings c log = [] :=
  List.filter_eq_nil_iff.2 fun deed hdeed => by simpa using h deed hdeed

theorem publisher?_takings {deed : Deed} (h : deed ∈ b.takings c m) :
    deed.publisher? = some c := by
  obtain ⟨f, p, rfl⟩ := mem_takings h
  rfl

theorem publisher?_beginnings {deed : Deed} (h : deed ∈ b.beginnings b' c) :
    deed.publisher? = some c := by
  rw [mem_beginnings h]
  rfl

theorem publisher?_reachings {deed : Deed} (h : deed ∈ b.reachings c m) :
    deed.publisher? = some c := by
  obtain ⟨d, wanted, rfl⟩ := mem_reachings h
  rfl

theorem publisher?_writes {bs : Bytes} {forwarded : Bool}
    (h : (Deed.writes t d bs forwarded).publisher? = some c) : t = .conn c ∧ forwarded = true := by
  cases t with
  | host n => cases h
  | conn c' =>
    cases forwarded with
    | false => cases h
    | true =>
      cases h
      exact ⟨rfl, rfl⟩

/-- A task that forwards no message completes no frame for one. -/
theorem forwardings_completions_of_idle (h : b.isForwarding t = false) :
    forwardings c (b.completions b' t seen) = [] := by
  refine forwardings_of_ne fun deed hdeed hp => ?_
  obtain ⟨d, bs, -, rfl⟩ := mem_completions hdeed
  rw [(publisher?_writes hp).2] at h
  cases h

/-- What a move of its own task says of a session. -/
theorem forwardings_deeds : forwardings c (b.deeds (.move (.task (.conn c) m)) b' seen) =
    b.takings c m ++ forwardings c (b.completions b' (.conn c) seen) ++ b.beginnings b' c ++
      b.reachings c m ++ forwardings c (handings seen) := by
  rw [deeds]
  simp only [forwardings_append]
  rw [forwardings_self fun _ => publisher?_takings, forwardings_self fun _ => publisher?_beginnings,
    forwardings_self fun _ => publisher?_reachings]

theorem handings_append : handings (seen ++ more) = handings seen ++ handings more :=
  List.filterMap_append

theorem handings_wrote {bs : Bytes} : handings (wrote d t bs) = [] := by
  rw [wrote]
  split_ifs <;> rfl

theorem Sends.handings {d : Delivery} {m : SendMove} {r : Sending ⊕ Except Fault Unit}
    (h : Sends b t d m b' r seen) : Broker.handings seen = [] := by
  cases h with
  | intro _ _ _ _ => exact handings_wrote

theorem Forwards.handings {stopped : Bool} {o : FanOut} {r : FanOut ⊕ Nat}
    (h : Forwards b t stopped o m b' r seen) : Broker.handings seen = [] := by
  cases h with
  | exhausts _ _ | passes _ _ _ | reaches _ _ _ | stops _ _ => rfl
  | goesOn _ hsends | delivers _ hsends | fails _ hsends => exact hsends.handings

/-! ### Where the task of a connection stands -/

theorem phase?_eq_some : b.phase? c = some phase ↔ ∃ k, b.conns[c]? = some k ∧ k.phase = phase :=
  Option.map_eq_some_iff

theorem phase?_of_conn (hk : b.conns[c]? = some k) : b.phase? c = some k.phase := by
  rw [phase?, hk]
  rfl

theorem phase?_setPhase (phase : Phase) (hk : b.conns[c]? = some k) :
    (b.setPhase c phase).phase? c = some phase :=
  phase?_of_conn (conns_modifyConn_self hk)

theorem phase?_readOn (hk : b.conns[c]? = some k) :
    (b.readOn c).phase? c = some (.reading b.now) :=
  phase?_of_conn (conns_modifyConn_self hk)

theorem phase?_finish {r : Except Fault Unit} (hk : b.conns[c]? = some k) :
    (b.finish c r).phase? c = some (.closing r) := by
  have hcancel : (b.cancelSession c).conns[c]? = _ := conns_modifySession_self hk
  exact phase?_setPhase _ hcancel

theorem phase?_openSession {v : Version} {p : Connect} (hk : b.conns[c]? = some k) :
    (b.openSession c v p).phase? c =
      some (.replying (.ofPacket c v (.connAck .accepted)) .announce) := by
  have hopen : (b.modifyConn c fun k => { k with session := some (b.newSession v p) }).conns[c]? =
      some { k with session := some (b.newSession v p) } := conns_modifyConn_self hk
  exact phase?_of_conn (conns_modifyConn_self hopen)

theorem phase?_modifyConn_of_same {f : Conn → Conn} (hf : ∀ k, (f k).phase = k.phase) :
    (b.modifyConn d f).phase? c = b.phase? c := by
  rw [phase?, conns_modifyConn, phase?]
  split_ifs
  · rw [Option.map_map]
    congr 1
    funext k
    exact hf k
  · rfl

theorem isForwarding_of_forwarding {p : Publish} {o : FanOut} (hk : b.conns[c]? = some k)
    (hphase : k.phase = .forwarding p o) : b.isForwarding (.conn c) = true := by
  rw [isForwarding, work?_of_phase hk hphase]
  rfl

theorem isForwarding_of_ne (hk : b.conns[c]? = some k) (h : ∀ p o, k.phase ≠ .forwarding p o) :
    b.isForwarding (.conn c) = false := by
  rw [isForwarding, work?_of_phase hk rfl]
  cases hphase : k.phase with
  | forwarding p o => exact absurd hphase (h p o)
  | _ => rfl

theorem ne_forwarding_of_replying {d : Delivery} {after : AfterReply}
    (hphase : k.phase = .replying d after) (p : Publish) (o : FanOut) :
    k.phase ≠ .forwarding p o := by
  rw [hphase]
  rintro ⟨⟩

/-- Where a task stands that has no message to forward. -/
theorem not_busy_of_phase {x : Option Phase} (h : x = some phase) (hbusy : phase.isBusy = false) :
    ∀ φ ∈ x, φ.isBusy = false := by
  subst h
  rintro φ hφ
  cases hφ
  exact hbusy

theorem not_busy_finish {r : Except Fault Unit} (hk : b.conns[c]? = some k) :
    ∀ φ ∈ (b.finish c r).phase? c, φ.isBusy = false :=
  not_busy_of_phase (phase?_finish hk) rfl

theorem not_busy_readOn (hk : b.conns[c]? = some k) :
    ∀ φ ∈ (b.readOn c).phase? c, φ.isBusy = false :=
  not_busy_of_phase (phase?_readOn hk) rfl

/-! ### Where nothing is forwarded -/

theorem takings_of_ne (h : m ≠ .dispatch) : b.takings c m = [] := if_neg h

theorem takings_send : b.takings c (.send m') = [] := takings_of_ne nofun

theorem takings_dispatch (hk : b.conns[c]? = some k) :
    b.takings c .dispatch = (k.message?.map fun (f, p) => .takes c f p).toList := by
  rw [takings, hk, Option.bind_some, if_pos rfl]

theorem reachings_of_ne (hk : b.conns[c]? = some k) (h : ∀ p o, k.phase ≠ .forwarding p o) :
    b.reachings c m = [] := by
  unfold reachings
  rw [phase?_of_conn hk]
  split
  · next hphase => exact absurd (Option.some.inj hphase) (h _ _)
  · rfl

theorem beginnings_of_ne (h : ∀ φ ∈ b'.phase? c, ∀ p o, φ ≠ .forwarding p o) :
    b.beginnings b' c = [] := by
  unfold beginnings
  split
  · rfl
  · next hphase _ => exact absurd rfl (h _ hphase _ _)
  · rfl

theorem beginnings_of_not_busy (h : ∀ φ ∈ b'.phase? c, φ.isBusy = false) :
    b.beginnings b' c = [] :=
  beginnings_of_ne fun φ hφ => Phase.ne_forwarding_of_not_busy (h φ hφ)

theorem beginnings_of_replying {d : Delivery} {after : AfterReply}
    (h : b'.phase? c = some (.replying d after)) : b.beginnings b' c = [] := by
  refine beginnings_of_ne fun φ hφ => ?_
  rw [h] at hφ
  cases hφ
  rintro p o ⟨⟩

theorem beginnings_of_forwarding {p : Publish} {o : FanOut} (hk : b.conns[c]? = some k)
    (hphase : k.phase = .forwarding p o) : b.beginnings b' c = [] := by
  unfold beginnings
  rw [phase?_of_conn hk, hphase]

theorem beginnings_of_begin {p : Publish} {o : FanOut} (hk : b.conns[c]? = some k)
    (hphase : ∀ p o, k.phase ≠ .forwarding p o) (h : b'.phase? c = some (.forwarding p o)) :
    b.beginnings b' c = [.begins c b.registry] := by
  unfold beginnings
  rw [phase?_of_conn hk, h]
  split
  · next heq => exact absurd (Option.some.inj heq) (hphase _ _)
  · rfl
  · next hnone => exact absurd rfl (hnone _ _)

/-- What is noted of a task that forwards no message before it moves. -/
theorem forwardings_of_not_busy (hk : b.conns[c]? = some k) (h : k.phase.isBusy = false) :
    forwardings c (b.deeds (.move (.task (.conn c) m)) b' seen) =
      b.takings c m ++ b.beginnings b' c ++ forwardings c (handings seen) := by
  have hne := Phase.ne_forwarding_of_not_busy h
  rw [forwardings_deeds, forwardings_completions_of_idle (isForwarding_of_ne hk hne),
    reachings_of_ne hk hne, List.append_nil, List.append_nil]

/-- The task has no message to forward before it moves and none after. -/
theorem advances_rests (hk : b.conns[c]? = some k) (h : k.phase.isBusy = false)
    (h' : ∀ φ ∈ b'.phase? c, φ.isBusy = false) (htakes : b.takings c m = [])
    (hseen : handings seen = []) :
    Advances b c (b.phase? c) (forwardings c (b.deeds (.move (.task (.conn c) m)) b' seen))
      (b'.phase? c) := by
  rw [forwardings_of_not_busy hk h, htakes, beginnings_of_not_busy h', hseen]
  exact .rests (not_busy_of_phase (phase?_of_conn hk) h) h'

theorem isSome_session? {s : Session} (hk : b.conns[c]? = some k) (hs : k.session = some s) :
    (b.session? c).isSome = true := by
  rw [session?_eq_some.2 ⟨k, hk, hs⟩]
  rfl

/-! ### A packet that has come -/

/-- The message of a frame is one of those that may be forwarded. -/
theorem message?_eq_some {v : Version} {f f' : Frame} {p : Publish} :
    f.message? v = some (f', p) ↔
      f' = f ∧ Packet.decode v f = .ok (.publish p) ∧ Topic.validate p.topic = .ok () := by
  unfold Frame.message?
  constructor
  · intro h
    split at h
    · next p' hdecode =>
      split_ifs at h with hvalid
      cases h
      refine ⟨rfl, hdecode, ?_⟩
      rcases hv : Topic.validate p.topic with e | ⟨⟩
      · rw [hv] at hvalid
        cases hvalid
      · rfl
    · cases h
  · rintro ⟨rfl, hdecode, hvalid⟩
    rw [hdecode]
    dsimp only
    rw [hvalid]
    rfl

/-- A frame that carries no message. -/
theorem message?_eq_none {v : Version} {f : Frame} {q : Packet} (h : Packet.decode v f = .ok q)
    (hq : ∀ p, q = .publish p → Topic.validate p.topic ≠ .ok ()) : f.message? v = none := by
  rcases hm : f.message? v with _ | ⟨f', p⟩
  · rfl
  · obtain ⟨-, hdecode, hvalid⟩ := message?_eq_some.1 hm
    rw [h] at hdecode
    exact absurd hvalid (hq p (Except.ok.inj hdecode))

/-- What the task of a running session has in front of it. -/
theorem message?_of_next {since : Nat} {s : Session} {f : Frame} {a : Assembler}
    (hphase : k.phase = .reading since) (hs : k.session = some s)
    (hnext : k.assembler.next = .ok (some (f, a))) : k.message? = f.message? s.version := by
  rw [Conn.message?, hphase, hnext, hs]
  rfl

/-- A frame that is handed out has a body that fits. -/
theorem length_body_of_next {f : Frame} {a a' : Assembler} (h : a.next = .ok (some (f, a'))) :
    f.body.length ≤ RemainingLength.limit := by
  obtain ⟨n, hparse, -⟩ := Assembler.next_eq_some h
  exact (Frame.parse_length hparse).2.2

theorem Handles.advances {since : Nat} {s : Session} {f : Frame} {a : Assembler} {p : Packet}
    (hk : b.conns[c]? = some k) (hphase : k.phase = .reading since) (hs : k.session = some s)
    (hnext : k.assembler.next = .ok (some (f, a))) (hdecode : Packet.decode s.version f = .ok p)
    (h : Handles (b.takeFrame c a) c s f p b') :
    Advances b c (b.phase? c) (forwardings c (b.deeds (.move (.task (.conn c) .dispatch)) b' []))
      (b'.phase? c) := by
  have hbusy : k.phase.isBusy = false := by
    rw [hphase]
    rfl
  have htake : (b.takeFrame c a).conns[c]? = some { k with assembler := a } :=
    conns_modifyConn_self hk
  have hmessage := message?_of_next hphase hs hnext
  have hlength := length_body_of_next hnext
  -- The packet is no message, and the task goes on to something else.
  have hrests (hnone : ∀ q, p = .publish q → Topic.validate q.topic ≠ .ok ())
      (h' : ∀ φ ∈ b'.phase? c, φ.isBusy = false) :
      Advances b c (b.phase? c)
        (forwardings c (b.deeds (.move (.task (.conn c) .dispatch)) b' [])) (b'.phase? c) := by
    refine advances_rests hk hbusy h' ?_ rfl
    rw [takings_dispatch hk, hmessage, message?_eq_none hdecode hnone]
    rfl
  have hreply {b₁ : Broker} {k₁ : Conn} {q : Packet} (hk₁ : b₁.conns[c]? = some k₁) :
      ∀ φ ∈ (b₁.reply c s.version q .read).phase? c, φ.isBusy = false :=
    not_busy_of_phase (phase?_setPhase _ hk₁) rfl
  have htakes {q : Publish} (hq : p = .publish q) (hvalid : Topic.validate q.topic = .ok ()) :
      b.takings c .dispatch = [.takes c f q] := by
    subst hq
    rw [takings_dispatch hk, hmessage, message?_eq_some.2 ⟨rfl, hdecode, hvalid⟩]
    rfl
  cases h with
  | unexpected | disconnects => exact hrests (by simp) (not_busy_finish htake)
  | invalid hinvalid =>
    refine hrests (fun q hq => ?_) (not_busy_finish htake)
    cases hq
    rw [hinvalid]
    simp
  | @acknowledges p ack hvalid _ =>
    have hphase' := phase?_setPhase (.replying (.ofPacket c s.version ack) (.forward p f))
      htake
    rw [forwardings_of_not_busy hk hbusy, htakes rfl hvalid, phase?_of_conn hk, reply, hphase',
      beginnings_of_replying hphase']
    exact .takes hbusy hvalid hlength
  | @forwards p hvalid _ =>
    have hphase' := phase?_setPhase (.forwarding p (b.fanOut p.topic f)) htake
    rw [forwardings_of_not_busy hk hbusy, htakes rfl hvalid, phase?_of_conn hk]
    show Advances b c _
      ([.takes c f p] ++ b.beginnings ((b.takeFrame c a).setPhase c
        (.forwarding p (b.fanOut p.topic f))) c ++ [])
      (((b.takeFrame c a).setPhase c (.forwarding p (b.fanOut p.topic f))).phase? c)
    rw [beginnings_of_begin hk (Phase.ne_forwarding_of_not_busy hbusy) hphase', hphase']
    exact .takesOn hbusy hvalid hlength (isSome_session? hk hs)
  | releases | pings => exact hrests (by simp) (hreply htake)
  | subscribes | unsubscribes => exact hrests (by simp) (hreply (conns_modifySession_self htake))
  | ignores hkind =>
    refine hrests (fun q hq => ?_) (not_busy_readOn htake)
    subst hq
    simp [Packet.kind] at hkind

/-! ### A message on its way -/

theorem completions_of_none (h : b.delivery? t = none) : b.completions b' t seen = [] := by
  rw [completions, h]

/-- A task that goes on with its frame has not completed it. -/
theorem completions_of_sending {d d' : Delivery} (h : b.delivery? t = some d)
    (h' : b'.delivery? t = some d') (htarget : d'.target = d.target) :
    b.completions b' t seen = [] := by
  have hsending : (b'.lane d.target).sending t = some (d'.frame, d'.state) := by
    rw [sending_of_delivery h', if_pos htarget]
  rw [completions, h]
  dsimp only
  rw [Lane.completed_of_sending hsending]
  rfl

/-- A task that has written nothing has completed nothing. -/
theorem completions_of_nil (h : ∀ d, streamOf d seen = []) : b.completions b' t seen = [] := by
  unfold completions
  split
  · rw [h, Lane.completed_nil]
    rfl
  · rfl

/-- A frame that is all in the stream is complete. -/
theorem completions_of_delivered {d : Delivery} {b₁ : Broker}
    (hexclusive : (b.lane d.target).Exclusive)
    (hd : b.delivery? t = some d) (hd' : b'.delivery? t = none)
    (h : Sends b t d m' b₁ (.inr (.ok ())) seen) :
    ∃ bs, d.frame = .ok bs ∧
      b.completions b' t seen = [.writes t d.target bs (b.isForwarding t)] := by
  generalize hr : (Sum.inr (.ok ()) : Sending ⊕ Except Fault Unit) = r at h
  cases h with
  | @intro k s sent hk hs _ hmoves =>
    generalize hstate : d.state = state at hmoves
    cases hmoves with
    | @whole left taken p hwrite =>
      have hpushes : (b.lane d.target).Pushes t d.frame left :=
        pushes_iff.2 ⟨d, hd, rfl, rfl, hstate⟩
      obtain ⟨hleft, part, hframe⟩ := hexclusive.part t _ left hpushes
      rw [hframe] at hpushes
      refine ⟨_, hframe, ?_⟩
      rw [completions, hd]
      dsimp only
      rw [streamOf_wrote, if_pos rfl, Lane.completed_of_pushes hpushes (sending_of_none hd')
        (Pipe.taken_ne_nil hwrite hleft)]
      rfl
    | _ => cases hr

/-- Whoever fails to write its frame has not written the rest of it. -/
theorem Sends.streamOf_of_error {d : Delivery} {e : Fault}
    (h : Sends b t d m' b' (.inr (.error e)) seen) (c : ConnId) : streamOf c seen = [] := by
  generalize hr : (Sum.inr (.error e) : Sending ⊕ Except Fault Unit) = r at h
  cases h with
  | intro _ _ _ hmoves =>
    rw [streamOf_wrote]
    generalize d.state = state at hmoves
    cases hmoves with
    | enter | layOut _ _ | part _ _ | whole _ => cases hr
    | fault _ _ | broken _ | giveUpOutside _ | giveUpInLine _ | giveUpPushing _ => exact ite_self _

/-- **Why a frame is not written**: it cannot be laid out, the session that it is for is to end, or
the stream is closed. -/
theorem Sends.cause {d : Delivery} {f : Fault} (h : Sends b t d m' b₁ (.inr (.error f)) seen) :
    ∃ k s, b.conns[d.target]? = some k ∧ k.session = some s ∧
      (d.frame = .error f ∨ f = .cancelled ∧ b.isCancelled s = true ∨
        f = brokenPipe ∧ k.link.down.closed = true ∧ m' = .push ∧
          ∃ left, d.state = .pushing left) := by
  generalize hr : (Sum.inr (.error f) : Sending ⊕ Except Fault Unit) = r at h
  cases h with
  | @intro k s sent hk hs _ hmoves =>
    refine ⟨k, s, hk, hs, ?_⟩
    generalize hstate : d.state = state at hmoves
    cases hmoves with
    | fault _ hframe =>
      cases hr
      exact .inl hframe
    | giveUpOutside hcancelled | giveUpInLine hcancelled | giveUpPushing hcancelled =>
      cases hr
      exact .inr (.inl ⟨rfl, hcancelled⟩)
    | broken hclosed =>
      cases hr
      exact .inr (.inr ⟨rfl, hclosed, rfl, _, rfl⟩)
    | _ => cases hr

/-- In a run in which nothing ends, a frame fails only if it cannot be laid out. -/
theorem Calm.frame_of_fails {d : Delivery} {f : Fault} (hcalm : b.Calm)
    (h : Sends b t d m' b₁ (.inr (.error f)) seen) : d.frame = .error f := by
  obtain ⟨k, s, hk, hs, hframe | ⟨-, hcancelled⟩ | ⟨-, hclosed, -⟩⟩ := h.cause
  · exact hframe
  · rw [hcalm.isCancelled (session?_eq_some.2 ⟨k, hk, hs⟩)] at hcancelled
    cases hcancelled
  · rw [hcalm.stream _ k hk (by rw [hs]; rfl)] at hclosed
    cases hclosed

/-- A task that goes on with a frame looks at nobody. -/
theorem reachings_send : b.reachings c (.send m') = [] := by
  unfold reachings
  split <;> rfl

theorem reachings_reach {p : Publish} {o : FanOut} (hk : b.conns[c]? = some k)
    (hphase : k.phase = .forwarding p o) : b.reachings c .reach =
      o.left.head?.toList.map fun d => .reaches c d (b.isSubscribed d p.topic) := by
  rw [reachings, phase?_of_conn hk, hphase]
  dsimp only
  rw [if_pos rfl]

theorem takings_of_phase (hk : b.conns[c]? = some k) (h : ∀ since, k.phase ≠ .reading since) :
    b.takings c m = [] := by
  unfold takings
  split_ifs
  · have hnone : k.message? = none := by
      unfold Conn.message?
      split
      · next hphase _ => exact absurd hphase (h _)
      · rfl
    rw [hk, Option.bind_some, hnone]
    rfl
  · rfl

/-- What is noted of a task that forwards a message. -/
theorem forwardings_of_forwarding {p : Publish} {o : FanOut} (hk : b.conns[c]? = some k)
    (hphase : k.phase = .forwarding p o) :
    forwardings c (b.deeds (.move (.task (.conn c) m)) b' seen) =
      forwardings c (b.completions b' (.conn c) seen) ++ b.reachings c m ++
        forwardings c (handings seen) := by
  have hne (since : Nat) : k.phase ≠ .reading since := by
    rw [hphase]
    nofun
  rw [forwardings_deeds, takings_of_phase hk hne, beginnings_of_forwarding hk hphase,
    List.nil_append, List.append_nil]

/-- The task goes on to forward its message. -/
theorem Forwards.advances {p : Publish} {o o' : FanOut} {s : Session}
    (hexclusive : ∀ d, (b.lane d).Exclusive) (hcalm : b.Calm) (hk : b.conns[c]? = some k)
    (hphase : k.phase = .forwarding p o)
    (h : Forwards b (.conn c) (b.isCancelled s) o m b₁ (.inl o') seen) :
    Advances b c (b.phase? c)
      (forwardings c (b.deeds (.move (.task (.conn c) m)) (b₁.setPhase c (.forwarding p o')) seen))
      ((b₁.setPhase c (.forwarding p o')).phase? c) := by
  obtain ⟨k₁, hk₁⟩ := h.evolves.exists_conn hk
  have hd : b.delivery? (.conn c) = o.current := by
    rw [delivery?_of_phase hk hphase]
    rfl
  have hd' : (b₁.setPhase c (.forwarding p o')).delivery? (.conn c) = o'.current := by
    have hconn : (b₁.setPhase c (.forwarding p o')).conns[c]? = _ := conns_modifyConn_self hk₁
    rw [delivery?_of_phase hconn rfl]
    rfl
  rw [forwardings_of_forwarding hk hphase, phase?_of_conn hk, hphase, phase?_setPhase _ hk₁,
    h.handings]
  generalize hr : (Sum.inl o' : FanOut ⊕ Nat) = r at h
  cases h with
  -- These end the forwarding, so there is none to go on with.
  | exhausts _ _ | stops _ _ => cases hr
  | passes hcurrent hleft hsub =>
    cases hr
    rw [completions_of_none (hd.trans hcurrent), reachings_reach hk hphase, hleft]
    exact .passes hcurrent hleft hsub
  | reaches hcurrent hleft hsub =>
    cases hr
    rw [completions_of_none (hd.trans hcurrent), reachings_reach hk hphase, hleft]
    exact .reaches hcurrent hleft hsub
  | goesOn hcurrent _ =>
    cases hr
    rw [completions_of_sending (hd.trans hcurrent) hd' rfl, reachings_send]
    exact .goesOn hcurrent
  | delivers hcurrent hsends =>
    cases hr
    -- The last part is pushed in this move: only now is the whole frame noted.
    obtain ⟨bs, hframe, hcompletions⟩ :=
      completions_of_delivered (hexclusive _) (hd.trans hcurrent) hd' hsends
    rw [hcompletions, isForwarding_of_forwarding hk hphase, reachings_send,
      forwardings_singleton rfl]
    exact .delivers hcurrent hframe
  | fails hcurrent hsends =>
    cases hr
    -- Nothing ends in this run, so the frame failed before any byte of it was pushed.
    have hframe := hcalm.frame_of_fails hsends
    rw [completions_of_nil hsends.streamOf_of_error, reachings_send]
    exact .fails hcurrent hframe

/-- The task has forwarded its message. -/
theorem Forwards.advances_of_done {p : Publish} {o : FanOut} {s : Session} {n : Nat}
    (hcalm : b.Calm) (hk : b.conns[c]? = some k) (hphase : k.phase = .forwarding p o)
    (hs : k.session = some s)
    (h : Forwards b (.conn c) (b.isCancelled s) o m b₁ (.inr n) seen) :
    Advances b c (b.phase? c)
      (forwardings c (b.deeds (.move (.task (.conn c) m)) (b₁.readOn c)
        (seen ++ [.message c s.clientId p.message]))) ((b₁.readOn c).phase? c) := by
  obtain ⟨k₁, hk₁⟩ := h.evolves.exists_conn hk
  have hd : b.delivery? (.conn c) = o.current := by
    rw [delivery?_of_phase hk hphase]
    rfl
  rw [forwardings_of_forwarding hk hphase, phase?_of_conn hk, hphase, phase?_readOn hk₁,
    handings_append, h.handings]
  generalize hr : (Sum.inr n : FanOut ⊕ Nat) = r at h
  cases h with
  | exhausts hcurrent hleft =>
    rw [completions_of_none (hd.trans hcurrent), reachings_reach hk hphase, hleft]
    -- The message is handed to the host after the last look.
    show Advances b c _ (forwardings c [.hands c s.clientId p.message]) _
    rw [forwardings_singleton rfl]
    exact .exhausts hcurrent hleft
  | stops _ hstopped =>
    -- A task stops before its list is exhausted only if its token is cancelled.
    rw [hcalm.isCancelled (session?_eq_some.2 ⟨k, hk, hs⟩)] at hstopped
    cases hstopped
  | _ => cases hr

/-! ### The task of a connection -/

/-- The task writes an answer, and goes on with that. -/
theorem Sends.advances {d : Delivery} {after : AfterReply} {s : Sending}
    (hk : b.conns[c]? = some k) (hphase : k.phase = .replying d after)
    (h : Sends b (.conn c) d m' b₁ (.inl s) seen) :
    Advances b c (b.phase? c)
      (forwardings c (b.deeds (.move (.task (.conn c) (.send m')))
        (b₁.setPhase c (.replying { d with state := s } after)) seen))
      ((b₁.setPhase c (.replying { d with state := s } after)).phase? c) := by
  obtain ⟨k₁, hk₁⟩ := h.evolves.exists_conn hk
  have hphase' := phase?_setPhase (.replying { d with state := s } after) hk₁
  have hidle := isForwarding_of_ne hk (ne_forwarding_of_replying hphase)
  rw [forwardings_deeds, takings_send, forwardings_completions_of_idle hidle,
    beginnings_of_replying hphase', reachings_send, h.handings, hphase', phase?_of_conn hk, hphase]
  cases after with
  | announce | read => exact .rests (not_busy_of_phase rfl rfl) (not_busy_of_phase rfl rfl)
  | forward _ _ => exact .answers

/-- The task has written its answer. -/
theorem Sends.advances_of_done {d : Delivery} {after : AfterReply} {s : Session}
    (hk : b.conns[c]? = some k) (hphase : k.phase = .replying d after) (hs : k.session = some s)
    (h : Sends b (.conn c) d m' b₁ (.inr (.ok ())) seen) :
    Advances b c (b.phase? c)
      (forwardings c (b.deeds (.move (.task (.conn c) (.send m'))) (b₁.afterReply c s after).1
        (seen ++ (b₁.afterReply c s after).2)))
      ((b₁.afterReply c s after).1.phase? c) := by
  obtain ⟨k₁, hk₁⟩ := h.evolves.exists_conn hk
  have hidle := isForwarding_of_ne hk (ne_forwarding_of_replying hphase)
  rw [forwardings_deeds, takings_send, forwardings_completions_of_idle hidle,
    reachings_send, handings_append, h.handings]
  -- After a CONNACK and after most other answers the task reads on.
  have hread (hbusy : k.phase.isBusy = false) :
      Advances b c (b.phase? c) (b.beginnings (b₁.readOn c) c) ((b₁.readOn c).phase? c) := by
    rw [beginnings_of_not_busy (not_busy_readOn hk₁)]
    exact .rests (not_busy_of_phase (phase?_of_conn hk) hbusy) (not_busy_readOn hk₁)
  cases after with
  | announce | read =>
    show Advances b c (b.phase? c) ([] ++ b.beginnings (b₁.readOn c) c ++ [] ++ [])
      ((b₁.readOn c).phase? c)
    rw [List.append_nil, List.append_nil]
    exact hread (by rw [hphase]; rfl)
  | forward p f =>
    have hphase' := phase?_setPhase (.forwarding p (b₁.fanOut p.topic f)) hk₁
    -- The list is that of the moment in which the answer was finished, and writing it has not
    -- changed the registry.
    have hfanOut : b₁.fanOut p.topic f = b.fanOut p.topic f := by
      rw [fanOut, fanOut, h.keeps.registry]
    show Advances b c (b.phase? c)
      ([] ++ b.beginnings (b₁.setPhase c (.forwarding p (b₁.fanOut p.topic f))) c ++ [] ++ [])
      ((b₁.setPhase c (.forwarding p (b₁.fanOut p.topic f))).phase? c)
    rw [beginnings_of_begin hk (ne_forwarding_of_replying hphase) hphase', hphase', hfanOut,
      phase?_of_conn hk, hphase]
    exact .answered (isSome_session? hk hs)

theorem Serves.advances (hexclusive : ∀ d, (b.lane d).Exclusive) (hcalm : b.Calm) (hcalm' : b'.Calm)
    (hk : b.conns[c]? = some k) (h : Serves b c k m b' seen) :
    Advances b c (b.phase? c) (forwardings c (b.deeds (.move (.task (.conn c) m)) b' seen))
      (b'.phase? c) := by
  have hbusy {phase : Phase} (hphase : k.phase = phase) (h : phase.isBusy = false) :
      k.phase.isBusy = false := by
    rw [hphase]
    exact h
  have htake {a : Assembler} : (b.takeFrame c a).conns[c]? = some { k with assembler := a } :=
    conns_modifyConn_self hk
  cases h with
  | greets hphase _ _ | reads hphase _ _ _ =>
    exact advances_rests hk (hbusy hphase rfl)
      (not_busy_of_phase (phase?_of_conn (conns_modifyConn_self hk)) (hbusy hphase rfl))
      (takings_of_ne nofun) rfl
  | refuses hphase _ =>
    refine advances_rests hk (hbusy hphase rfl)
      (not_busy_of_phase (phase?_of_conn (conns_modifyConn_self hk)) rfl)
      (takings_of_phase hk fun since h => ?_) rfl
    rw [hphase] at h
    cases h
  | opens hphase _ _ =>
    -- The first frame opens the session: it is a CONNECT, and no message.
    refine advances_rests hk (hbusy hphase rfl) (not_busy_of_phase (phase?_openSession htake) rfl)
      (takings_of_phase hk fun since h => ?_) rfl
    rw [hphase] at h
    cases h
  | handles hphase hs hnext hdecode =>
    exact (handles_handle _).advances hk hphase hs hnext hdecode
  -- In these a session ends, and the broker that is left would not be calm.
  | undecodable _ hs _ _ => exact absurd hcalm' (not_calm_finish htake hs)
  | ends _ hs _ => exact absurd hcalm' (not_calm_finish hk hs)
  | answers hphase _ hsends => exact hsends.advances hk hphase
  | answerFails _ hs hsends =>
    obtain ⟨k₁, hk₁, hevolves⟩ := hsends.evolves.conns c k hk
    obtain ⟨s', hs', -⟩ := hevolves.session _ hs
    exact absurd hcalm' (not_calm_finish hk₁ hs')
  | answered hphase hs hsends => exact hsends.advances_of_done hk hphase hs
  | forwards hphase _ hforwards => exact hforwards.advances hexclusive hcalm hk hphase
  | forwarded hphase hs hforwards => exact hforwards.advances_of_done hcalm hk hphase hs
  | closes hphase _ =>
    refine advances_rests hk (hbusy hphase rfl)
      (not_busy_of_phase (phase?_setPhase _ (conns_modifySession_self hk)) rfl)
      (takings_of_ne nofun) rfl
  | shuts hphase _ _ =>
    exact advances_rests hk (hbusy hphase rfl)
      (not_busy_of_phase (phase?_of_conn (conns_modifyConn_self hk)) rfl) (takings_of_ne nofun) rfl

/-! ### What the others do -/

/-- The task of a connection hands out messages of its own session only. -/
theorem Serves.publisher?_handings (h : Serves b c k m b' seen) {deed : Deed}
    (hdeed : deed ∈ handings seen) : deed.publisher? = some c := by
  have hnone {log : List Deed} (hlog : log = []) (h : deed ∈ log) : deed.publisher? = some c := by
    subst hlog
    cases h
  cases h with
  | answers _ _ hsends | answerFails _ _ hsends => exact hnone hsends.handings hdeed
  | @answered _ after _ _ _ _ _ _ hsends =>
    rw [handings_append, hsends.handings] at hdeed
    cases after <;> exact hnone rfl hdeed
  | forwards _ _ hforwards => exact hnone hforwards.handings hdeed
  | forwarded _ _ hforwards =>
    rw [handings_append, hforwards.handings] at hdeed
    rw [List.mem_singleton.1 hdeed]
    rfl
  | _ => exact hnone rfl hdeed

theorem Calls.handings {n : Nat} {call : HostCall} (h : Calls b n call m b' seen) :
    Broker.handings seen = [] := by
  cases h with
  | publishes hforwards => exact hforwards.handings
  | writes hsends => exact hsends.handings
  | published hforwards =>
    rw [handings_append, hforwards.handings]
    rfl
  | written hsends =>
    rw [handings_append, hsends.handings]
    rfl
  | served _ => rfl

theorem Accepts.handings {i : BrokerInput} (h : Accepts b i b' seen) :
    Broker.handings seen = [] := by
  cases h with
  | declines hdeclines => cases hdeclines <;> rfl
  | _ => rfl

/-- The host is given a message by the task of the session that forwards it. -/
theorem exists_move_of_hands (h : b.next? e = some (b', seen)) {deed : Deed}
    (hdeed : deed ∈ handings seen) (hp : deed.publisher? = some c) :
    ∃ m, e = .move (.task (.conn c) m) := by
  have hnone (hlog : handings seen = []) : ∃ m, e = .move (.task (.conn c) m) := by
    rw [hlog] at hdeed
    cases hdeed
  cases e with
  | input i => exact hnone (accepts_of_next h).handings
  | move a =>
    cases step_cases h with
    | conn _ hserves =>
      obtain rfl := Option.some.inj ((hserves.publisher?_handings hdeed).symm.trans hp)
      exact ⟨_, rfl⟩
    | host _ hcalls => exact hnone hcalls.handings
    | relay _ _ _ _ => cases hdeed

/-- Only its own task is noted as doing something for the message of a session. -/
theorem forwardings_of_others (h : b.next? e = some (b', seen))
    (hne : ∀ m, e ≠ .move (.task (.conn c) m)) : forwardings c (b.deeds e b' seen) = [] := by
  refine forwardings_of_ne fun deed hdeed hp => ?_
  cases notes_of_mem_deeds hdeed with
  | arrives => cases hp
  | takes | begins | reaches =>
    cases hp
    exact hne _ rfl
  | writes _ =>
    obtain ⟨rfl, -⟩ := publisher?_writes hp
    exact hne _ rfl
  | hands hmem =>
    obtain ⟨m, rfl⟩ := exists_move_of_hands h hmem hp
    exact hne m rfl

theorem Spares.phase? (h : b.Spares c b') (hk : b.conns[c]? = some k) :
    b'.phase? c = b.phase? c := by
  obtain ⟨k', hk', hspared⟩ := h k hk
  rw [phase?_of_conn hk', phase?_of_conn hk, hspared.phase]

/-- Only its own task moves on. A connection that is new waits for its first frame. -/
theorem phase?_of_others (h : b.next? e = some (b', seen))
    (hne : ∀ m, e ≠ .move (.task (.conn c) m)) :
    b'.phase? c = b.phase? c ∨ b.phase? c = none ∧ b'.phase? c = some .greeting := by
  rcases hk : b.conns[c]? with _ | k
  · have hnone : b.phase? c = none := by
      rw [phase?, hk]
      rfl
    rcases hk' : b'.conns[c]? with _ | k'
    · refine .inl ?_
      rw [hnone, phase?, hk']
      rfl
    · -- Only an input adds a connection.
      obtain ⟨label, capacity, rfl⟩ := next?_conns_of_none h hk hk'
      exact .inr ⟨hnone, phase?_of_conn hk'⟩
  · cases next?_concerns hk h with
    | peer _ hk' => exact .inl ((phase?_of_conn hk').trans (phase?_of_conn hk).symm)
    | own _ => exact absurd rfl (hne _)
    | others _ _ hspares => exact .inl (hspares.phase? hk)

/-- Others do nothing for the message of a session. -/
theorem advances_of_others (h : b.next? e = some (b', seen))
    (hne : ∀ m, e ≠ .move (.task (.conn c) m)) :
    Advances b c (b.phase? c) (forwardings c (b.deeds e b' seen)) (b'.phase? c) := by
  rw [forwardings_of_others h hne]
  rcases phase?_of_others h hne with hphase | ⟨hnone, hgreeting⟩
  · rw [hphase]
    exact .stays
  · refine .rests (fun φ hφ => ?_) (fun φ hφ => ?_)
    · rw [hnone] at hφ
      cases hφ
    · rw [hgreeting] at hφ
      cases hφ
      rfl

/-- **What an event does for the message that a session forwards.** -/
theorem next?_advances (hexclusive : ∀ d, (b.lane d).Exclusive) (hcalm : b.Calm) (hcalm' : b'.Calm)
    (h : b.next? e = some (b', seen)) (c : ConnId) :
    Advances b c (b.phase? c) (forwardings c (b.deeds e b' seen)) (b'.phase? c) := by
  by_cases hown : ∃ m, e = .move (.task (.conn c) m)
  · obtain ⟨m, rfl⟩ := hown
    cases steps_of_next h with
    | conn hk hserves => exact hserves.advances hexclusive hcalm hcalm' hk
  · exact advances_of_others h fun m heq => hown ⟨m, heq⟩

/-! ### Every run -/

theorem exclusive_start (maxPacketSize now : Nat) :
    ((start maxPacketSize now).lane c).Exclusive := by
  have hnone (t : Task) : ((start maxPacketSize now).lane c).sending t = none := by
    cases t <;> rfl
  refine ⟨fun t _ _ hp => ?_, fun t _ _ hp => ?_, fun t _ _ hp => ?_⟩
  · rw [Lane.Pushes, hnone] at hp
    cases hp
  · rw [Lane.Pushes, hnone] at hp
    cases hp
  · rw [hnone] at hp
    cases hp

/-- In every run the frames of a stream are pushed one at a time. -/
theorem exclusive_of_replay {maxPacketSize now : Nat} {es : List Event}
    (h : (start maxPacketSize now).replay es = some (b, seen)) :
    b.Wired ∧ ∀ c, (b.lane c).Exclusive := by
  refine replay_induction (P := fun _ b _ => b.Wired ∧ ∀ c, (b.lane c).Exclusive)
    ⟨wired_start _ _, fun _ => exclusive_start _ _⟩ ?_ h
  rintro es e b₁ seen₁ b₂ more - hnext ⟨hw, hexclusive⟩
  -- An event is a step at every lane, if only one that leaves it alone.
  refine ⟨hw.next hnext, fun c => ?_⟩
  obtain ⟨t, lm, p, cancelled, hstep, -, -⟩ := next?_stepsAt hw hnext c
  exact (hexclusive c).step hstep

end Broker
end Mqtt
