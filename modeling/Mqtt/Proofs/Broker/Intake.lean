import Mqtt.Proofs.Broker.Conns
import Mqtt.Proofs.Broker.Filters
import Mqtt.Proofs.Frame.Assembler
/-!
# What a connection takes in

The bytes that have come over a connection and have not been handled (`Conn.rest`) are handled frame
by frame, by the task of the connection and by nobody else. `next?_concerns` says of every event
whose doing it is: the peer's, the task's, or that of others, who spare the connection.
`next?_digests` says of every event that is not the peer's what it does to the bytes and to the
filters of the session: nothing, or the frame in front is taken and the packet that it carries is
served, or the connection ends.
-/

namespace Mqtt

/-- The connection whose peer acts in an event. -/
def Broker.Event.peer? : Event → Option ConnId
  | input i => i.peer?
  | move _ => none

namespace Conn

variable {k k' k'' : Conn}

/-- What has come from the peer and has not been handled. -/
def rest (k : Conn) : Bytes := k.assembler.rest ++ k.link.up.unread.toList

/-- The filters of the session. There are none before it is open. -/
def filters (k : Conn) : FilterIndex := (k.session.map Session.filters).getD .empty

/-- The packet that the task of a connection takes next, if it can be served. -/
def taken? (k : Conn) : Option Packet :=
  match k.phase, k.assembler.next with
  | .greeting, .ok (some (f, _)) => (Broker.greet f).toOption.map fun r => .connect r.2
  | .reading _, .ok (some (f, _)) =>
    k.session.bind fun s => (Packet.decode s.version f).toOption
  | _, _ => none

/-- The task waits for a frame. -/
def Waits (k : Conn) : Prop := k.phase = .greeting ∨ ∃ since, k.phase = .reading since

/-- A task that waits for a frame has put the last one away. -/
def Steady (k : Conn) : Prop := k.Waits → k.assembler.pending = 0

/-- Nothing more is taken from the peer. -/
def Ended (k : Conn) : Prop :=
  k.link.up.closed = true ∨ ∃ s, k.session = some s ∧ s.cancelled = true

/-- What others than its own task and its peer leave alone of a connection. -/
structure Spared (k k' : Conn) : Prop where
  assembler : k'.assembler = k.assembler
  up : k'.link.up = k.link.up
  phase : k'.phase = k.phase
  filters : k'.filters = k.filters

/-- What becomes of the bytes that have come and of the filters of the session, with the packets
that are served. -/
inductive Digests (k k' : Conn) : List Packet → Prop
  /-- Nothing. -/
  | rests : k'.rest = k.rest → k'.filters = k.filters → Digests k k' []
  /-- The frame in front is taken, and its packet served. -/
  | serves {v : Version} {f : Frame} {n : Nat} {p : Packet} :
    Frame.parse k.rest = .ok (some (f, n)) → Packet.decode v f = .ok p →
    k'.rest = k.rest.drop n → k'.filters = k.filters.serve p → Digests k k' [p]
  | ends {served : List Packet} : k'.Ended → Digests k k' served

theorem Spared.refl (k : Conn) : k.Spared k := ⟨rfl, rfl, rfl, rfl⟩

theorem Spared.trans (h : k.Spared k') (h' : k'.Spared k'') : k.Spared k'' where
  assembler := h'.assembler.trans h.assembler
  up := h'.up.trans h.up
  phase := h'.phase.trans h.phase
  filters := h'.filters.trans h.filters

/-- A session that keeps its filters. -/
theorem filters_map {f : Session → Session} (hf : ∀ s, (f s).filters = s.filters)
    (h : k'.session = k.session.map f) : k'.filters = k.filters := by
  rw [filters, filters, h, Option.map_map]
  congr 2
  funext s
  exact hf s

theorem Spared.rest (h : k.Spared k') : k'.rest = k.rest := by
  rw [Conn.rest, Conn.rest, h.assembler, h.up]

theorem Spared.steady (h : k.Spared k') (hs : k.Steady) : k'.Steady := by
  rw [Steady, Waits, h.phase, h.assembler]
  exact hs

theorem Spared.digests (h : k.Spared k') : k.Digests k' [] := .rests h.rest h.filters

/-- A task that does not wait for a frame takes none. -/
theorem taken?_eq_none (h : ¬k.Waits) : k.taken? = none := by
  unfold taken?
  split
  · next hphase _ => exact absurd (.inl hphase) h
  · next hphase _ => exact absurd (.inr ⟨_, hphase⟩) h
  · rfl

/-- The first frame is handed out as the CONNECT it is. -/
theorem taken?_of_greet {f : Frame} {a : Assembler} {v : Version} {p : Connect}
    (hphase : k.phase = .greeting) (hnext : k.assembler.next = .ok (some (f, a)))
    (hgreet : Broker.greet f = .ok (v, p)) : k.taken? = some (.connect p) := by
  rw [taken?, hphase, hnext]
  simp only [hgreet]
  rfl

/-- A later frame is handed out as a packet of the version of the session. -/
theorem taken?_of_decode {f : Frame} {a : Assembler} {since : Nat} {s : Session} {p : Packet}
    (hphase : k.phase = .reading since) (hnext : k.assembler.next = .ok (some (f, a)))
    (hsession : k.session = some s) (hdecode : Packet.decode s.version f = .ok p) :
    k.taken? = some p := by
  rw [taken?, hphase, hnext, hsession]
  simp only [Option.bind_some, hdecode]
  rfl

/-- The frame that is handed out is the one in front. -/
theorem parse_rest {f : Frame} {a : Assembler} (hs : k.assembler.pending = 0)
    (h : k.assembler.next = .ok (some (f, a))) :
    ∃ n, Frame.parse k.rest = .ok (some (f, n)) ∧
      ({ k with assembler := a } : Conn).rest = k.rest.drop n := by
  obtain ⟨n, hparse, rfl⟩ := Assembler.next_eq_some h
  have hrest : k.assembler.rest = k.assembler.buffer.toList := by
    rw [Assembler.rest, hs, List.drop_zero]
  refine ⟨n, ?_, ?_⟩
  · rw [rest, hrest]
    exact Frame.parse_append hparse _
  · rw [rest, rest, hrest, List.drop_append_of_le_length (Frame.parse_length hparse).2.1]
    rfl

end Conn

namespace Broker

variable {b b' b'' : Broker} {c c' : ConnId} {t : Task} {k : Conn}

/-- Others than its own task and its peer have acted on a connection. -/
def Spares (b : Broker) (c : ConnId) (b' : Broker) : Prop :=
  ∀ k, b.conns[c]? = some k → ∃ k', b'.conns[c]? = some k' ∧ k.Spared k'

/-- The packets that a connection is served in an event; there is one at most. -/
def served (b : Broker) (c : ConnId) : Event → List Packet
  | .move (.task (.conn c') .dispatch) =>
    if c' = c then (b.conns[c]?.bind Conn.taken?).toList else []
  | _ => []

theorem served_of_ne {e : Event} (h : ∀ m, e ≠ .move (.task (.conn c) m)) : b.served c e = [] := by
  unfold served
  split
  · refine if_neg ?_
    rintro rfl
    exact h _ rfl
  · rfl

/-! ### What the others do -/

theorem Spares.trans (h : b.Spares c b') (h' : b'.Spares c b'') : b.Spares c b'' := by
  intro k hk
  obtain ⟨k', hk', hspared⟩ := h k hk
  obtain ⟨k'', hk'', hspared'⟩ := h' k' hk'
  exact ⟨k'', hk'', hspared.trans hspared'⟩

theorem spares_of_conns_eq (h : b'.conns = b.conns) : b.Spares c b' :=
  fun k hk => ⟨k, by rw [h, hk], .refl k⟩

theorem spares_modifyConn {f : Conn → Conn} (hf : c = c' → ∀ k : Conn, k.Spared (f k)) :
    b.Spares c (b.modifyConn c' f) := by
  intro k hk
  rw [conns_modifyConn]
  by_cases h : c = c'
  · rw [if_pos h, hk]
    exact ⟨f k, rfl, hf h k⟩
  · rw [if_neg h]
    exact ⟨k, hk, .refl k⟩

/-- What is done to another connection. -/
theorem spares_modifyConn_of_ne {f : Conn → Conn} (h : c ≠ c') :
    b.Spares c (b.modifyConn c' f) :=
  spares_modifyConn fun heq => absurd heq h

theorem spares_modifySession {f : Session → Session} (hf : ∀ s, (f s).filters = s.filters) :
    b.Spares c (b.modifySession c' f) :=
  spares_modifyConn fun _ _ => ⟨rfl, rfl, rfl, Conn.filters_map hf rfl⟩

theorem spares_cancelSession : b.Spares c (b.cancelSession c') :=
  spares_modifySession fun _ => rfl

theorem Sends.spares {d : Delivery} {m : SendMove} {r : Sending ⊕ Except Fault Unit}
    {seen : List Observation} (h : Sends b t d m b' r seen) : b.Spares c b' := by
  cases h with
  | @intro _ _ sent _ _ _ _ =>
    refine spares_modifyConn fun _ _ => ⟨rfl, rfl, rfl, ?_⟩
    exact Conn.filters_map (f := fun s => { s with turnstile := sent.outlet.turnstile })
      (fun _ => rfl) rfl

theorem Forwards.spares {stopped : Bool} {o : FanOut} {m : Move} {r : FanOut ⊕ Nat}
    {seen : List Observation} (h : Forwards b t stopped o m b' r seen) : b.Spares c b' := by
  cases h with
  | exhausts _ _ | passes _ _ _ | reaches _ _ _ => exact spares_of_conns_eq rfl
  | goesOn _ hsends | delivers _ hsends => exact hsends.spares
  | fails _ hsends =>
    split_ifs
    · exact hsends.spares
    · exact hsends.spares.trans spares_cancelSession
  | stops _ _ => exact spares_modifySession fun _ => rfl

theorem spares_finish {r : Except Fault Unit} (h : c ≠ c') : b.Spares c (b.finish c' r) :=
  (spares_cancelSession.trans (spares_modifyConn_of_ne h)).trans (spares_of_conns_eq rfl)

theorem Handles.spares {s : Session} {f : Frame} {p : Packet} (h : Handles b c' s f p b')
    (hne : c ≠ c') : b.Spares c b' := by
  cases h with
  | unexpected | invalid _ | disconnects => exact spares_finish hne
  | acknowledges _ _ | forwards _ _ | releases | pings | ignores _ =>
    exact spares_modifyConn_of_ne hne
  | subscribes | unsubscribes =>
    exact (spares_modifyConn_of_ne hne).trans (spares_modifyConn_of_ne hne)

/-- The task of another connection moves. -/
theorem Serves.spares {m : Move} {seen : List Observation} (h : Serves b c' k m b' seen)
    (hne : c ≠ c') : b.Spares c b' := by
  have hconn {b : Broker} {f : Conn → Conn} : b.Spares c (b.modifyConn c' f) :=
    spares_modifyConn_of_ne hne
  cases h with
  | greets _ _ _ | reads _ _ _ _ | refuses _ _ | shuts _ _ _ => exact hconn
  | opens _ _ _ => exact ((hconn.trans hconn).trans (spares_of_conns_eq rfl)).trans hconn
  | handles _ _ _ _ => exact hconn.trans ((handles_handle _).spares hne)
  | undecodable _ _ _ _ => exact hconn.trans (spares_finish hne)
  | ends _ _ _ => exact spares_finish hne
  | answers _ _ hsends => exact hsends.spares.trans hconn
  | answerFails _ _ hsends => exact hsends.spares.trans (spares_finish hne)
  | @answered _ after _ _ _ _ _ _ hsends =>
    refine hsends.spares.trans ?_
    cases after <;> exact hconn
  | forwards _ _ hforwards | forwarded _ _ hforwards => exact hforwards.spares.trans hconn
  | closes _ _ => exact hconn.trans hconn

theorem Calls.spares {n : Nat} {call : HostCall} {m : Move} {seen : List Observation}
    (h : Calls b n call m b' seen) : b.Spares c b' := by
  cases h with
  | publishes hforwards | published hforwards =>
    exact hforwards.spares.trans (spares_of_conns_eq rfl)
  | writes hsends | written hsends => exact hsends.spares.trans (spares_of_conns_eq rfl)
  | served _ => exact spares_of_conns_eq rfl

theorem Accepts.spares {i : BrokerInput} {seen : List Observation} (h : Accepts b i b' seen)
    (hpeer : i.peer? ≠ some c) : b.Spares c b' := by
  cases h with
  | opens =>
    intro k hk
    have hlt : c < b.conns.length := (List.getElem?_eq_some_iff.1 hk).1
    refine ⟨k, ?_, .refl k⟩
    rw [addConn, List.getElem?_append_left hlt, hk]
  | links hi _ _ =>
    refine spares_modifyConn_of_ne ?_
    rintro rfl
    exact hpeer hi
  | cancels => exact spares_modifyConn fun _ _ => ⟨rfl, rfl, rfl, rfl⟩
  | closes => exact spares_cancelSession
  | shutsDown | elapses | begins _ | serves _ | declines _ => exact spares_of_conns_eq rfl

/-- What a peer does changes the link to it and no more. -/
theorem Accepts.exists_link {i : BrokerInput} {seen : List Observation} (h : Accepts b i b' seen)
    (hi : i.peer? = some c) (hk : b.conns[c]? = some k) :
    ∃ l, b'.conns[c]? = some { k with link := l } := by
  cases h with
  | links hpeer _ _ =>
    obtain rfl := Option.some.inj (hi.symm.trans hpeer)
    exact ⟨_, conns_modifyConn_self hk⟩
  | begins hrequests => cases hrequests <;> cases hi
  | declines hdeclines => cases hdeclines <;> cases hi
  | _ => cases hi

/-! ### What its own task does -/

theorem exists_finish {r : Except Fault Unit} (hk : b.conns[c]? = some k)
    (hs : k.session.isSome) :
    ∃ k', (b.finish c r).conns[c]? = some k' ∧ k'.Steady ∧ k'.Ended := by
  obtain ⟨s, hs⟩ := Option.isSome_iff_exists.1 hs
  have hcancel : (b.cancelSession c).conns[c]? = _ := conns_modifySession_self hk
  refine ⟨_, conns_modifyConn_self hcancel, ?_, .inr ⟨_, congrArg (Option.map _) hs, rfl⟩⟩
  rintro (hp | ⟨since, hp⟩) <;> cases hp

/-- The task puts the last frame away, and waits. -/
theorem exists_readOn (hk : b.conns[c]? = some k) :
    ∃ k', (b.readOn c).conns[c]? = some k' ∧ k'.Steady ∧ k'.rest = k.rest ∧
      k'.filters = k.filters := by
  refine ⟨_, conns_modifyConn_self hk, fun _ => rfl, ?_, rfl⟩
  exact congrArg (· ++ k.link.up.unread.toList) Assembler.rest_retire

/-- The task goes on to something else than waiting. -/
theorem exists_setPhase (phase : Phase) (hk : b.conns[c]? = some k)
    (hphase : ¬({ k with phase := phase } : Conn).Waits) :
    ∃ k', (b.setPhase c phase).conns[c]? = some k' ∧ k'.Steady ∧ k'.rest = k.rest ∧
      k'.filters = k.filters :=
  ⟨_, conns_modifyConn_self hk, fun hw => absurd hw hphase, rfl, rfl⟩

theorem not_waits_replying {d : Delivery} {after : AfterReply} :
    ¬({ k with phase := .replying d after } : Conn).Waits := by
  rintro (hp | ⟨since, hp⟩) <;> cases hp

theorem not_waits_forwarding {p : Publish} {o : FanOut} :
    ¬({ k with phase := .forwarding p o } : Conn).Waits := by
  rintro (hp | ⟨since, hp⟩) <;> cases hp

theorem exists_afterReply {s : Session} {after : AfterReply} (hk : b.conns[c]? = some k) :
    ∃ k', (b.afterReply c s after).1.conns[c]? = some k' ∧ k'.Steady ∧ k'.rest = k.rest ∧
      k'.filters = k.filters := by
  cases after with
  | announce | read => exact exists_readOn hk
  | forward p f => exact exists_setPhase _ hk not_waits_forwarding

/-- The task opens a session, and no filter is active in it yet. -/
theorem exists_openSession {v : Version} {p : Connect} (hk : b.conns[c]? = some k)
    (hs : k.session = none) :
    ∃ k', (b.openSession c v p).conns[c]? = some k' ∧ k'.Steady ∧ k'.rest = k.rest ∧
      k'.filters = k.filters.serve (.connect p) := by
  have hopen := conns_modifyConn_self
    (f := fun k' => { k' with session := some (b.newSession v p) }) hk
  obtain ⟨k', hk', hsteady, hrest, hfilters⟩ := exists_setPhase
    (.replying (.ofPacket c v (.connAck .accepted)) .announce) hopen not_waits_replying
  refine ⟨k', hk', hsteady, hrest, ?_⟩
  rw [hfilters, Conn.filters, Conn.filters, hs]
  rfl

/-- The task serves a packet, or the session ends. -/
theorem Handles.exists_serve {s : Session} {f : Frame} {p : Packet} (h : Handles b c s f p b')
    (hk : b.conns[c]? = some k) (hs : k.session = some s) :
    ∃ k', b'.conns[c]? = some k' ∧ k'.Steady ∧
      (k'.Ended ∨ k'.rest = k.rest ∧ k'.filters = k.filters.serve p) := by
  have hfinish {r : Except Fault Unit} :
      ∃ k', (b.finish c r).conns[c]? = some k' ∧ k'.Steady ∧
        (k'.Ended ∨ k'.rest = k.rest ∧ k'.filters = k.filters.serve p) := by
    obtain ⟨k', hk', hsteady, hended⟩ := exists_finish hk (by rw [hs]; rfl)
    exact ⟨k', hk', hsteady, .inl hended⟩
  -- A packet that leaves the filters alone, or one for which they have been changed before.
  have hreply {b₁ : Broker} {k₁ : Conn} {v : Version} {q : Packet} {after : AfterReply}
      (hk₁ : b₁.conns[c]? = some k₁) (hrest : k₁.rest = k.rest)
      (hfilters : k₁.filters = k.filters.serve p) :
      ∃ k', (b₁.reply c v q after).conns[c]? = some k' ∧ k'.Steady ∧
        (k'.Ended ∨ k'.rest = k.rest ∧ k'.filters = k.filters.serve p) := by
    obtain ⟨k', hk', hsteady, hrest', hfilters'⟩ := exists_setPhase _ hk₁ not_waits_replying
    exact ⟨k', hk', hsteady, .inr ⟨hrest'.trans hrest, hfilters'.trans hfilters⟩⟩
  have hsession : k.filters = s.filters := by
    rw [Conn.filters, hs]
    rfl
  cases h with
  | unexpected | invalid _ | disconnects => exact hfinish
  | acknowledges _ _ | releases | pings => exact hreply hk rfl rfl
  | forwards _ _ =>
    obtain ⟨k', hk', hsteady, hrest, hfilters⟩ := exists_setPhase _ hk not_waits_forwarding
    exact ⟨k', hk', hsteady, .inr ⟨hrest, hfilters⟩⟩
  | subscribes | unsubscribes =>
    refine hreply (conns_modifySession_self hk) rfl ?_
    rw [hsession, Conn.filters, hs]
    rfl
  | ignores hkind =>
    obtain ⟨k', hk', hsteady, hrest, hfilters⟩ := exists_readOn hk
    refine ⟨k', hk', hsteady, .inr ⟨hrest, hfilters.trans ?_⟩⟩
    -- The two kinds that change filters are not ignored.
    cases p with
    | subscribe _ _ | unsubscribe _ _ => simp [Packet.kind] at hkind
    | _ => rfl

/-- Whoever is greeted has sent a CONNECT. -/
theorem decode_of_greet {f : Frame} {v : Version} {p : Connect} (h : greet f = .ok (v, p)) :
    Packet.decode v f = .ok (.connect p) := by
  rw [greet] at h
  rcases hv : f.version with e | v'
  · rw [hv] at h
    cases h
  · rcases hp : Packet.decode v' f with e | q
    · simp only [bind, Except.bind, hv, hp] at h
      cases h
    · simp only [bind, Except.bind, hv, hp] at h
      cases q with
      | connect _ =>
        cases h
        exact hp
      | _ => cases h

/-- The task takes bytes. -/
theorem exists_takeBytes {bs : Bytes} {up : Pipe} {n : Nat} (hk : b.conns[c]? = some k)
    (hpending : k.assembler.pending = 0) (hread : k.link.up.read n = .got bs up) :
    ∃ k', (b.takeBytes c bs up).conns[c]? = some k' ∧ k'.Steady ∧ k.Digests k' [] := by
  refine ⟨_, conns_modifyConn_self hk, fun _ => hpending, .rests ?_ rfl⟩
  show (k.assembler.receive bs).rest ++ up.unread.toList = k.assembler.rest ++ _
  rw [Assembler.rest_receive hpending, List.append_assoc, Pipe.unread_of_read hread]

/-- **What the task of a connection does with what has come.** -/
theorem Serves.digests {m : Move} {seen : List Observation} (hg : b.Greets)
    (hk : b.conns[c]? = some k) (hs : k.Steady) (h : Serves b c k m b' seen) :
    ∃ k', b'.conns[c]? = some k' ∧ k'.Steady ∧
      k.Digests k' (if m = .dispatch then k.taken?.toList else []) := by
  -- The session ends.
  have hfinish {b : Broker} {k₁ : Conn} {r : Except Fault Unit} {served : List Packet}
      (hk : b.conns[c]? = some k₁) (hsome : k₁.session.isSome) :
      ∃ k', (b.finish c r).conns[c]? = some k' ∧ k'.Steady ∧ k.Digests k' served := by
    obtain ⟨k', hk', hsteady, hended⟩ := exists_finish hk hsome
    exact ⟨k', hk', hsteady, .ends hended⟩
  -- The task does not wait for a frame, and takes none.
  have hnone {phase : Phase} (hphase : k.phase = phase)
      (hwaits : ¬({ k with phase := phase } : Conn).Waits) :
      (if m = .dispatch then k.taken?.toList else []) = [] := by
    rw [Conn.taken?_eq_none, Option.toList_none, ite_self]
    subst hphase
    exact hwaits
  have hrests {b' : Broker} {k₁ : Conn} (hspared : k.Spared k₁)
      (h : ∃ k', b'.conns[c]? = some k' ∧ k'.Steady ∧ k'.rest = k₁.rest ∧
        k'.filters = k₁.filters) :
      ∃ k', b'.conns[c]? = some k' ∧ k'.Steady ∧ k.Digests k' [] := by
    obtain ⟨k', hk', hsteady, hrest, hfilters⟩ := h
    exact ⟨k', hk', hsteady, .rests (hrest.trans hspared.rest) (hfilters.trans hspared.filters)⟩
  have htake {a : Assembler} : (b.takeFrame c a).conns[c]? = some { k with assembler := a } :=
    conns_modifyConn_self hk
  cases h with
  | greets hphase _ hread => exact exists_takeBytes hk (hs (.inl hphase)) hread
  | reads hphase _ _ hread => exact exists_takeBytes hk (hs (.inr ⟨_, hphase⟩)) hread
  | refuses _ _ =>
    refine ⟨_, conns_modifyConn_self hk, ?_, .ends (.inl rfl)⟩
    rintro (hp | ⟨since, hp⟩) <;> cases hp
  | @opens f a v p hphase hnext hgreet =>
    obtain ⟨n, hparse, hrest⟩ := Conn.parse_rest (hs (.inl hphase)) hnext
    -- The first frame is served when the session opens.
    obtain ⟨k', hk', hsteady, hrest', hfilters⟩ :=
      exists_openSession (v := v) (p := p) (htake (a := a)) (hg c k hk hphase)
    refine ⟨k', hk', hsteady, ?_⟩
    rw [if_pos rfl, Conn.taken?_of_greet hphase hnext hgreet]
    exact .serves hparse (decode_of_greet hgreet) (hrest'.trans hrest) hfilters
  | @handles since s f a p hphase hsession hnext hdecode =>
    obtain ⟨n, hparse, hrest⟩ := Conn.parse_rest (hs (.inr ⟨_, hphase⟩)) hnext
    have hhandles : Handles (b.takeFrame c a) c s f p _ := handles_handle p
    obtain ⟨k', hk', hsteady, hended | ⟨hrest', hfilters⟩⟩ := hhandles.exists_serve htake hsession
    · exact ⟨k', hk', hsteady, .ends hended⟩
    · refine ⟨k', hk', hsteady, ?_⟩
      rw [if_pos rfl, Conn.taken?_of_decode hphase hnext hsession hdecode]
      exact .serves hparse hdecode (hrest'.trans hrest) hfilters
  | undecodable _ hsession _ _ => exact hfinish htake (Option.isSome_of_eq_some hsession)
  | ends _ hsession _ => exact hfinish hk (Option.isSome_of_eq_some hsession)
  | answers hphase _ hsends =>
    rw [hnone hphase not_waits_replying]
    obtain ⟨k₁, hk₁, hspared⟩ := hsends.spares k hk
    exact hrests hspared (exists_setPhase _ hk₁ not_waits_replying)
  | answerFails _ hsession hsends =>
    obtain ⟨k₁, hk₁, hevolves⟩ := hsends.evolves.conns c k hk
    obtain ⟨s', hs', -⟩ := hevolves.session _ hsession
    exact hfinish hk₁ (Option.isSome_of_eq_some hs')
  | answered hphase _ hsends =>
    rw [hnone hphase not_waits_replying]
    obtain ⟨k₁, hk₁, hspared⟩ := hsends.spares k hk
    exact hrests hspared (exists_afterReply hk₁)
  | forwards hphase _ hforwards =>
    rw [hnone hphase not_waits_forwarding]
    obtain ⟨k₁, hk₁, hspared⟩ := hforwards.spares k hk
    exact hrests hspared (exists_setPhase _ hk₁ not_waits_forwarding)
  | forwarded hphase _ hforwards =>
    rw [hnone hphase not_waits_forwarding]
    obtain ⟨k₁, hk₁, hspared⟩ := hforwards.spares k hk
    exact hrests hspared (exists_readOn hk₁)
  | closes hphase _ =>
    have hspares : b.Spares c (b.modifySession c fun s =>
        { s with turnstile := s.turnstile.enter (.conn c) }) := spares_modifySession fun _ => rfl
    obtain ⟨k₁, hk₁, hspared⟩ := hspares k hk
    refine hrests hspared (exists_setPhase _ hk₁ ?_)
    rintro (hp | ⟨since, hp⟩) <;> cases hp
  | shuts _ _ _ =>
    refine ⟨_, conns_modifyConn_self hk, ?_, .rests rfl ?_⟩
    · rintro (hp | ⟨since, hp⟩) <;> cases hp
    · exact Conn.filters_map (f := fun s => { s with turnstile := s.turnstile.leave (.conn c) })
        (fun _ => rfl) rfl

/-! ### Every event -/

/-- Whose doing an event is, seen from a connection. -/
inductive Concerns (b b' : Broker) (c : ConnId) (k : Conn) (seen : List Observation) :
    Event → Prop
  | peer {i : BrokerInput} {l : Link} : i.peer? = some c →
    b'.conns[c]? = some { k with link := l } → Concerns b b' c k seen (.input i)
  | own {m : Move} : Serves b c k m b' seen → Concerns b b' c k seen (.move (.task (.conn c) m))
  | others {e : Event} : e.peer? ≠ some c → (∀ m, e ≠ .move (.task (.conn c) m)) →
    b.Spares c b' → Concerns b b' c k seen e

theorem next?_concerns {e : Event} {seen : List Observation} (hk : b.conns[c]? = some k)
    (h : b.next? e = some (b', seen)) : Concerns b b' c k seen e := by
  cases e with
  | input i =>
    by_cases hi : i.peer? = some c
    · obtain ⟨l, hl⟩ := (accepts_of_next h).exists_link hi hk
      exact .peer hi hl
    · exact .others hi nofun ((accepts_of_next h).spares hi)
  | move a =>
    cases step_cases h with
    | @conn c' k₁ m _ _ hk₁ hserves =>
      by_cases hc : c' = c
      · subst hc
        obtain rfl := Option.some.inj (hk.symm.trans hk₁)
        exact .own hserves
      · refine .others nofun (fun m' heq => hc ?_) (hserves.spares (Ne.symm hc))
        cases heq
        rfl
    | host _ hcalls => exact .others nofun nofun hcalls.spares
    | relay _ _ _ _ => exact .others nofun nofun spares_cancelSession

/-- **What every event but those of the peer does with what has come.** -/
theorem next?_digests {e : Event} {seen : List Observation} (hg : b.Greets)
    (hk : b.conns[c]? = some k) (hs : k.Steady)
    (hpeer : e.peer? ≠ some c) (h : b.next? e = some (b', seen)) :
    ∃ k', b'.conns[c]? = some k' ∧ k'.Steady ∧ k.Digests k' (b.served c e) := by
  cases next?_concerns hk h with
  | peer hi _ => exact absurd hi hpeer
  | @own m hserves =>
    have hserved : b.served c (.move (.task (.conn c) m)) =
        if m = .dispatch then k.taken?.toList else [] := by
      cases m <;> simp [served, hk]
    rw [hserved]
    exact hserves.digests hg hk hs
  | others _ hne hspares =>
    obtain ⟨k', hk', hspared⟩ := hspares k hk
    rw [served_of_ne hne]
    exact ⟨k', hk', hspared.steady hs, hspared.digests⟩

end Broker
end Mqtt
