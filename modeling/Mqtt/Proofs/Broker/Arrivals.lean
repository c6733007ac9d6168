import Mqtt.Proofs.Broker.Advances
/-!
# Messages in the order in which they came

Whatever happens, the task of a connection takes the frames in what has come from its peer one after
the other, in the order of `Frame.split`, and leaves out none. So the messages that a session has
taken are those in some frames from the front of all the bytes that have ever come
(`inOrder_of_replay`).
-/

namespace Mqtt

namespace Conn

variable {k k' k'' : Conn} {limit n : Nat} {bytes bs : Bytes} {f : Frame} {s : Session}
  {messages ms : List (Frame × Publish)}

/-- What has come and has not been handled stays. -/
structure Holds (k k' : Conn) : Prop where
  limit : k'.assembler.limit = k.assembler.limit
  rest : k'.rest = k.rest
  session : k.session = none → k'.session = none

/-- What the task of a connection does with what has come, and the messages that it takes. -/
inductive Uses (k k' : Conn) : List (Frame × Publish) → Prop
  /-- It leaves it alone. -/
  | holds : k.Holds k' → Uses k k' []
  /-- It takes the frame in front to open a session. -/
  | opens {f : Frame} {n : Nat} {s : Session} : k.session = none →
    Frame.look k.assembler.limit k.rest = .ok (some (f, n)) → k'.rest = k.rest.drop n →
    k'.assembler.limit = k.assembler.limit → k'.session = some s → f.message? s.version = none →
    Uses k k' []
  /-- It takes the frame in front for its session. -/
  | takes {f : Frame} {n : Nat} {s : Session} : k.session = some s →
    Frame.look k.assembler.limit k.rest = .ok (some (f, n)) → k'.rest = k.rest.drop n →
    k'.assembler.limit = k.assembler.limit → Uses k k' (f.message? s.version).toList

/-- What has become of the bytes that have come over a connection: some frames from the front have
been taken, and the session has taken the messages in them. -/
structure Fed (max : Nat) (bytes : Bytes) (messages : List (Frame × Publish)) (k : Conn) : Prop
    where
  limit : k.assembler.limit = max
  steady : k.Steady
  taken : ∃ front frames, bytes = front ++ k.rest ∧ Frame.split max front = (frames, []) ∧
    (k.session = none → frames = [] ∧ messages = []) ∧
    ∀ s, k.session = some s → messages = frames.filterMap (Frame.message? s.version)

theorem Holds.trans (h : k.Holds k') (h' : k'.Holds k'') : k.Holds k'' where
  limit := h'.limit.trans h.limit
  rest := h'.rest.trans h.rest
  session hs := h'.session (h.session hs)

/-- What others leave alone is held. -/
theorem Spared.holds (h : k.Spared k') (hs : k.session = none → k'.session = none) :
    k.Holds k' :=
  ⟨by rw [h.assembler], h.rest, hs⟩

theorem fed_fresh (label : String) (capacity limit : Nat) :
    (fresh label capacity limit).Fed limit [] [] := by
  refine ⟨rfl, fun _ => rfl, [], [], rfl, Frame.split_nil, fun _ => ⟨rfl, rfl⟩, fun s hs => ?_⟩
  cases hs

/-- More bytes come. -/
theorem Fed.arrives (h : k.Fed limit bytes messages) (hlimit : k'.assembler.limit = limit)
    (hsteady : k'.Steady) (hrest : k'.rest = k.rest ++ bs) (hsession : k'.session = k.session) :
    k'.Fed limit (bytes ++ bs) messages := by
  obtain ⟨front, frames, hbytes, hsplit, htaken⟩ := h.taken
  refine ⟨hlimit, hsteady, front, frames, ?_, hsplit, hsession ▸ htaken⟩
  rw [hbytes, hrest, List.append_assoc]

/-- One more frame at the front. -/
theorem split_append_take {front rest : Bytes} {frames : List Frame}
    (hfront : Frame.split limit front = (frames, []))
    (h : Frame.look limit rest = .ok (some (f, n))) :
    Frame.split limit (front ++ rest.take n) = (frames ++ [f], []) := by
  rw [Frame.split_append, hfront, List.nil_append, Frame.split_take h]

/-- **What the task does keeps the messages in order.** -/
theorem Fed.uses (h : k.Fed limit bytes messages) (hu : k.Uses k' ms) (he : k.Evolves k')
    (hsteady : k'.Steady) : k'.Fed limit bytes (messages ++ ms) := by
  obtain ⟨front, frames, rfl, hsplit, hnone, hsome⟩ := h.taken
  have hlook {n : Nat} {f : Frame} (hl : Frame.look k.assembler.limit k.rest = .ok (some (f, n))) :
      Frame.split limit (front ++ k.rest.take n) = (frames ++ [f], []) := by
    rw [h.limit] at hl
    exact split_append_take hsplit hl
  have hfront (n : Nat) : front ++ k.rest = front ++ k.rest.take n ++ k.rest.drop n := by
    rw [List.append_assoc, List.take_append_drop]
  -- A session keeps its version.
  have hversion {s s' : Session} (hs : k.session = some s) (hs' : k'.session = some s') :
      s'.version = s.version := by
    obtain ⟨s'', hs'', hsame⟩ := he.session s hs
    obtain rfl := Option.some.inj (hs'.symm.trans hs'')
    exact hsame.version
  cases hu with
  | holds hholds =>
    refine ⟨hholds.limit.trans h.limit, hsteady, front, frames, by rw [hholds.rest], hsplit, ?_, ?_⟩
    · intro hs'
      rcases hs : k.session with _ | s
      · rw [List.append_nil]
        exact hnone hs
      · obtain ⟨s', hs'', -⟩ := he.session s hs
        rw [hs'] at hs''
        cases hs''
    · intro s' hs'
      rcases hs : k.session with _ | s
      · rw [hholds.session hs] at hs'
        cases hs'
      · rw [List.append_nil, hversion hs hs']
        exact hsome s hs
  | @opens f n s hs hl hrest hlimit hs' hmessage =>
    obtain ⟨rfl, rfl⟩ := hnone hs
    refine ⟨hlimit.trans h.limit, hsteady, front ++ k.rest.take n, [] ++ [f], ?_, hlook hl, ?_, ?_⟩
    · rw [hrest]
      exact hfront n
    · rw [hs']
      nofun
    · intro s' hs''
      obtain rfl := Option.some.inj (hs'.symm.trans hs'')
      simp [hmessage]
  | @takes f n s hs hl hrest hlimit =>
    refine ⟨hlimit.trans h.limit, hsteady, front ++ k.rest.take n, frames ++ [f], ?_, hlook hl, ?_,
      ?_⟩
    · rw [hrest]
      exact hfront n
    · intro hs'
      obtain ⟨s', hs'', -⟩ := he.session s hs
      rw [hs'] at hs''
      cases hs''
    · intro s' hs'
      rw [hversion hs hs', List.filterMap_append, hsome s hs]
      rfl

/-- The frame that is handed out is the first one. -/
theorem look_rest {a : Assembler} (hs : k.assembler.pending = 0)
    (h : k.assembler.next = .ok (some (f, a))) :
    ∃ n, Frame.look k.assembler.limit k.rest = .ok (some (f, n)) ∧
      a.limit = k.assembler.limit ∧ ({ k with assembler := a } : Conn).rest = k.rest.drop n := by
  obtain ⟨n, hlook, rfl⟩ := Assembler.look_of_next_eq_some h
  obtain ⟨n', hparse, hrest⟩ := parse_rest hs h
  have hfront : k.rest = k.assembler.buffer.toList ++ k.link.up.unread.toList := by
    rw [rest, Assembler.rest, hs, List.drop_zero]
  have hlook' : Frame.look k.assembler.limit k.rest = .ok (some (f, n)) := by
    rw [hfront]
    exact Frame.look_append hlook _
  obtain rfl : n' = n := by
    rw [(Frame.look_eq_some.1 hlook').1] at hparse
    simpa using hparse.symm
  exact ⟨n', hlook', rfl, hrest⟩

end Conn

namespace Broker

variable {b b' b₁ : Broker} {c d : ConnId} {t : Task} {m : Move} {e : Event} {k k₁ : Conn}
  {seen more : List Observation} {log log' : List Deed}

/-! ### What its own task does -/

/-- The task of a connection has put away what it had in hand, and what has come stays. -/
def Settles (b' : Broker) (c : ConnId) (k : Conn) : Prop :=
  ∃ k', b'.conns[c]? = some k' ∧ k'.Steady ∧ k.Holds k'

theorem Settles.of_holds (h : b'.Settles c k₁) (hk : k.Holds k₁) : b'.Settles c k := by
  obtain ⟨k', hk', hsteady, hholds⟩ := h
  exact ⟨k', hk', hsteady, hk.trans hholds⟩

theorem settles_setPhase (phase : Phase) (hk : b.conns[c]? = some k)
    (hphase : ¬({ k with phase := phase } : Conn).Waits) : (b.setPhase c phase).Settles c k :=
  ⟨_, conns_modifyConn_self hk, fun hw => absurd hw hphase, rfl, rfl, id⟩

theorem settles_readOn (hk : b.conns[c]? = some k) : (b.readOn c).Settles c k := by
  refine ⟨_, conns_modifyConn_self hk, fun _ => rfl, rfl, ?_, id⟩
  exact congrArg (· ++ k.link.up.unread.toList) Assembler.rest_retire

theorem holds_mapSession {f : Session → Session} :
    k.Holds { k with session := k.session.map f } :=
  ⟨rfl, rfl, fun hs => by rw [hs]; rfl⟩

theorem settles_finish {r : Except Fault Unit} (hk : b.conns[c]? = some k) :
    (b.finish c r).Settles c k := by
  have hcancel : (b.cancelSession c).conns[c]? = _ := conns_modifySession_self hk
  have hsettles := settles_setPhase (.closing r) hcancel (by
    rintro (hp | ⟨since, hp⟩) <;> cases hp)
  exact hsettles.of_holds holds_mapSession

theorem settles_afterReply {s : Session} {after : AfterReply} (hk : b.conns[c]? = some k) :
    (b.afterReply c s after).1.Settles c k := by
  cases after with
  | announce | read => exact settles_readOn hk
  | forward p f => exact settles_setPhase _ hk not_waits_forwarding

theorem Handles.settles {s : Session} {f : Frame} {p : Packet} (h : Handles b c s f p b')
    (hk : b.conns[c]? = some k) : b'.Settles c k := by
  cases h with
  | unexpected | invalid _ | disconnects => exact settles_finish hk
  | acknowledges _ _ | releases | pings => exact settles_setPhase _ hk not_waits_replying
  | forwards _ _ => exact settles_setPhase _ hk not_waits_forwarding
  | subscribes | unsubscribes =>
    exact (settles_setPhase _ (conns_modifySession_self hk) not_waits_replying).of_holds
      holds_mapSession
  | ignores _ => exact settles_readOn hk

/-- What others leave alone of a connection is held, if they open no session. -/
theorem Spares.holds (h : b.Spares c b')
    (hsession : (b'.session? c).isSome = true → (b.session? c).isSome = true)
    (hk : b.conns[c]? = some k) :
    ∃ k', b'.conns[c]? = some k' ∧ k.Holds k' ∧ (k.Steady → k'.Steady) := by
  obtain ⟨k', hk', hspared⟩ := h k hk
  refine ⟨k', hk', hspared.holds fun hs => ?_, hspared.steady⟩
  rw [session?, session?, hk, hk'] at hsession
  change k'.session.isSome = true → k.session.isSome = true at hsession
  rw [hs] at hsession
  rcases hs' : k'.session with _ | s'
  · rfl
  · rw [hs'] at hsession
    cases hsession rfl

/-- The task takes bytes. -/
theorem settles_takeBytes {bs : Bytes} {up : Pipe} {n : Nat} (hk : b.conns[c]? = some k)
    (hpending : k.assembler.pending = 0) (hread : k.link.up.read n = .got bs up) :
    (b.takeBytes c bs up).Settles c k := by
  refine ⟨_, conns_modifyConn_self hk, fun _ => hpending, rfl, ?_, id⟩
  show (k.assembler.receive bs).rest ++ up.unread.toList = k.assembler.rest ++ _
  rw [Assembler.rest_receive hpending, List.append_assoc, Pipe.unread_of_read hread]

/-- The task opens a session. -/
theorem exists_conn_openSession {v : Version} {p : Connect} (hk : b.conns[c]? = some k) :
    ∃ k' s, (b.openSession c v p).conns[c]? = some k' ∧ k'.Steady ∧ k'.rest = k.rest ∧
      k'.assembler.limit = k.assembler.limit ∧ k'.session = some s ∧ s.version = v := by
  have hopen : (b.modifyConn c fun k => { k with session := some (b.newSession v p) }).conns[c]? =
      some { k with session := some (b.newSession v p) } := conns_modifyConn_self hk
  exact ⟨_, _, conns_modifyConn_self hopen, fun hw => absurd hw not_waits_replying, rfl, rfl, rfl,
    rfl⟩

theorem settles_refuse {f : Fault} (hk : b.conns[c]? = some k) :
    (b.refuse c f).1.Settles c k := by
  refine ⟨_, conns_modifyConn_self hk, ?_, rfl, rfl, id⟩
  rintro (hp | ⟨since, hp⟩) <;> cases hp

theorem settles_shutStream {r : Except Fault Unit} (hk : b.conns[c]? = some k) :
    (b.shutStream c r).Settles c k := by
  refine ⟨_, conns_modifyConn_self hk, ?_, rfl, rfl, fun hs => ?_⟩
  · rintro (hp | ⟨since, hp⟩) <;> cases hp
  · show k.session.map _ = none
    rw [hs]
    rfl

/-- **Unless the task takes up what is in front, what has come stays.** -/
theorem Serves.settles (hk : b.conns[c]? = some k) (hs : k.Steady) (h : Serves b c k m b' seen)
    (hne : m ≠ .dispatch) : b'.Settles c k := by
  cases h with
  | greets hphase _ hread => exact settles_takeBytes hk (hs (.inl hphase)) hread
  | reads hphase _ _ hread => exact settles_takeBytes hk (hs (.inr ⟨_, hphase⟩)) hread
  | refuses _ _ => exact settles_refuse hk
  -- Taking a frame is what `dispatch` does, and nothing else does it.
  | opens _ _ _ | handles _ _ _ _ | undecodable _ _ _ _ => exact absurd rfl hne
  | ends _ _ _ => exact settles_finish hk
  | answers _ _ hsends =>
    -- Writing spares what has come, and so does what the task turns to afterwards.
    obtain ⟨k₁, hk₁, hholds, -⟩ := hsends.spares.holds (hsends.keeps.session c) hk
    exact (settles_setPhase _ hk₁ not_waits_replying).of_holds hholds
  | answerFails _ _ hsends =>
    obtain ⟨k₁, hk₁, hholds, -⟩ := hsends.spares.holds (hsends.keeps.session c) hk
    exact (settles_finish hk₁).of_holds hholds
  | answered _ _ hsends =>
    obtain ⟨k₁, hk₁, hholds, -⟩ := hsends.spares.holds (hsends.keeps.session c) hk
    exact (settles_afterReply hk₁).of_holds hholds
  | forwards _ _ hforwards =>
    obtain ⟨k₁, hk₁, hholds, -⟩ := hforwards.spares.holds (hforwards.keeps.session c) hk
    exact (settles_setPhase _ hk₁ not_waits_forwarding).of_holds hholds
  | forwarded _ _ hforwards =>
    obtain ⟨k₁, hk₁, hholds, -⟩ := hforwards.spares.holds (hforwards.keeps.session c) hk
    exact (settles_readOn hk₁).of_holds hholds
  | closes _ _ =>
    refine (settles_setPhase _ (conns_modifySession_self hk) ?_).of_holds holds_mapSession
    rintro (hp | ⟨since, hp⟩) <;> cases hp
  | shuts _ _ _ => exact settles_shutStream hk

/-- **What the task of a connection does with what has come.** -/
theorem Serves.uses (hg : b.Greets) (hk : b.conns[c]? = some k) (hs : k.Steady)
    (h : Serves b c k m b' seen) :
    ∃ k' ms, b'.conns[c]? = some k' ∧ k'.Steady ∧ k.Uses k' ms ∧
      b.takings c m = ms.map fun (f, p) => .takes c f p := by
  -- Nothing is taken.
  have hsettles (h : b'.Settles c k) (htakings : b.takings c m = []) :
      ∃ k' ms, b'.conns[c]? = some k' ∧ k'.Steady ∧ k.Uses k' ms ∧
        b.takings c m = ms.map fun (f, p) => .takes c f p := by
    obtain ⟨k', hk', hsteady, hholds⟩ := h
    exact ⟨k', [], hk', hsteady, .holds hholds, htakings⟩
  by_cases hm : m ≠ .dispatch
  · exact hsettles (h.settles hk hs hm) (takings_of_ne hm)
  obtain rfl := not_not.1 hm
  have hnone (hphase : k.phase = .greeting) : b.takings c .dispatch = [] :=
    takings_of_phase hk fun since h => by rw [hphase] at h; cases h
  have htake {a : Assembler} : (b.takeFrame c a).conns[c]? = some { k with assembler := a } :=
    conns_modifyConn_self hk
  cases h with
  | refuses hphase _ => exact hsettles (settles_refuse hk) (hnone hphase)
  | @opens f a v p hphase hnext hgreet =>
    obtain ⟨n, hlook, hlimit, hrest⟩ := Conn.look_rest (hs (.inl hphase)) hnext
    obtain ⟨k', s, hk', hsteady, hrest', hlimit', hsession, rfl⟩ :=
      exists_conn_openSession (v := v) (p := p) (htake (a := a))
    refine ⟨k', [], hk', hsteady, .opens (hg c k hk hphase) hlook (hrest'.trans hrest)
      (hlimit'.trans hlimit) hsession ?_, hnone hphase⟩
    exact message?_eq_none (decode_of_greet hgreet) (by simp)
  | @handles since s f a p hphase hsession hnext hdecode =>
    obtain ⟨n, hlook, hlimit, hrest⟩ := Conn.look_rest (hs (.inr ⟨_, hphase⟩)) hnext
    have hhandles : Handles (b.takeFrame c a) c s f p _ := handles_handle p
    obtain ⟨k', hk', hsteady, hholds⟩ := hhandles.settles htake
    refine ⟨k', _, hk', hsteady, .takes hsession hlook (hholds.rest.trans hrest)
      (hholds.limit.trans hlimit), ?_⟩
    rw [takings_dispatch hk, message?_of_next hphase hsession hnext]
    rcases f.message? s.version with _ | r <;> rfl
  | undecodable hphase hsession hnext hdecode =>
    obtain ⟨n, hlook, hlimit, hrest⟩ := Conn.look_rest (hs (.inr ⟨_, hphase⟩)) hnext
    obtain ⟨k', hk', hsteady, hholds⟩ := settles_finish htake
    refine ⟨k', _, hk', hsteady, .takes hsession hlook (hholds.rest.trans hrest)
      (hholds.limit.trans hlimit), ?_⟩
    rw [takings_dispatch hk, message?_of_next hphase hsession hnext]
    rcases Frame.message? _ _ with _ | r <;> rfl
  | ends hphase hsession hends =>
    refine hsettles (settles_finish hk) ?_
    cases hends with
    | malformed hnext =>
      rw [takings_dispatch hk, Conn.message?, hphase, hnext]
      rfl
  | forwards _ _ hforwards | forwarded _ _ hforwards => exact absurd rfl hforwards.ne_dispatch

/-! ### The notes -/

theorem messagesOf_append :
    messagesOf c (log ++ log') = messagesOf c log ++ messagesOf c log' :=
  List.filterMap_append

theorem arrived_append : arrived c (log ++ log') = arrived c log ++ arrived c log' := by
  rw [arrived, List.filterMap_append, List.flatten_append]
  rfl

/-- What is noted of the messages that a task takes. -/
theorem messagesOf_deeds {ms : List (Frame × Publish)}
    (h : b.takings c m = ms.map fun (f, p) => .takes c f p) :
    messagesOf c (b.deeds (.move (.task (.conn c) m)) b' seen) = ms := by
  rw [messagesOf, deeds]
  simp only [List.filterMap_append]
  rw [h, filterMap_completions fun _ _ _ => rfl, filterMap_beginnings fun _ => rfl,
    filterMap_reachings fun _ _ => rfl, filterMap_handings fun _ _ _ => rfl, List.filterMap_map]
  simp [Function.comp_def, Deed.taken?]

/-- Nothing is noted of a message taken but by the task that takes it. -/
theorem messagesOf_deeds_of_ne (h : ∀ m, e ≠ .move (.task (.conn c) m)) :
    messagesOf c (b.deeds e b' seen) = [] := by
  refine filterMap_deeds_eq_nil fun deed hnotes => ?_
  cases hnotes with
  | @takes d m =>
    refine if_neg ?_
    rintro rfl
    exact h m rfl
  | _ => rfl

/-- Only what a peer writes arrives from it. -/
theorem arrived_deeds_of_ne (h : ∀ bs, e ≠ .input (.peerWrites c bs)) :
    arrived c (b.deeds e b' seen) = [] := by
  refine congrArg List.flatten (filterMap_deeds_eq_nil fun deed hnotes => ?_)
  cases hnotes with
  | @arrives d bs =>
    refine if_neg ?_
    rintro rfl
    exact h bs rfl
  | _ => rfl

theorem arrived_deeds_of_peer_ne (h : e.peer? ≠ some c) : arrived c (b.deeds e b' seen) = [] := by
  refine arrived_deeds_of_ne ?_
  rintro bs rfl
  exact h rfl

/-! ### A whole run -/

/-- The messages that a session has taken are those in some frames from the front of all that has
ever come over its connection. -/
structure InOrder (c : ConnId) (b : Broker) (log : List Deed) : Prop where
  absent : b.conns[c]? = none → arrived c log = [] ∧ messagesOf c log = []
  fed : ∀ k, b.conns[c]? = some k →
    k.Fed b.maxPacketSize (arrived c log) (messagesOf c log)

/-- Only the task of a connection opens its session. -/
theorem Joins.session (h : Joins b b' e) (hne : ∀ m, e ≠ .move (.task (.conn c) m))
    (hs : (b'.session? c).isSome = true) : (b.session? c).isSome = true := by
  cases h with
  | keeps h => exact h.session c hs
  | @opens d _ _ _ hothers =>
    refine hothers c ?_ hs
    rintro rfl
    exact hne _ rfl
  | ends _ _ h => exact h c hs

/-- A connection that something is held of, with the bytes that come meanwhile. -/
theorem fed_of_holds {bytes : Bytes} {messages : List (Frame × Publish)} {k' : Conn}
    (h : k.Fed b.maxPacketSize bytes messages) (he : b.Evolves b') (hk : b.conns[c]? = some k)
    (hk' : b'.conns[c]? = some k') (hholds : k.Holds k') (hsteady : k'.Steady) :
    k'.Fed b'.maxPacketSize bytes messages := by
  obtain ⟨k'', hk'', hevolves⟩ := he.conns c k hk
  obtain rfl := Option.some.inj (hk'.symm.trans hk'')
  have := h.uses (.holds hholds) hevolves hsteady
  rwa [List.append_nil, ← he.maxPacketSize] at this

/-- What the peer of a connection does may add to what has come. -/
theorem exists_rest_of_peer {i : BrokerInput} (hi : i.peer? = some c) (hk : b.conns[c]? = some k)
    (h : b.next? (.input i) = some (b', seen)) :
    ∃ l, b'.conns[c]? = some { k with link := l } ∧
      ({ k with link := l } : Conn).rest = k.rest ++ arrived c (b.deeds (.input i) b' seen) := by
  -- Nothing comes.
  have hnothing {l : Link} (hne : ∀ bs, i ≠ .peerWrites c bs)
      (hup : l.up.unread.toList = k.link.up.unread.toList) :
      ({ k with link := l } : Conn).rest = k.rest ++ arrived c (b.deeds (.input i) b' seen) := by
    rw [arrived_deeds_of_ne fun bs heq => hne bs (Event.input.inj heq), List.append_nil, Conn.rest,
      Conn.rest, hup]
  have haccept : b.accept i = (b', seen) := Option.some.inj h
  cases i with
  | peerWrites d bs =>
    obtain rfl := Option.some.inj hi
    obtain ⟨rfl, rfl⟩ := Prod.mk.inj haccept
    refine ⟨_, conns_modifyConn_self hk, ?_⟩
    have hdeeds {b' : Broker} : b.deeds (.input (.peerWrites d bs)) b' [] = b.arrivals d bs :=
      List.append_nil _
    rw [hdeeds, arrivals, hk]
    dsimp only
    rcases hwrite : k.link.up.write bs with _ | _ | ⟨up, taken, left⟩
    · exact (List.append_nil _).symm
    · exact (List.append_nil _).symm
    · rw [Conn.rest, Conn.rest, Pipe.unread_of_write hwrite, List.append_assoc]
      simp [arrived, Deed.arrived?]
  | peerReads d n =>
    obtain rfl := Option.some.inj hi
    obtain ⟨rfl, rfl⟩ := Prod.mk.inj haccept
    refine ⟨_, conns_modifyConn_self hk, hnothing (by simp) ?_⟩
    dsimp only
    split <;> rfl
  | peerShuts d | peerDrops d =>
    obtain rfl := Option.some.inj hi
    obtain ⟨rfl, rfl⟩ := Prod.mk.inj haccept
    exact ⟨_, conns_modifyConn_self hk, hnothing (by simp) rfl⟩
  | _ => cases hi

/-- A connection that is not there moves nothing. -/
theorem ne_move_of_absent (h : b.next? e = some (b', seen)) (hnone : b.conns[c]? = none)
    (m : Move) : e ≠ .move (.task (.conn c) m) := by
  rintro rfl
  cases steps_of_next h with
  | conn hk _ =>
    rw [hnone] at hk
    cases hk

/-- Nothing comes over a connection that is not there. -/
theorem arrived_deeds_of_absent (hnone : b.conns[c]? = none) :
    arrived c (b.deeds e b' seen) = [] := by
  by_cases h : ∃ bs, e = .input (.peerWrites c bs)
  · obtain ⟨bs, rfl⟩ := h
    rw [arrived, deeds, List.filterMap_append, filterMap_handings fun _ _ _ => rfl]
    rw [arrivals, hnone]
    rfl
  · exact arrived_deeds_of_ne fun bs heq => h ⟨bs, heq⟩

/-- **Every event keeps the messages in order.** -/
theorem InOrder.step (h : InOrder c b log) (hg : b.Greets) (hnext : b.next? e = some (b', seen)) :
    InOrder c b' (log ++ b.deeds e b' seen) := by
  have hevolves := next?_evolves hg hnext
  -- A connection that is not there writes nothing and takes nothing.
  have habsent (hnone : b.conns[c]? = none) :
      arrived c (log ++ b.deeds e b' seen) = [] ∧ messagesOf c (log ++ b.deeds e b' seen) = [] := by
    obtain ⟨harrived, hmessages⟩ := h.absent hnone
    rw [arrived_append, messagesOf_append, harrived, hmessages, arrived_deeds_of_absent hnone,
      messagesOf_deeds_of_ne (ne_move_of_absent hnext hnone)]
    exact ⟨rfl, rfl⟩
  refine ⟨fun hnone => habsent (hevolves.absent hnone), fun k' hk' => ?_⟩
  rcases hk : b.conns[c]? with _ | k
  · obtain ⟨harrived, hmessages⟩ := habsent hk
    obtain ⟨label, capacity, rfl⟩ := next?_conns_of_none hnext hk hk'
    rw [harrived, hmessages, hevolves.maxPacketSize]
    exact Conn.fed_fresh label capacity b.maxPacketSize
  have hfed := h.fed k hk
  cases next?_concerns hk hnext with
  | @peer i _ hi _ =>
    obtain ⟨l, hk'', hrest⟩ := exists_rest_of_peer hi hk hnext
    obtain rfl := Option.some.inj (hk'.symm.trans hk'')
    rw [hevolves.maxPacketSize, messagesOf_append, messagesOf_deeds_of_ne (e := .input i) nofun,
      List.append_nil, arrived_append]
    exact hfed.arrives hfed.limit hfed.steady hrest rfl
  | @own m hserves =>
    obtain ⟨k'', ms, hk'', hsteady, huses, htakings⟩ := hserves.uses hg hk hfed.steady
    obtain rfl := Option.some.inj (hk'.symm.trans hk'')
    obtain ⟨k₂, hk₂, hconn⟩ := hevolves.conns c k hk
    obtain rfl := Option.some.inj (hk'.symm.trans hk₂)
    rw [arrived_append, arrived_deeds_of_ne (e := .move (.task (.conn c) m)) nofun,
      messagesOf_append, messagesOf_deeds htakings, List.append_nil, hevolves.maxPacketSize]
    exact hfed.uses huses hconn hsteady
  | others hpeer hne hspares =>
    obtain ⟨k'', hk'', hholds, hsteady⟩ :=
      hspares.holds ((next?_joins hg hnext).session hne) hk
    obtain rfl := Option.some.inj (hk'.symm.trans hk'')
    rw [arrived_append, arrived_deeds_of_peer_ne hpeer, messagesOf_append,
      messagesOf_deeds_of_ne hne, List.append_nil, List.append_nil]
    exact fed_of_holds hfed hevolves hk hk' hholds (hsteady hfed.steady)

theorem inOrder_start (maxPacketSize now : Nat) : InOrder c (start maxPacketSize now) [] where
  absent _ := ⟨rfl, rfl⟩
  fed k hk := by cases hk

theorem inOrder_of_replay {maxPacketSize now : Nat} {es : List Event}
    (h : (start maxPacketSize now).replay es = some (b, seen)) (c : ConnId) :
    InOrder c b ((start maxPacketSize now).history es) := by
  refine replay_induction (P := fun es b _ => InOrder c b ((start maxPacketSize now).history es))
    (inOrder_start _ _) ?_ h
  intro es e b₁ seen₁ b₂ more hrun hnext ih
  rw [history_concat hrun hnext]
  exact ih.step (exclusive_of_replay hrun).1.greets hnext

/-- **A session takes its messages in the order in which they came**, and leaves out none: they are
those in some frames from the front of all that has come. -/
theorem exists_frames_of_replay {maxPacketSize now : Nat} {es : List Event} {s : Session}
    (h : (start maxPacketSize now).replay es = some (b, seen)) (hs : b.session? c = some s) :
    ∃ frames, frames <+: (Frame.split maxPacketSize
        (arrived c ((start maxPacketSize now).history es))).1 ∧
      messagesOf c ((start maxPacketSize now).history es) =
        frames.filterMap (Frame.message? s.version) := by
  obtain ⟨k, hk, hs⟩ := session?_eq_some.1 hs
  have hmax : b.maxPacketSize = maxPacketSize :=
    (replay_evolves (greets_start _ _) h).maxPacketSize
  obtain ⟨front, frames, hbytes, hsplit, -, htaken⟩ := ((inOrder_of_replay h c).fed k hk).taken
  rw [hmax] at hsplit
  refine ⟨frames, ?_, htaken s hs⟩
  rw [hbytes, Frame.split_append, hsplit]
  exact List.prefix_append _ _

end Broker
end Mqtt
