import Mqtt.Proofs.Broker.Answers
import Mqtt.Proofs.Broker.FanOut
/-!
# The conversation of a session with its client

What a session says to its client is, frame for frame, the beginning of what it is to say to the
frames that have come, and all of it if nothing keeps it from writing. Others come in between with
what they forward, but never before the CONNACK: until then the session has no filter, so no message
is for it (`Untouched`). `converses_of_replay` puts this together.
-/

namespace Mqtt
namespace Broker

variable {b b' b₁ : Broker} {c d : ConnId} {t : Task} {m : Move} {e : Event} {es : List Event}
  {k : Conn} {phase : Phase} {seen more : List Observation} {log : List Deed}

/-! ### What is forwarded to a session -/

/-- A task is at forwarding a message to a session. -/
def Spreads (b : Broker) (t : Task) (c : ConnId) : Prop :=
  b.isForwarding t = true ∧ ∃ d, b.delivery? t = some d ∧ d.target = c

theorem spreads_iff : b.Spreads t c ↔
    ∃ o d, b.work? t = some (.spread o) ∧ o.current = some d ∧ d.target = c := by
  rw [Spreads, isForwarding, delivery?]
  constructor
  · rintro ⟨hspread, d, hd, htarget⟩
    split at hspread
    · next o hwork =>
      rw [hwork] at hd
      exact ⟨o, d, hwork, hd, htarget⟩
    · cases hspread
  · rintro ⟨o, d, hwork, hd, htarget⟩
    rw [hwork]
    exact ⟨rfl, d, hd, htarget⟩

/-- A task that is at something else, or has only begun to forward its message. -/
theorem not_spreads_of_phase (hphase : b.phase? d = some phase)
    (hcurrent : ∀ p o, phase = .forwarding p o → o.current = none) : ¬b.Spreads (.conn d) c := by
  rw [spreads_iff]
  rintro ⟨o, delivery, hwork, hd, -⟩
  obtain ⟨k, hk, rfl⟩ := phase?_eq_some.1 hphase
  rw [work?_of_phase hk rfl] at hwork
  cases hp : k.phase with
  | forwarding p o' =>
    rw [hp] at hwork
    cases hwork
    rw [hcurrent p o hp] at hd
    cases hd
  | _ =>
    rw [hp] at hwork
    cases hwork

theorem Spreads.of_work? (h : b'.Spreads t c) (hwork : b'.work? t = b.work? t) : b.Spreads t c := by
  rw [spreads_iff] at h ⊢
  rwa [hwork] at h

/-- A message is forwarded only to a session that wants it. -/
theorem Forwards.spreads {stopped : Bool} {o o' : FanOut} {delivery : Delivery}
    (h : Forwards b t stopped o m b' (.inl o') seen) (hwork : b.work? t = some (.spread o))
    (hcurrent : o'.current = some delivery) (htarget : delivery.target = c) :
    b.Spreads t c ∨ ∃ topic, b.isSubscribed c topic = true := by
  generalize hr : (Sum.inl o' : FanOut ⊕ Nat) = r at h
  cases h with
  | reaches _ _ hsubscribed =>
    cases hr
    cases hcurrent
    subst htarget
    -- It takes up a session only after asking its filters.
    exact .inr ⟨_, hsubscribed⟩
  | @goesOn d _ _ _ _ hd _ =>
    cases hr
    cases hcurrent
    -- It was at this session before.
    exact .inl (spreads_iff.2 ⟨o, d, hwork, hd, htarget⟩)
  | passes _ _ _ | delivers _ _ | fails _ _ =>
    cases hr
    cases hcurrent
  | exhausts _ _ | stops _ _ => cases hr

theorem Handles.not_spreads {s : Session} {f : Frame} {p : Packet} (h : Handles b d s f p b')
    (hk : b.conns[d]? = some k) : ¬b'.Spreads (.conn d) c := by
  cases h with
  | unexpected | invalid _ | disconnects => exact not_spreads_of_phase (phase?_finish hk) (by simp)
  | acknowledges _ _ | releases | pings =>
    exact not_spreads_of_phase (phase?_setPhase _ hk) (by simp)
  | forwards _ _ =>
    refine not_spreads_of_phase (phase?_setPhase _ hk) ?_
    rintro p o ⟨⟩
    rfl
  | subscribes | unsubscribes =>
    exact not_spreads_of_phase (phase?_setPhase _ (conns_modifySession_self hk)) (by simp)
  | ignores _ => exact not_spreads_of_phase (phase?_readOn hk) (by simp)

theorem Serves.spreads (h : Serves b d k m b' seen) (hk : b.conns[d]? = some k)
    (hspreads : b'.Spreads (.conn d) c) :
    b.Spreads (.conn d) c ∨ ∃ topic, b.isSubscribed c topic = true := by
  have htake {a : Assembler} : (b.takeFrame d a).conns[d]? = some { k with assembler := a } :=
    conns_modifyConn_self hk
  cases h with
  | greets _ _ _ | reads _ _ _ _ => exact .inl (hspreads.of_work? work?_takeBytes)
  | refuses _ _ =>
    exact absurd hspreads
      (not_spreads_of_phase (phase?_of_conn (conns_modifyConn_self hk)) (by simp))
  | opens _ _ _ =>
    exact absurd hspreads (not_spreads_of_phase (phase?_openSession htake) (by simp))
  | handles _ _ _ _ => exact absurd hspreads ((handles_handle _).not_spreads htake)
  | undecodable _ _ _ _ =>
    exact absurd hspreads (not_spreads_of_phase (phase?_finish htake) (by simp))
  | ends _ _ _ => exact absurd hspreads (not_spreads_of_phase (phase?_finish hk) (by simp))
  | answers _ _ hsends =>
    obtain ⟨k₁, hk₁⟩ := hsends.evolves.exists_conn hk
    exact absurd hspreads (not_spreads_of_phase (phase?_setPhase _ hk₁) (by simp))
  | answerFails _ _ hsends =>
    obtain ⟨k₁, hk₁⟩ := hsends.evolves.exists_conn hk
    exact absurd hspreads (not_spreads_of_phase (phase?_finish hk₁) (by simp))
  | @answered _ after _ _ _ _ _ _ hsends =>
    obtain ⟨k₁, hk₁⟩ := hsends.evolves.exists_conn hk
    cases after with
    | announce | read =>
      exact absurd hspreads (not_spreads_of_phase (phase?_readOn hk₁) (by simp))
    | forward p f =>
      -- A forwarding begins with nobody taken up.
      refine absurd hspreads (not_spreads_of_phase (phase?_setPhase _ hk₁) ?_)
      rintro p o ⟨⟩
      rfl
  | @forwards p o o' s m b₁ seen hphase _ hforwards =>
    obtain ⟨k₁, hk₁⟩ := hforwards.evolves.exists_conn hk
    -- The one phase in which a message is on its way to somebody.
    obtain ⟨o₂, delivery, hwork, hcurrent, htarget⟩ := spreads_iff.1 hspreads
    rw [work?_setPhase hk₁, if_pos rfl] at hwork
    cases hwork
    exact hforwards.spreads (work?_of_phase hk hphase) hcurrent htarget
  | forwarded _ _ hforwards =>
    obtain ⟨k₁, hk₁⟩ := hforwards.evolves.exists_conn hk
    exact absurd hspreads (not_spreads_of_phase (phase?_readOn hk₁) (by simp))
  | closes _ _ =>
    exact absurd hspreads
      (not_spreads_of_phase (phase?_setPhase _ (conns_modifySession_self hk)) (by simp))
  | shuts _ _ _ =>
    exact absurd hspreads
      (not_spreads_of_phase (phase?_of_conn (conns_modifyConn_self hk)) (by simp))

theorem Calls.spreads {n : Nat} {call : HostCall} (h : Calls b n call m b' seen)
    (hcall : b.call? n = some call) (hspreads : b'.Spreads (.host n) c) :
    b.Spreads (.host n) c ∨ ∃ topic, b.isSubscribed c topic = true := by
  have hwork := work?_of_call hcall
  obtain ⟨o₂, delivery, hwork', hcurrent, htarget⟩ := spreads_iff.1 hspreads
  cases h with
  | publishes hforwards =>
    obtain ⟨old, hold⟩ := exists_call_of_work? ((hforwards.work? (.host n)).trans hwork)
    rw [work?_setCall hold, if_pos rfl] at hwork'
    cases hwork'
    exact hforwards.spreads hwork hcurrent htarget
  | writes hsends =>
    obtain ⟨old, hold⟩ := exists_call_of_work? ((hsends.work? (.host n)).trans hwork)
    rw [work?_setCall hold, if_pos rfl] at hwork'
    cases hwork'
  | published _ | written _ | served _ =>
    rw [work?_dropCall, if_pos rfl] at hwork'
    cases hwork'

/-- A call that begins has not come to a session yet. -/
theorem Spreads.of_addCall {n : Nat} {call : HostCall}
    (hcall : ∀ o, call.work? = some (.spread o) → o.current = none)
    (h : (b.addCall n call).Spreads t c) : b.Spreads t c := by
  obtain ⟨o, delivery, hwork, hcurrent, htarget⟩ := spreads_iff.1 h
  rw [work?_addCall] at hwork
  split_ifs at hwork
  · rw [hcall o hwork] at hcurrent
    cases hcurrent
  · exact spreads_iff.2 ⟨o, delivery, hwork, hcurrent, htarget⟩

/-- No input makes a task begin to write to a session what it forwards. -/
theorem Accepts.spreads {i : BrokerInput} (h : Accepts b i b' seen) (hspreads : b'.Spreads t c) :
    b.Spreads t c := by
  cases h with
  | opens => exact hspreads.of_work? work?_addConn
  | links _ _ _ | cancels => exact hspreads.of_work? (work?_modifyConn_same fun _ => rfl)
  | closes => exact hspreads.of_work? work?_modifySession
  | shutsDown | elapses => exact hspreads.of_work? (work?_congr rfl rfl)
  | begins hrequests =>
    refine hspreads.of_addCall fun o ho => ?_
    cases hrequests with
    | publishes _ =>
      cases ho
      rfl
    | writesPacket _ | writesFrame _ => cases ho
  | serves _ => exact hspreads.of_work? work?_serve
  | declines _ => exact hspreads

/-- A message is forwarded only to a session that wants it. -/
theorem next?_spreads (hg : b.Greets) (h : b.next? e = some (b', seen))
    (hspreads : b'.Spreads t c) : b.Spreads t c ∨ ∃ topic, b.isSubscribed c topic = true := by
  cases e with
  | input i => exact .inl ((accepts_of_next h).spreads hspreads)
  | move a =>
    cases step_cases h with
    | @conn d k m _ _ hk hserves =>
      by_cases ht : t = .conn d
      · subst ht
        exact hserves.spreads hk hspreads
      · obtain ⟨lm, heffect, -⟩ := hserves.effect hg hk
        exact .inl (hspreads.of_work? (heffect.others t ht))
    | @host n call m _ _ hcall hcalls =>
      by_cases ht : t = .host n
      · subst ht
        exact hcalls.spreads hcall hspreads
      · obtain ⟨lm, heffect, -⟩ := hcalls.effect hcall
        exact .inl (hspreads.of_work? (heffect.others t ht))
    | relay _ _ _ _ => exact .inl (hspreads.of_work? work?_modifySession)

/-- Nothing is forwarded to a session, for it has no filter. -/
structure Untouched (c : ConnId) (b : Broker) : Prop where
  filters : ∀ k, b.conns[c]? = some k → k.filters = .empty
  spreads : ∀ t, ¬b.Spreads t c

theorem Untouched.isSubscribed (h : Untouched c b) (topic : String) :
    b.isSubscribed c topic = false := by
  rw [Broker.isSubscribed, session?]
  rcases hk : b.conns[c]? with _ | k
  · rfl
  · have hfilters := h.filters k hk
    rw [Conn.filters] at hfilters
    show (k.session).any _ = false
    rcases hs : k.session with _ | s
    · rfl
    · rw [hs] at hfilters
      show s.filters.matchesTopic topic = false
      rw [show s.filters = .empty from hfilters, FilterIndex.matchesTopic_empty]

/-- The task of a connection changes the filters only when it takes a packet of its session. -/
theorem Serves.exists_filters (hg : b.Greets) (hk : b.conns[c]? = some k)
    (h : Serves b c k m b' seen) (hne : k.phase.owesNothing = true → m ≠ .dispatch) :
    ∃ k', b'.conns[c]? = some k' ∧ k'.filters = k.filters := by
  have hfinish {b : Broker} {k₁ : Conn} {r : Except Fault Unit} (hk : b.conns[c]? = some k₁)
      (hfilters : k₁.filters = k.filters) :
      ∃ k', (b.finish c r).conns[c]? = some k' ∧ k'.filters = k.filters := by
    have hcancel : (b.cancelSession c).conns[c]? = _ := conns_modifySession_self hk
    refine ⟨_, conns_modifyConn_self hcancel, Eq.trans ?_ hfilters⟩
    exact Conn.filters_map (f := fun s => { s with cancelled := true }) (fun _ => rfl) rfl
  have hdispatch {since : Nat} (hphase : k.phase = .reading since) : Move.dispatch ≠ m := by
    refine (hne ?_).symm
    rw [hphase]
    rfl
  cases h with
  | greets _ _ _ | refuses _ _ | reads _ _ _ _ => exact ⟨_, conns_modifyConn_self hk, rfl⟩
  | @opens f a v p hphase _ _ =>
    obtain ⟨k', hk', -, -, hfilters⟩ := exists_openSession (v := v) (p := p)
      (conns_modifyConn_self (f := fun k => { k with assembler := a }) hk) (hg c k hk hphase)
    exact ⟨k', hk', hfilters⟩
  -- A packet is taken here, which is excluded.
  | handles hphase _ _ _ | undecodable hphase _ _ _ => exact absurd rfl (hdispatch hphase)
  | ends _ _ _ => exact hfinish hk rfl
  | answers _ _ hsends =>
    -- Writing changes the turnstile and the pipe of a session, never its filters.
    obtain ⟨k₁, hk₁, hspared⟩ := hsends.spares k hk
    exact ⟨_, conns_modifyConn_self hk₁, hspared.filters⟩
  | answerFails _ _ hsends =>
    obtain ⟨k₁, hk₁, hspared⟩ := hsends.spares k hk
    exact hfinish hk₁ hspared.filters
  | answered _ _ hsends =>
    obtain ⟨k₁, hk₁, hspared⟩ := hsends.spares k hk
    obtain ⟨k', hk', -, -, hfilters⟩ := exists_afterReply hk₁
    exact ⟨k', hk', hfilters.trans hspared.filters⟩
  | forwards _ _ hforwards | forwarded _ _ hforwards =>
    obtain ⟨k₁, hk₁, hspared⟩ := hforwards.spares k hk
    exact ⟨_, conns_modifyConn_self hk₁, hspared.filters⟩
  | closes _ _ =>
    refine ⟨_, conns_modifyConn_self (conns_modifySession_self hk), ?_⟩
    exact Conn.filters_map (f := fun s => { s with turnstile := s.turnstile.enter (.conn c) })
      (fun _ => rfl) rfl
  | shuts _ _ _ =>
    refine ⟨_, conns_modifyConn_self hk, ?_⟩
    exact Conn.filters_map (f := fun s => { s with turnstile := s.turnstile.leave (.conn c) })
      (fun _ => rfl) rfl

/-- **Every event leaves a session untouched**, unless its task takes a packet of it. -/
theorem Untouched.next (h : Untouched c b) (hg : b.Greets) (hnext : b.next? e = some (b', seen))
    (hne : ∀ k, b.conns[c]? = some k → k.phase.owesNothing = true →
      e ≠ .move (.task (.conn c) .dispatch)) : Untouched c b' where
  filters k' hk' := by
    rcases hk : b.conns[c]? with _ | k
    · -- A new connection has no session, and hence no filters.
      obtain ⟨label, capacity, rfl⟩ := next?_conns_of_none hnext hk hk'
      rfl
    have hempty := h.filters k hk
    cases next?_concerns hk hnext with
    | peer _ hk'' =>
      obtain rfl := Option.some.inj (hk'.symm.trans hk'')
      exact hempty
    | own hserves =>
      obtain ⟨k'', hk'', hfilters⟩ := hserves.exists_filters hg hk fun howes hm =>
        hne k hk howes (by rw [hm])
      obtain rfl := Option.some.inj (hk'.symm.trans hk'')
      exact hfilters.trans hempty
    | others _ _ hspares =>
      obtain ⟨k'', hk'', hspared⟩ := hspares k hk
      obtain rfl := Option.some.inj (hk'.symm.trans hk'')
      exact hspared.filters.trans hempty
  spreads t hspreads := by
    -- Whoever takes up a message for `c` has found a filter of it that matches. There is none.
    rcases next?_spreads hg hnext hspreads with hbefore | ⟨topic, hsubscribed⟩
    · exact h.spreads t hbefore
    · rw [h.isSubscribed topic] at hsubscribed
      cases hsubscribed

/-- **Before the CONNACK nothing is forwarded.** -/
theorem untouched_of_replay {maxPacketSize now : Nat}
    (h : (start maxPacketSize now).replay es = some (b, seen))
    (hnone : answersOf c ((start maxPacketSize now).history es) = []) : Untouched c b := by
  refine replay_induction (P := fun es b _ =>
    answersOf c ((start maxPacketSize now).history es) = [] → Untouched c b) ?_ ?_ h hnone
  · intro _
    refine ⟨fun k hk => (by cases hk), fun t => ?_⟩
    rintro ⟨hspread, -⟩
    cases t <;> cases hspread
  · intro es e b₁ seen₁ b₂ more hrun hnext ih hnone
    rw [history_concat hrun hnext, answersOf_append, List.append_eq_nil_iff] at hnone
    -- A task that owes nothing has written its CONNACK, and none is noted.
    refine (ih hnone.1).next (exclusive_of_replay hrun).1.greets hnext fun k hk howes _ => ?_
    have hanswered := answered_of_replay hrun c
    rw [phase?_of_conn hk] at hanswered
    exact hanswered.ne_nil howes hnone.1

/-! ### Who writes to a session -/

/-- A frame that is noted as written is one that a task has been writing. -/
theorem exists_of_mem_deeds {bs : Bytes} {forwarded : Bool}
    (h : .writes t c bs forwarded ∈ b.deeds e b' seen) :
    forwarded = b.isForwarding t ∧ ∃ d, b.delivery? t = some d ∧ d.target = c := by
  cases notes_of_mem_deeds h with
  | @writes _ _ d _ hd => exact ⟨rfl, d, hd, rfl⟩

/-- **The CONNACK is written before every message that is forwarded.** -/
theorem answersOf_ne_nil_of_forwarded {maxPacketSize now : Nat} {bs : Bytes}
    {before after : List Deed} (h : (start maxPacketSize now).replay es = some (b, seen))
    (hlog : (start maxPacketSize now).history es = before ++ .writes t c bs true :: after) :
    answersOf c before ≠ [] := by
  refine replay_induction (P := fun es _ _ => ∀ before after,
    (start maxPacketSize now).history es = before ++ .writes t c bs true :: after →
      answersOf c before ≠ []) ?_ ?_ h before after hlog
  · intro before after hlog
    cases before <;> cases hlog
  · intro es e b₁ seen₁ b₂ more hrun hnext ih before after hlog
    -- A message that is forwarded in the last event.
    have hlast (hmem : .writes t c bs true ∈ b₁.deeds e b₂ more) :
        answersOf c ((start maxPacketSize now).history es) ≠ [] := by
      intro hnone
      obtain ⟨hforwarding, hd⟩ := exists_of_mem_deeds hmem
      exact (untouched_of_replay hrun hnone).spreads t ⟨hforwarding.symm, hd⟩
    rw [history_concat hrun hnext] at hlog
    rcases List.append_eq_append_iff.1 hlog with ⟨part, rfl, hdeeds⟩ | ⟨part, hlog, hdeeds⟩
    · have hne := hlast (by rw [hdeeds]; simp)
      rw [answersOf_append]
      simp [hne]
    · cases part with
      | nil =>
        rw [List.append_nil] at hlog
        rw [← hlog]
        exact hlast (by rw [← List.nil_append (b₁.deeds e b₂ more), ← hdeeds]; simp)
      | cons deed part =>
        cases (List.cons.inj hdeeds).1
        exact ih before part hlog

/-- **Besides what is forwarded, only its own task and calls of the host write to a session.** -/
theorem conn_or_host_of_writes {maxPacketSize now : Nat} {bs : Bytes}
    (h : (start maxPacketSize now).replay es = some (b, seen))
    (hmem : .writes t c bs false ∈ (start maxPacketSize now).history es) :
    t = .conn c ∨ ∃ n, t = .host n := by
  refine replay_induction (P := fun es _ _ =>
    .writes t c bs false ∈ (start maxPacketSize now).history es → t = .conn c ∨ ∃ n, t = .host n)
    nofun ?_ h hmem
  intro es e b₁ seen₁ b₂ more hrun hnext ih hmem
  rw [history_concat hrun hnext] at hmem
  rcases List.mem_append.1 hmem with hmem | hmem
  · exact ih hmem
  · obtain ⟨hforwarding, delivery, hdelivery, rfl⟩ := exists_of_mem_deeds hmem
    cases t with
    | host n => exact .inr ⟨n, rfl⟩
    | conn d =>
      -- The task of a connection writes its answers to its own client.
      obtain ⟨w, hwork, hw⟩ := Option.bind_eq_some_iff.1 hdelivery
      obtain ⟨k, hk, hwork⟩ := Option.bind_eq_some_iff.1 hwork
      cases hphase : k.phase with
      | replying d' reply =>
        rw [hphase] at hwork
        cases hwork
        cases hw
        refine .inl ?_
        rw [(attends_of_replay hrun d).target delivery reply (by rw [phase?_of_conn hk, hphase])]
      | forwarding p o =>
        rw [isForwarding_of_forwarding hk hphase] at hforwarding
        cases hforwarding
      | _ =>
        rw [hphase] at hwork
        cases hwork

/-! ### A whole run -/

/-- The frames that a connection has finished with: all that it has taken, but for the one whose
answer is being written. -/
def finishedWith (b : Broker) (c : ConnId) (frames : List Frame) : List Frame :=
  match b.phase? c with
  | some (.replying _ _) => frames.dropLast
  | _ => frames

/-- The conversation over a connection in a run. -/
structure Converses (c : ConnId) (b₀ : Broker) (es : List Event) (b : Broker)
    (seen : List Observation) : Prop where
  /-- The frames that are taken are the first ones in all that has come. -/
  reads : framesRead c b₀ es <+: (Frame.split b₀.maxPacketSize (arrived c (b₀.history es))).1
  /-- Whatever is to be said to them can be laid out. -/
  encodes : ∀ r ∈ Frame.replies (framesRead c b₀ es), ∃ bs, r = .ok bs
  /-- What the session has said is the beginning of that. -/
  inOrder : (answersOf c (b₀.history es)).map .ok <+: Frame.replies (framesRead c b₀ es)
  /-- If nothing keeps it from writing, it has said all that is to be said to the frames that it has
  finished with. -/
  complete : Kept c b₀ es → (answersOf c (b₀.history es)).map .ok =
    Frame.replies (b.finishedWith c (framesRead c b₀ es))
  /-- The CONNACK is written before the first frame that somebody forwards. -/
  first : ∀ before t bs after, b₀.history es = before ++ .writes t c bs true :: after →
    ∃ v ack rest, answersOf c before = ack :: rest ∧
      (Packet.connAck .accepted).toBytes v = .ok ack
  /-- Until it is written, nobody is at forwarding a frame to the session. -/
  untouched : answersOf c (b₀.history es) = [] → ∀ t, ¬b.Spreads t c
  /-- Besides what is forwarded, only the session itself and calls of the host write to the
  client. -/
  others : ∀ t bs, .writes t c bs false ∈ b₀.history es → t = .conn c ∨ ∃ n, t = .host n
  /-- The stream has taken the frames that are noted as written, in this order, and the part that
  has been pushed of the one that is being pushed. -/
  stream : Lives c b → b₀.Never es (FailsWrite c) → b₀.Never es (Interrupts c) →
    (b.lane c).Carries (framesInto c (b₀.history es)) (streamOf c seen)

/-- The CONNACK is the first thing that is said. -/
theorem exists_ack_of_replay {maxPacketSize now : Nat} {before after : List Deed}
    (h : (start maxPacketSize now).replay es = some (b, seen))
    (hlog : (start maxPacketSize now).history es = before ++ after)
    (hne : answersOf c before ≠ []) :
    ∃ v ack rest, answersOf c before = ack :: rest ∧
      (Packet.connAck .accepted).toBytes v = .ok ack := by
  obtain ⟨ack, rest, hanswers⟩ := List.exists_cons_of_ne_nil hne
  have hprefix := (answered_of_replay h c).isPrefix
  rw [hlog, answersOf_append, hanswers] at hprefix
  obtain ⟨more, hreplies⟩ := hprefix
  obtain ⟨v, hack⟩ := Frame.exists_of_replies hreplies.symm
  exact ⟨v, ack, rest, hanswers, hack.symm⟩

/-- What has been said if nothing has kept the session from writing. -/
theorem Answered.complete {frames : List Frame} {answers : List Bytes} {kept : Prop}
    {v? : Option Version} (h : Answered frames answers kept v? (b.phase? c)) (hkept : kept) :
    answers.map .ok = Frame.replies (b.finishedWith c frames) := by
  unfold finishedWith
  rcases hphase : b.phase? c with _ | phase
  · rw [hphase] at h
    rw [h.1, h.2]
    rfl
  rw [hphase] at h
  cases phase with
  | greeting =>
    rw [h.1, h.2]
    rfl
  | reading _ | forwarding _ _ =>
    obtain ⟨v, -, -, hsaid⟩ := h
    exact hsaid
  | replying _ _ => exact h.2.1
  | _ => exact h.2 hkept

/-- **What a session says to its client.** In every run of a broker, for every connection: the
frames that the session has written as its answers are, in this order, the beginning of the CONNACK
and the responses to the frames that have come, up to the first one that ends the session, and all
of it for the frames that it has finished with, if it is not told to end and no write fails. All of
it can be laid out, and the CONNACK comes before all that is forwarded to the session. -/
theorem converses_of_replay {maxPacketSize now : Nat}
    (h : (start maxPacketSize now).replay es = some (b, seen)) (c : ConnId) :
    Converses c (start maxPacketSize now) es b seen where
  reads := framesRead_isPrefix h c
  encodes _ := Frame.exists_bytes_of_mem_replies fun _ hf => length_body_of_mem_framesRead h hf
  inOrder := (answered_of_replay h c).isPrefix
  complete hkept := (answered_of_replay h c).complete hkept
  first _ _ _ _ hlog := exists_ack_of_replay h hlog (answersOf_ne_nil_of_forwarded h hlog)
  untouched hnone := (untouched_of_replay h hnone).spreads
  others _ _ hmem := conn_or_host_of_writes h hmem
  stream hlives hwrites hnever := carries_of_never h hlives hwrites hnever

/-- A client connects, asks for two filters, one of them malformed, and sends a PINGREQ. -/
def answeredClient : List Event :=
  let connect : Bytes := [0x10, 13, 0, 4, 0x4d, 0x51, 0x54, 0x54, 4, 2, 0, 60, 0, 1, 0x73]
  [.input (.opens "s" 64), .input (.peerWrites 0 connect)] ++ answering 0 ++
    [.input (.peerWrites 0 [0x82, 11, 0, 1, 0, 1, 0x74, 1, 0, 2, 0x74, 0x23, 0])] ++
    answering 0 ++ [.input (.peerWrites 0 [0xc0, 0])] ++ answering 0

/-- Nothing keeps the session from answering, so it has said all that is to be said. -/
theorem converses_answeredClient :
    ∃ b seen, (start 1000 0).replay answeredClient = some (b, seen) ∧
      Kept 0 (start 1000 0) answeredClient ∧
      Frame.replies (b.finishedWith 0 (framesRead 0 (start 1000 0) answeredClient)) =
        [[0x20, 2, 0, 0], [0x90, 4, 0, 1, 1, 0x80], [0xd0, 0]].map .ok := by
  have hend : ((start 1000 0).replay answeredClient).map
      (fun r => ((r.1.session? 0).map r.1.isCancelled,
        r.1.conns[0]?.map fun k => k.link.down.closed)) = some (some false, some false) := by
    decide +kernel
  have hanswers : answersOf 0 ((start 1000 0).history answeredClient) =
      [[0x20, 2, 0, 0], [0x90, 4, 0, 1, 1, 0x80], [0xd0, 0]] := by
    decide +kernel
  obtain ⟨⟨b, seen⟩, hrun, hb⟩ := Option.map_eq_some_iff.1 hend
  obtain ⟨hcancelled, hopen⟩ := Prod.mk.inj hb
  obtain ⟨k, hk, hopen⟩ := Option.map_eq_some_iff.1 hopen
  have hlives : Lives 0 b := by
    intro s hs
    rw [hs] at hcancelled
    exact Option.some.inj hcancelled
  have hkept : Kept 0 (start 1000 0) answeredClient := by
    refine ⟨fun es₁ b₁ seen₁ hp hrun₁ _ => ?_, never_failsWrite_of_open (greets_start _ _) hrun hk
      hopen⟩
    exact hlives.of_evolves (replay_evolves_since (greets_start _ _) hrun hp hrun₁)
  refine ⟨b, seen, hrun, hkept, ?_⟩
  rw [← (converses_of_replay hrun 0).complete hkept, hanswers]

end Broker
end Mqtt
