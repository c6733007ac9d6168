import Mqtt.Proofs.Broker.Work
import Mqtt.Proofs.Packet.Wire
/-!
# What an event does to the streams of a broker

In every event one task acts at the streams, and the others stand still (`Effect`). What it does is
one of few things (`Acts`): a delivery begins, moves on or is dropped, or the owner of a stream
comes to its turnstile or goes away from it. `next?_effect` says this of every event, by way of the
rules that the event follows.
-/

namespace Mqtt
namespace Broker

variable {b b' b₁ : Broker} {c c' : ConnId} {t : Task} {w : Option Work} {lm : LaneMove}
  {seen seen₁ : List Observation}

/-- What a task does to the streams in one event. -/
inductive Acts (b : Broker) (t : Task) : LaneMove → Broker → List Observation → Prop
  /-- The streams are left alone. -/
  | rests {b' : Broker} {seen : List Observation} : b'.work? t = b.work? t →
    (∀ c, b'.turnstile c = b.turnstile c) → (∀ c, streamOf c seen = []) →
    Acts b t .apart b' seen
  /-- A task without a delivery may begin one. -/
  | begins {b' : Broker} {seen : List Observation} : b.delivery? t = none →
    (∀ d, b'.delivery? t = some d → d.state = .starting ∧ (b'.session? d.target).isSome) →
    (∀ c, b'.turnstile c = b.turnstile c) → (∀ c, streamOf c seen = []) →
    Acts b t .apart b' seen
  /-- The owner of a stream comes to its turnstile. -/
  | enters {b' : Broker} {c : ConnId} : b.delivery? t = none → b'.delivery? t = none →
    (∀ c', b'.turnstile c' = if c' = c then (b.turnstile c).enter t else b.turnstile c') →
    Acts b t .apart b' []
  /-- The owner of a stream goes away from its turnstile. -/
  | leaves {b' : Broker} {c : ConnId} {seen : List Observation} : b.delivery? t = none →
    b'.delivery? t = none →
    (∀ c', b'.turnstile c' = if c' = c then (b.turnstile c).leave t else b.turnstile c') →
    (∀ c, streamOf c seen = []) → Acts b t .apart b' seen
  /-- A delivery moves on. -/
  | sends {d : Delivery} {m : SendMove} {b₁ b' : Broker} {r : Sending ⊕ Except Fault Unit}
    {seen₁ seen : List Observation} : b.delivery? t = some d → Sends b t d m b₁ r seen₁ →
    b'.delivery? t = r.elim (fun s => some { d with state := s }) (fun _ => none) →
    (∀ c, b'.turnstile c = b₁.turnstile c) → (∀ c, streamOf c seen = streamOf c seen₁) →
    Acts b t (.send m) b' seen
  /-- A delivery is dropped. -/
  | stops {d : Delivery} {b' : Broker} {seen : List Observation} : b.delivery? t = some d →
    b'.delivery? t = none → (∀ c, b'.turnstile c = (b.abandon t d).turnstile c) →
    (∀ c, streamOf c seen = []) → Acts b t .stop b' seen

/-- What an event does: one task acts at the streams. -/
structure Effect (b b' : Broker) (t : Task) (m : LaneMove) (seen : List Observation) : Prop where
  others : ∀ t', t' ≠ t → b'.work? t' = b.work? t'
  sound : (∀ w, b.work? t = some w → w.Sound) → ∀ w, b'.work? t = some w → w.Sound
  acts : Acts b t m b' seen

/-- One task acts, and goes on to this work. -/
theorem effect_of_work? (hwork : ∀ t', b'.work? t' = if t' = t then w else b.work? t')
    (hsound : (∀ w', b.work? t = some w' → w'.Sound) → ∀ w', w = some w' → w'.Sound)
    (hacts : Acts b t lm b' seen) : Effect b b' t lm seen where
  others t' ht := by rw [hwork, if_neg ht]
  sound hs w' hw := by
    rw [hwork, if_pos rfl] at hw
    exact hsound hs w' hw
  acts := hacts

/-- An event that leaves the streams alone. -/
theorem effect_of_same (hwork : ∀ t, b'.work? t = b.work? t)
    (hturn : ∀ c, b'.turnstile c = b.turnstile c) (hseen : ∀ c, streamOf c seen = []) (t : Task) :
    Effect b b' t .apart seen where
  others t' _ := hwork t'
  sound hs w hw := hs w ((hwork t).symm.trans hw)
  acts := .rests (hwork t) hturn hseen

/-- A task without a delivery goes on to this work. -/
theorem effect_of_begin (hidle : b.delivery? t = none)
    (hwork : ∀ t', b'.work? t' = if t' = t then w else b.work? t')
    (hsound : ∀ w', w = some w' → w'.Sound)
    (hstart : ∀ d, w.bind Work.delivery? = some d →
      d.state = .starting ∧ (b'.session? d.target).isSome = true)
    (hturn : ∀ c, b'.turnstile c = b.turnstile c) (hseen : ∀ c, streamOf c seen = []) :
    Effect b b' t .apart seen := by
  refine effect_of_work? hwork (fun _ => hsound) (.begins hidle ?_ hturn hseen)
  intro d hd
  rw [delivery?, hwork, if_pos rfl] at hd
  exact hstart d hd

/-- A task without a delivery goes on to a point where it has nothing to write. -/
theorem effect_of_idle (hidle : b.delivery? t = none)
    (hwork : ∀ t', b'.work? t' = if t' = t then none else b.work? t')
    (hturn : ∀ c, b'.turnstile c = b.turnstile c) (hseen : ∀ c, streamOf c seen = []) :
    Effect b b' t .apart seen := by
  refine effect_of_begin hidle hwork ?_ ?_ hturn hseen
  · intro w hw
    cases hw
  · intro d hd
    cases hd

/-! ### Deliveries -/

theorem Sends.work? {d : Delivery} {m : SendMove} {r : Sending ⊕ Except Fault Unit}
    {seen : List Observation} (h : Sends b t d m b' r seen) (t' : Task) :
    b'.work? t' = b.work? t' := by
  cases h with
  | intro _ _ _ _ => exact work?_putSent

/-- A move of a delivery, once its task has taken note of it. -/
theorem Sends.effect {d : Delivery} {m : SendMove} {r : Sending ⊕ Except Fault Unit}
    (h : Sends b t d m b₁ r seen₁) (hd : b.delivery? t = some d)
    (hwork : ∀ t', b'.work? t' = if t' = t then w else b₁.work? t')
    (hsound : (∀ w', b.work? t = some w' → w'.Sound) → ∀ w', w = some w' → w'.Sound)
    (hdelivery : w.bind Work.delivery? =
      r.elim (fun s => some { d with state := s }) fun _ => none)
    (hturn : ∀ c, b'.turnstile c = b₁.turnstile c)
    (hseen : ∀ c, streamOf c seen = streamOf c seen₁) : Effect b b' t (.send m) seen := by
  refine effect_of_work? (w := w) ?_ hsound (.sends hd h ?_ hturn hseen)
  · intro t'
    rw [hwork, h.work?]
  · rw [delivery?, hwork, if_pos rfl, hdelivery]

/-- A move of the only delivery of a task. -/
theorem Sends.effect_single {d : Delivery} {m : SendMove} {r : Sending ⊕ Except Fault Unit}
    (h : Sends b t d m b₁ r seen₁) (hwork : b.work? t = some (.single d))
    (hwork' : ∀ t', b'.work? t' =
      if t' = t then r.elim (fun s => some (.single { d with state := s })) fun _ => none
      else b₁.work? t')
    (hturn : ∀ c, b'.turnstile c = b₁.turnstile c)
    (hseen : ∀ c, streamOf c seen = streamOf c seen₁) : Effect b b' t (.send m) seen := by
  have hd : b.delivery? t = some d := by
    rw [delivery?, hwork]
    rfl
  refine h.effect hd hwork' ?_ ?_ hturn hseen
  · intro hs w hw
    rcases r with s | r
    · cases hw
      show FrameWhole d.frame
      exact hs _ hwork
    · cases hw
  · rcases r <;> rfl

theorem Forwards.work? {stopped : Bool} {o : FanOut} {m : Move} {r : FanOut ⊕ Nat}
    {seen : List Observation} (h : Forwards b t stopped o m b' r seen) (t' : Task) :
    b'.work? t' = b.work? t' := by
  cases h with
  | exhausts _ _ | passes _ _ _ | reaches _ _ _ => rfl
  | goesOn _ hsends | delivers _ hsends => exact hsends.work? t'
  | fails _ hsends =>
    split_ifs
    · exact hsends.work? t'
    · exact work?_modifySession.trans (hsends.work? t')
  | stops _ _ => exact work?_modifySession

/-- The session that a message is for is there. -/
theorem isSome_of_isSubscribed {topic : String} (h : b.isSubscribed c topic = true) :
    (b.session? c).isSome = true := by
  rw [isSubscribed] at h
  cases hs : b.session? c with
  | none => simp [hs] at h
  | some s => rfl

/-- What a move of a forwarding does, once its task has taken note of it. -/
theorem Forwards.acts {stopped : Bool} {o : FanOut} {m : Move} {b₁ : Broker} {r : FanOut ⊕ Nat}
    {seen₁ seen : List Observation} (h : Forwards b t stopped o m b₁ r seen₁)
    (hwork : b.work? t = some (.spread o))
    (hwork' : b'.work? t = r.elim (fun o' => some (.spread o')) fun _ => none)
    (hsession : ∀ c, b'.session? c = b₁.session? c)
    (hturn : ∀ c, b'.turnstile c = b₁.turnstile c)
    (hseen : ∀ c, streamOf c seen = streamOf c seen₁) :
    ∃ lm : LaneMove, Acts b t lm b' seen ∧ ∀ mv, lm.move? = some mv → m = mv := by
  have hd : b.delivery? t = o.current := by
    rw [delivery?, hwork]
    rfl
  have hd' : b'.delivery? t = r.elim FanOut.current fun _ => none := by
    rw [delivery?, hwork']
    cases r <;> rfl
  cases h with
  | exhausts hcurrent _ | passes hcurrent _ _ =>
    -- Nothing is taken up.
    refine ⟨.apart, .begins (hd.trans hcurrent) (fun d h => ?_) hturn hseen, nofun⟩
    rw [hd'] at h
    cases h
  | reaches hcurrent _ hsub =>
    refine ⟨.apart, .begins (hd.trans hcurrent) (fun d h => ?_) hturn hseen, nofun⟩
    -- A session that wants the message is taken up; being subscribed it is there.
    rw [hd'] at h
    cases h
    refine ⟨rfl, ?_⟩
    rw [hsession]
    exact isSome_of_isSubscribed hsub
  | goesOn hcurrent hsends =>
    refine ⟨.send _, .sends (hd.trans hcurrent) hsends hd' hturn hseen, fun mv h => ?_⟩
    exact Option.some.inj h
  | delivers hcurrent hsends =>
    refine ⟨.send _, .sends (hd.trans hcurrent) hsends hd' hturn hseen, fun mv h => ?_⟩
    exact Option.some.inj h
  | fails hcurrent hsends =>
    refine ⟨.send _, .sends (hd.trans hcurrent) hsends hd' (fun c => (hturn c).trans ?_) hseen,
      fun mv h => Option.some.inj h⟩
    -- The session that failed may be told to end, which leaves its line as it is.
    split_ifs
    · rfl
    · exact turnstile_cancelSession
  | stops hcurrent _ =>
    exact ⟨.stop, .stops (hd.trans hcurrent) hd' hturn hseen, fun mv h => Option.some.inj h⟩

/-- A forwarding goes on with whole frames. -/
theorem Forwards.sound {stopped : Bool} {o o' : FanOut} {m : Move} {seen : List Observation}
    (h : Forwards b t stopped o m b' (.inl o') seen) (ho : (Work.spread o).Sound) :
    (Work.spread o').Sound := by
  obtain ⟨hframe, hcurrent⟩ := ho
  generalize hr : (Sum.inl o' : FanOut ⊕ Nat) = r at h
  cases h with
  | passes _ _ _ | delivers _ _ | fails _ _ =>
    cases hr
    refine ⟨hframe, fun d hd => ?_⟩
    cases hd
  | reaches _ _ _ =>
    cases hr
    refine ⟨hframe, fun d hd => ?_⟩
    cases hd
    exact hframe
  | goesOn hd _ =>
    cases hr
    refine ⟨hframe, fun d' hd' => ?_⟩
    cases hd'
    have := hcurrent _ hd
    exact this
  | exhausts _ _ | stops _ _ => cases hr

/-- A move of a forwarding, once its task has taken note of it. -/
theorem Forwards.effect {stopped : Bool} {o : FanOut} {m : Move} {r : FanOut ⊕ Nat}
    (h : Forwards b t stopped o m b₁ r seen₁) (hwork : b.work? t = some (.spread o))
    (hwork' : ∀ t', b'.work? t' =
      if t' = t then r.elim (fun o' => some (.spread o')) fun _ => none else b₁.work? t')
    (hsession : ∀ c, b'.session? c = b₁.session? c)
    (hturn : ∀ c, b'.turnstile c = b₁.turnstile c)
    (hseen : ∀ c, streamOf c seen = streamOf c seen₁) :
    ∃ lm : LaneMove, Effect b b' t lm seen ∧ ∀ mv, lm.move? = some mv → m = mv := by
  have hall (t' : Task) : b'.work? t' =
      if t' = t then r.elim (fun o' => some (.spread o')) fun _ => none else b.work? t' := by
    rw [hwork', h.work?]
  obtain ⟨lm, hacts, hlm⟩ := h.acts hwork ((hwork' t).trans (if_pos rfl)) hsession hturn hseen
  refine ⟨lm, effect_of_work? hall ?_ hacts, hlm⟩
  intro hs w hw
  rcases r with o' | n
  · cases hw
    exact h.sound (hs _ hwork)
  · cases hw

/-! ### The task of a connection -/

/-- The task begins to write an answer. -/
theorem effect_of_reply {k : Conn} {v : Version} {p : Packet} {after : AfterReply}
    (hk : b₁.conns[c]? = some k) (hs : k.session.isSome = true)
    (hidle : b.delivery? (.conn c) = none) (hwork : ∀ t, b₁.work? t = b.work? t)
    (hturn : ∀ c, b₁.turnstile c = b.turnstile c) :
    Effect b (b₁.reply c v p after) (.conn c) .apart [] := by
  refine effect_of_begin (w := some (.single (.ofPacket c v p))) hidle (fun t => ?_) ?_ ?_
    (fun c' => turnstile_setPhase.trans (hturn c')) fun _ => rfl
  · rw [reply, work?_setPhase hk, hwork]
    rfl
  · intro w hw
    cases hw
    exact Packet.frameWhole_toBytes v p
  · intro d hd
    cases hd
    refine ⟨rfl, ?_⟩
    show ((b₁.reply c v p after).session? c).isSome = true
    rw [reply, session?_setPhase, session?, hk]
    exact hs

/-- The task begins to forward a message. -/
theorem effect_of_forward {k : Conn} {p : Publish} {f : Frame} (hk : b₁.conns[c]? = some k)
    (hidle : b.delivery? (.conn c) = none) (hwork : ∀ t, b₁.work? t = b.work? t)
    (hturn : ∀ c, b₁.turnstile c = b.turnstile c) :
    Effect b (b₁.forward c p f) (.conn c) .apart [] := by
  refine effect_of_begin (w := some (.spread (b₁.fanOut p.topic f))) hidle (fun t => ?_) ?_ ?_
    (fun c' => turnstile_setPhase.trans (hturn c')) fun _ => rfl
  · rw [forward, work?_setPhase hk, hwork]
    rfl
  · intro w hw
    cases hw
    exact sound_fanOut
  · intro d hd
    cases hd

/-- The task ends the session. -/
theorem effect_of_finish {r : Except Fault Unit} (hidle : b.delivery? (.conn c) = none)
    (hwork : ∀ t, b₁.work? t = b.work? t) (hturn : ∀ c, b₁.turnstile c = b.turnstile c) :
    Effect b (b₁.finish c r) (.conn c) .apart [] :=
  effect_of_idle hidle (fun t => by rw [work?_finish, hwork])
    (fun c' => turnstile_finish.trans (hturn c')) fun _ => rfl

/-- The task waits for the next frame. -/
theorem effect_of_readOn (hidle : b.delivery? (.conn c) = none)
    (hwork : ∀ t, b₁.work? t = b.work? t) (hturn : ∀ c, b₁.turnstile c = b.turnstile c) :
    Effect b (b₁.readOn c) (.conn c) .apart [] :=
  effect_of_idle hidle (fun t => by rw [work?_readOn, hwork])
    (fun c' => turnstile_readOn.trans (hturn c')) fun _ => rfl

/-- The task takes a packet. -/
theorem Handles.effect {k : Conn} {s : Session} {f : Frame} {p : Packet}
    (h : Handles b₁ c s f p b') (hk : b₁.conns[c]? = some k) (hs : k.session = some s)
    (hidle : b.delivery? (.conn c) = none) (hwork : ∀ t, b₁.work? t = b.work? t)
    (hturn : ∀ c, b₁.turnstile c = b.turnstile c) : Effect b b' (.conn c) .apart [] := by
  have hsome : k.session.isSome = true := by
    rw [hs]
    rfl
  cases h with
  | unexpected | invalid _ | disconnects => exact effect_of_finish hidle hwork hturn
  | acknowledges _ _ | releases | pings => exact effect_of_reply hk hsome hidle hwork hturn
  | forwards _ _ => exact effect_of_forward hk hidle hwork hturn
  | subscribes | unsubscribes =>
    have hfilters {g : Session → FilterIndex} (c' : ConnId) :
        (b₁.modifySession c fun s => { s with filters := g s }).turnstile c' = b.turnstile c' := by
      rw [← hturn c']
      exact turnstile_modifySession fun _ => rfl
    refine effect_of_reply (conns_modifySession_self hk) ?_ hidle
      (fun t => work?_modifySession.trans (hwork t)) hfilters
    rw [hs]
    rfl
  | ignores _ => exact effect_of_readOn hidle hwork hturn

/-- The task opens a session: nobody else has a way to its stream yet. -/
theorem effect_of_openSession {k : Conn} {v : Version} {p : Connect} (hk : b₁.conns[c]? = some k)
    (hs : k.session = none) (hidle : b.delivery? (.conn c) = none)
    (hwork : ∀ t, b₁.work? t = b.work? t) (hturn : ∀ c, b₁.turnstile c = b.turnstile c) :
    Effect b (b₁.openSession c v p) (.conn c) .apart [] := by
  let join (k : Conn) : Conn := { k with session := some (b₁.newSession v p) }
  let opened : Broker :=
    { b₁.modifyConn c join with registry := b₁.registry ++ [c], nextId := b₁.nextId + 1 }
  have hconn : opened.conns[c]? = some (join k) := conns_modifyConn_self hk
  have hwork' (t : Task) : opened.work? t = b.work? t := by
    rw [← hwork]
    show (b₁.modifyConn c join).work? t = b₁.work? t
    exact work?_modifyConn_same fun _ => rfl
  have hturn' (c' : ConnId) : opened.turnstile c' = b.turnstile c' := by
    rw [← hturn, ← turnstile_openSession (v := v) (p := p) hk hs]
    exact turnstile_setPhase.symm
  exact effect_of_reply hconn rfl hidle hwork' hturn'

/-- The task queues for its own stream, to close it. -/
theorem effect_of_close {k : Conn} {s : Session} {r : Except Fault Unit}
    (hk : b.conns[c]? = some k) (hs : k.session = some s)
    (hidle : b.delivery? (.conn c) = none) :
    Effect b ((b.modifySession c fun s =>
      { s with turnstile := s.turnstile.enter (.conn c) }).setPhase c (.shutting r))
      (.conn c) .apart [] := by
  have hwork (t : Task) : ((b.modifySession c fun s =>
      { s with turnstile := s.turnstile.enter (.conn c) }).setPhase c (.shutting r)).work? t =
        if t = .conn c then none else b.work? t := by
    rw [work?_setPhase (conns_modifySession_self hk), work?_modifySession]
    rfl
  have hnone := congrArg (·.bind Work.delivery?) ((hwork (.conn c)).trans (if_pos rfl))
  refine effect_of_work? hwork ?_ (.enters (c := c) hidle hnone fun c' => ?_)
  · intro _ w hw
    cases hw
  · rw [turnstile_setPhase, modifySession, turnstile_modifyConn, hk, turnstile_eq hk hs]
    simp [hs]

/-- The task closes its stream, and leaves it. -/
theorem effect_of_shut {k : Conn} {s : Session} {r : Except Fault Unit}
    (hk : b.conns[c]? = some k) (hs : k.session = some s)
    (hidle : b.delivery? (.conn c) = none) :
    Effect b (b.shutStream c r) (.conn c) .apart
      [.disconnected c s.clientId, .ended c (settle r)] := by
  have hwork (t : Task) :
      (b.shutStream c r).work? t = if t = .conn c then none else b.work? t := by
    rw [shutStream, work?_modifyConn, hk]
    rfl
  have hnone := congrArg (·.bind Work.delivery?) ((hwork (.conn c)).trans (if_pos rfl))
  refine effect_of_work? hwork ?_ (.leaves (c := c) hidle hnone (fun c' => ?_) fun _ => rfl)
  · intro _ w hw
    cases hw
  · rw [shutStream, turnstile_modifyConn, hk, turnstile_eq hk hs]
    simp [hs]

theorem work?_of_phase {k : Conn} {phase : Phase} (hk : b.conns[c]? = some k)
    (hphase : k.phase = phase) : b.work? (.conn c) = phase.work? := by
  rw [work?, hk, ← hphase]
  rfl

theorem delivery?_of_phase {k : Conn} {phase : Phase} (hk : b.conns[c]? = some k)
    (hphase : k.phase = phase) : b.delivery? (.conn c) = phase.work?.bind Work.delivery? := by
  rw [delivery?, work?_of_phase hk hphase]

/-- What a move of the task of a connection does at the streams. -/
theorem Serves.effect {k : Conn} {m : Move} (hg : b.Greets) (hk : b.conns[c]? = some k)
    (h : Serves b c k m b' seen) :
    ∃ lm : LaneMove, Effect b b' (.conn c) lm seen ∧ ∀ mv, lm.move? = some mv → m = mv := by
  cases h with
  | greets _ _ _ | reads _ _ _ _ =>
    -- Reading has to do with no line.
    exact ⟨.apart, effect_of_same (fun _ => work?_takeBytes) (fun _ => turnstile_takeBytes)
      (fun _ => rfl) _, nofun⟩
  | refuses hphase _ =>
    refine ⟨.apart, effect_of_idle (delivery?_of_phase hk hphase) (fun t => ?_)
      (fun _ => turnstile_modifyConn_same fun _ => rfl) fun _ => rfl, nofun⟩
    rw [refuse, work?_modifyConn, hk]
    rfl
  | opens hphase _ _ =>
    exact ⟨.apart, effect_of_openSession (conns_modifyConn_self hk) (hg c k hk hphase)
      (delivery?_of_phase hk hphase) (fun _ => work?_takeFrame) fun _ => turnstile_takeFrame, nofun⟩
  | handles hphase hs _ _ =>
    exact ⟨.apart, (handles_handle _).effect (conns_modifyConn_self hk) hs
      (delivery?_of_phase hk hphase) (fun _ => work?_takeFrame) fun _ => turnstile_takeFrame, nofun⟩
  | undecodable hphase _ _ _ =>
    exact ⟨.apart, effect_of_finish (delivery?_of_phase hk hphase) (fun _ => work?_takeFrame)
      fun _ => turnstile_takeFrame, nofun⟩
  | ends hphase _ _ =>
    exact ⟨.apart, effect_of_finish (delivery?_of_phase hk hphase) (fun _ => rfl) fun _ => rfl,
      nofun⟩
  -- Here the task is in line for its own stream.
  | answers hphase _ hsends =>
    obtain ⟨k₁, hk₁⟩ := hsends.evolves.exists_conn hk
    exact ⟨.send _, hsends.effect_single (work?_of_phase hk hphase) (fun t => work?_setPhase hk₁)
      (fun _ => turnstile_setPhase) fun _ => rfl, fun mv h => Option.some.inj h⟩
  | answerFails hphase _ hsends =>
    exact ⟨.send _, hsends.effect_single (work?_of_phase hk hphase) (fun t => work?_finish)
      (fun _ => turnstile_finish) fun _ => rfl, fun mv h => Option.some.inj h⟩
  | @answered d after s m b₁ seen₁ hphase _ hsends =>
    obtain ⟨k₁, hk₁⟩ := hsends.evolves.exists_conn hk
    obtain ⟨w, hwork, hsound, hnone⟩ := exists_work?_afterReply s after hk₁
    -- What is reported to the host is in no stream.
    have hseen (c' : ConnId) :
        streamOf c' (seen₁ ++ (b₁.afterReply c s after).2) = streamOf c' seen₁ := by
      rw [streamOf_append]
      cases after <;> exact List.append_nil _
    exact ⟨.send m, hsends.effect (delivery?_of_phase hk hphase) hwork (fun _ => hsound) hnone
      (fun _ => turnstile_afterReply) hseen, fun mv h => Option.some.inj h⟩
  | forwards hphase _ hforwards =>
    obtain ⟨k₁, hk₁⟩ := hforwards.evolves.exists_conn hk
    exact hforwards.effect (work?_of_phase hk hphase) (fun t => work?_setPhase hk₁)
      (fun _ => session?_setPhase) (fun _ => turnstile_setPhase) fun _ => rfl
  | @forwarded p o s m b₁ n seen₁ hphase _ hforwards =>
    have hseen (c' : ConnId) :
        streamOf c' (seen₁ ++ [.message c s.clientId p.message]) = streamOf c' seen₁ := by
      rw [streamOf_append]
      exact List.append_nil _
    exact hforwards.effect (work?_of_phase hk hphase) (fun t => work?_readOn)
      (fun _ => session?_readOn) (fun _ => turnstile_readOn) hseen
  | closes hphase hs => exact ⟨.apart, effect_of_close hk hs (delivery?_of_phase hk hphase), nofun⟩
  | shuts hphase hs _ => exact ⟨.apart, effect_of_shut hk hs (delivery?_of_phase hk hphase), nofun⟩

/-! ### Calls of the host and inputs -/

theorem work?_of_call {n : Nat} {call : HostCall} (h : b.call? n = some call) :
    b.work? (.host n) = call.work? := by
  rw [work?, h]
  rfl

/-- A call that is there stays there while its work goes on. -/
theorem exists_call_of_work? {n : Nat} {w : Work} (h : b.work? (.host n) = some w) :
    ∃ call, b.call? n = some call := by
  obtain ⟨call, hcall, -⟩ := Option.bind_eq_some_iff.1 h
  exact ⟨call, hcall⟩

/-- What a move of a call of the host does at the streams. -/
theorem Calls.effect {n : Nat} {call : HostCall} {m : Move} (hcall : b.call? n = some call)
    (h : Calls b n call m b' seen) :
    ∃ lm : LaneMove, Effect b b' (.host n) lm seen ∧ ∀ mv, lm.move? = some mv → m = mv := by
  have hwork := work?_of_call hcall
  -- What is answered does not go into any stream.
  have hanswered {seen₁ : List Observation} {a : HostAnswer} (c : ConnId) :
      streamOf c (seen₁ ++ [.answered n a]) = streamOf c seen₁ := by
    rw [streamOf_append]
    exact List.append_nil _
  cases h with
  | publishes hforwards =>
    obtain ⟨old, hold⟩ := exists_call_of_work? ((hforwards.work? (.host n)).trans hwork)
    exact hforwards.effect hwork (fun t => work?_setCall hold) (fun _ => rfl) (fun _ => rfl)
      fun _ => rfl
  | published hforwards =>
    exact hforwards.effect hwork (fun t => work?_dropCall) (fun _ => rfl) (fun _ => rfl) hanswered
  | writes hsends =>
    obtain ⟨old, hold⟩ := exists_call_of_work? ((hsends.work? (.host n)).trans hwork)
    exact ⟨.send _, hsends.effect_single hwork (fun t => work?_setCall hold) (fun _ => rfl)
      fun _ => rfl, fun mv h => Option.some.inj h⟩
  | written hsends =>
    exact ⟨.send _, hsends.effect_single hwork (fun t => work?_dropCall) (fun _ => rfl) hanswered,
      fun mv h => Option.some.inj h⟩
  | served _ =>
    have hsame (t : Task) : (b.dropCall n).work? t = b.work? t := by
      rw [work?_dropCall]
      by_cases ht : t = .host n
      · subst ht
        rw [if_pos rfl, hwork]
        rfl
      · rw [if_neg ht]
    exact ⟨.apart, effect_of_same hsame (fun _ => rfl) (fun _ => rfl) _, nofun⟩

/-- A call of the host begins to write to a session, or to forward a message. -/
theorem effect_of_addCall {n : Nat} {call : HostCall}
    (hsound : ∀ w, call.work? = some w → w.Sound)
    (hstart : ∀ d, call.work?.bind Work.delivery? = some d →
      d.state = .starting ∧ (b.session? d.target).isSome = true) :
    Effect b (b.addCall n call) (.host n) .apart [] := by
  by_cases hcall : b.call? n = none
  · have hidle : b.delivery? (.host n) = none := by
      rw [delivery?, work?, hcall]
      rfl
    refine effect_of_begin hidle (fun t => ?_) hsound hstart (fun _ => rfl) fun _ => rfl
    rw [work?_addCall]
    simp only [hcall, and_true]
  · have hsame (t : Task) : (b.addCall n call).work? t = b.work? t := by
      rw [work?_addCall, if_neg fun h => hcall h.2]
    exact effect_of_same hsame (fun _ => rfl) (fun _ => rfl) _

/-- The host begins to write a frame to a session. -/
theorem effect_of_write {n : Nat} {frame : Except Fault Bytes} {s : Session}
    (hs : b.session? c = some s) (hframe : FrameWhole frame) :
    Effect b (b.addCall n (.write ⟨c, frame, .starting⟩)) (.host n) .apart [] := by
  refine effect_of_addCall (fun w hw => ?_) (fun d hd => ?_)
  · cases hw
    exact hframe
  · cases hd
    exact ⟨rfl, by rw [hs]; rfl⟩

theorem Requests.effect {i : BrokerInput} {n : Nat} {call : HostCall} (h : Requests b i n call) :
    Effect b (b.addCall n call) (.host n) .apart [] := by
  cases h with
  | publishes _ =>
    refine effect_of_addCall (fun w hw => ?_) fun d hd => ?_
    · cases hw
      exact sound_fanOut
    · cases hd
  | @writesPacket _ _ p s hs => exact effect_of_write hs (p.frameWhole_toBytes s.version)
  | @writesFrame _ _ f _ hs => exact effect_of_write hs f.frameWhole_toBytes

/-- The host is told to wait for the end of the broker, which is nothing to do. -/
theorem work?_serve {n : Nat} :
    ({ b with serving := true }.addCall n .serve).work? t = b.work? t := by
  rw [work?_addCall]
  split_ifs with h
  · obtain ⟨rfl, hcall⟩ := h
    rw [work?, show b.call? n = none from hcall]
    rfl
  · exact work?_congr rfl rfl

/-- What an input does at the streams. -/
theorem Accepts.effect {i : BrokerInput} {seen : List Observation} (h : Accepts b i b' seen) :
    ∃ t, Effect b b' t .apart seen := by
  have hsame (hwork : ∀ t, b'.work? t = b.work? t) (hturn : ∀ c, b'.turnstile c = b.turnstile c)
      (hseen : ∀ c, streamOf c seen = []) : ∃ t, Effect b b' t .apart seen :=
    ⟨.host 0, effect_of_same hwork hturn hseen _⟩
  cases h with
  | opens => exact hsame (fun _ => work?_addConn) (fun _ => turnstile_addConn) fun _ => rfl
  | links _ _ _ | cancels =>
    exact hsame (fun _ => work?_modifyConn_same fun _ => rfl)
      (fun _ => turnstile_modifyConn_same fun _ => rfl) fun _ => rfl
  | closes =>
    exact hsame (fun _ => work?_modifySession) (fun _ => turnstile_cancelSession) fun _ => rfl
  | shutsDown | elapses =>
    exact hsame (fun _ => work?_congr rfl rfl) (fun _ => turnstile_congr rfl) fun _ => rfl
  | begins hrequests => exact ⟨_, hrequests.effect⟩
  | serves _ => exact hsame (fun _ => work?_serve) (fun _ => turnstile_congr rfl) fun _ => rfl
  | declines hdeclines =>
    refine hsame (fun _ => rfl) (fun _ => rfl) fun _ => ?_
    cases hdeclines <;> rfl

/-! ### Every event -/

/-- **What an event does at the streams**: one task acts, and if it goes on with a frame or drops
one, that is its move. -/
theorem next?_effect {e : Event} {seen : List Observation} (hg : b.Greets)
    (h : b.next? e = some (b', seen)) :
    ∃ (t : Task) (lm : LaneMove), Effect b b' t lm seen ∧
      ∀ mv, lm.move? = some mv → e = .move (.task t mv) := by
  cases e with
  | input i =>
    obtain ⟨t, heffect⟩ := (accepts_of_next h).effect
    exact ⟨t, .apart, heffect, nofun⟩
  | move a =>
    cases step_cases h with
    | @conn c k m b' seen hk hserves =>
      obtain ⟨lm, heffect, hlm⟩ := hserves.effect hg hk
      exact ⟨.conn c, lm, heffect, fun mv hmv => by rw [hlm mv hmv]⟩
    | @host n call m b' seen hcall hcalls =>
      obtain ⟨lm, heffect, hlm⟩ := hcalls.effect hcall
      exact ⟨.host n, lm, heffect, fun mv hmv => by rw [hlm mv hmv]⟩
    | relay _ _ _ _ =>
      exact ⟨.host 0, .apart, effect_of_same (fun _ => work?_modifySession)
        (fun _ => turnstile_cancelSession) (fun _ => rfl) _, nofun⟩

end Broker
end Mqtt
