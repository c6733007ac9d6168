import Mqtt.Proofs.Broker.Callbacks
/-!
# Who is registered

A session is registered from the CONNECT that opens it until the loop that serves it ends, however
it ends (`Quits`): that is `registry_of_replay`. `membership_of_replay` puts together what holds of
the registry at every moment of a run: besides who is in it, that the sessions are numbered one
after the other and no number is given twice (`Numbered`), and that the registry of a later moment
is what is left of the one now, in its order, with new sessions behind it (`Succeeds`).

The three rest on one inversion of an event, `next?_enrols`: nobody comes or goes, or one session
comes with the next number, or one goes because of one of the reasons in `Quits`.
-/

namespace Mqtt
namespace Broker

variable {b b' b₁ b₂ : Broker} {c d : ConnId} {t : Task} {m : Move} {e : Event} {es : List Event}
  {k : Conn} {s : Session} {r : Except Fault Unit} {seen more : List Observation}
  {opened : List ConnId}

/-! ### How a session ends -/

/-- Why the loop that serves a session ends, and with what result. -/
inductive Quits (c : ConnId) (b : Broker) : Event → Except Fault Unit → Prop
  /-- The client sends a DISCONNECT. -/
  | disconnects {k : Conn} {s : Session} {since : Nat} {f : Frame} {a : Assembler} :
    b.conns[c]? = some k → k.phase = .reading since → k.session = some s →
    k.assembler.next = .ok (some (f, a)) → Packet.decode s.version f = .ok .disconnect →
    Quits c b (.move (.task (.conn c) .dispatch)) (.ok ())
  /-- The client sends another CONNECT. -/
  | repeats {k : Conn} {s : Session} {since : Nat} {f : Frame} {a : Assembler} {p : Connect} :
    b.conns[c]? = some k → k.phase = .reading since → k.session = some s →
    k.assembler.next = .ok (some (f, a)) → Packet.decode s.version f = .ok (.connect p) →
    Quits c b (.move (.task (.conn c) .dispatch)) (violate .secondConnect)
  /-- The client publishes on a topic that is none. -/
  | misnames {k : Conn} {s : Session} {since : Nat} {f : Frame} {a : Assembler} {p : Publish}
    {e : Fault} : b.conns[c]? = some k → k.phase = .reading since → k.session = some s →
    k.assembler.next = .ok (some (f, a)) → Packet.decode s.version f = .ok (.publish p) →
    Topic.validate p.topic = .error e →
    Quits c b (.move (.task (.conn c) .dispatch)) (.error e)
  /-- The client sends a frame that cannot be decoded. -/
  | undecodable {k : Conn} {s : Session} {since : Nat} {f : Frame} {a : Assembler} {e : Fault} :
    b.conns[c]? = some k → k.phase = .reading since → k.session = some s →
    k.assembler.next = .ok (some (f, a)) → Packet.decode s.version f = .error e →
    Quits c b (.move (.task (.conn c) .dispatch)) (.error e)
  /-- The stream ends, what comes is no frame, a token is cancelled, or nothing has come for too
  long. -/
  | givesUp {k : Conn} {s : Session} {since : Nat} {m : Move} {f : Fault} :
    b.conns[c]? = some k → k.phase = .reading since → k.session = some s →
    Ends b k s since m f → Quits c b (.move (.task (.conn c) m)) (.error f)
  /-- An answer cannot be written, or not any more. -/
  | fails {k : Conn} {s : Session} {d : Delivery} {after : AfterReply} {m : SendMove} {b' : Broker}
    {f : Fault} {seen : List Observation} : b.conns[c]? = some k →
    k.phase = .replying d after → k.session = some s →
    Sends b (.conn c) d m b' (.inr (.error f)) seen →
    Quits c b (.move (.task (.conn c) (.send m))) (.error f)

/-! ### What an event does to the registry and to the numbers -/

/-- What an event does to the registry, and which number is the next one then. -/
inductive Enrols (b b' : Broker) : Event → Prop
  /-- Nobody comes or goes. -/
  | stays {e : Event} : b'.registry = b.registry → b'.nextId = b.nextId → Enrols b b' e
  /-- A session is opened for a CONNECT. It gets the next number. -/
  | comes {c : ConnId} {k : Conn} {f : Frame} {a : Assembler} {v : Version} {p : Connect} :
    b.conns[c]? = some k → k.phase = .greeting → k.session = none →
    k.assembler.next = .ok (some (f, a)) → greet f = .ok (v, p) →
    b'.session? c = some (b.newSession v p) → b'.registry = b.registry ++ [c] →
    b'.nextId = b.nextId + 1 → Enrols b b' (.move (.task (.conn c) .dispatch))
  /-- The loop that serves a session ends. -/
  | goes {c : ConnId} {e : Event} {r : Except Fault Unit} : Quits c b e r →
    b'.registry = b.registry.erase c → b'.nextId = b.nextId → Enrols b b' e

theorem Sends.nextId {d : Delivery} {m : SendMove} {r : Sending ⊕ Except Fault Unit}
    (h : Sends b t d m b' r seen) : b'.nextId = b.nextId := by
  cases h with
  | intro _ _ _ _ => rfl

theorem Forwards.nextId {stopped : Bool} {o : FanOut} {r : FanOut ⊕ Nat}
    (h : Forwards b t stopped o m b' r seen) : b'.nextId = b.nextId := by
  cases h with
  | exhausts _ _ | passes _ _ _ | reaches _ _ _ | stops _ _ => rfl
  | goesOn _ hsends | delivers _ hsends => exact hsends.nextId
  | fails _ hsends => split_ifs <;> exact hsends.nextId

/-- The client id of a session that is opened. -/
theorem clientId_newSession_ne (v : Version) (p : Connect) : (b.newSession v p).clientId ≠ "" := by
  unfold newSession
  dsimp only
  split_ifs with h
  · intro heq
    have := congrArg String.length heq
    simp [String.length_append] at this
  · intro heq
    rw [heq] at h
    exact h rfl

theorem Handles.enrols {f : Frame} {a : Assembler} {p : Packet} {since : Nat}
    (hk : b.conns[c]? = some k) (hphase : k.phase = .reading since) (hs : k.session = some s)
    (hnext : k.assembler.next = .ok (some (f, a))) (hdecode : Packet.decode s.version f = .ok p)
    (h : Handles (b.takeFrame c a) c s f p b') :
    Enrols b b' (.move (.task (.conn c) .dispatch)) := by
  cases h with
  | unexpected => exact .goes (.repeats hk hphase hs hnext hdecode) rfl rfl
  | invalid hvalid => exact .goes (.misnames hk hphase hs hnext hdecode hvalid) rfl rfl
  | disconnects => exact .goes (.disconnects hk hphase hs hnext hdecode) rfl rfl
  | acknowledges _ _ | forwards _ _ | releases | subscribes | unsubscribes | pings | ignores _ =>
    exact .stays rfl rfl

theorem Serves.enrols (hg : b.Greets) (hk : b.conns[c]? = some k) (h : Serves b c k m b' seen) :
    Enrols b b' (.move (.task (.conn c) m)) := by
  cases h with
  | greets _ _ _ | reads _ _ _ _ | refuses _ _ | closes _ _ | shuts _ _ _ => exact .stays rfl rfl
  | @opens f a v p hphase hnext hgreet =>
    have hconn : (b.takeFrame c a).conns[c]? = some { k with assembler := a } :=
      conns_modifyConn_self hk
    -- The number is taken from the counter, and the counter moves past it.
    refine .comes hk hphase (hg c k hk hphase) hnext hgreet ?_ rfl rfl
    rw [openSession, reply, session?_setPhase]
    show ((b.takeFrame c a).modifyConn c _).session? c = _
    rw [session?_modifyConn, if_pos rfl, hconn]
    rfl
  | handles hphase hs hnext hdecode =>
    exact (handles_handle _).enrols hk hphase hs hnext hdecode
  | undecodable hphase hs hnext hdecode =>
    exact .goes (.undecodable hk hphase hs hnext hdecode) rfl rfl
  | ends hphase hs hends => exact .goes (.givesUp hk hphase hs hends) rfl rfl
  | answers _ _ hsends => exact .stays hsends.keeps.registry hsends.nextId
  | answerFails hphase hs hsends =>
    -- The registry is that of before the write, less this session.
    refine .goes (.fails hk hphase hs hsends) ?_ hsends.nextId
    rw [finish, hsends.keeps.registry.symm]
    rfl
  | @answered _ after _ _ _ _ _ _ hsends =>
    cases after <;> exact .stays hsends.keeps.registry hsends.nextId
  | forwards _ _ hforwards | forwarded _ _ hforwards =>
    exact .stays hforwards.keeps.registry hforwards.nextId

theorem Calls.nextId {n : Nat} {call : HostCall} (h : Calls b n call m b' seen) :
    b'.nextId = b.nextId := by
  cases h with
  | publishes hforwards | published hforwards => exact hforwards.nextId
  | writes hsends | written hsends => exact hsends.nextId
  | served _ => rfl

theorem Accepts.nextId {i : BrokerInput} (h : Accepts b i b' seen) : b'.nextId = b.nextId := by
  cases h <;> rfl

/-- **Who comes and who goes.** -/
theorem next?_enrols (hg : b.Greets) (h : b.next? e = some (b', seen)) : Enrols b b' e := by
  cases e with
  | input i =>
    have haccepts := accepts_of_next h
    exact .stays haccepts.keeps.registry haccepts.nextId
  | move a =>
    cases step_cases h with
    | conn hk hserves => exact hserves.enrols hg hk
    | host _ hcalls => exact .stays hcalls.keeps.registry hcalls.nextId
    | relay _ _ _ _ => exact .stays rfl rfl

/-- A packet that has been decoded is handled. -/
theorem next?_of_decode {since : Nat} {f : Frame} {a : Assembler} {p : Packet}
    (hk : b.conns[c]? = some k) (hphase : k.phase = .reading since) (hs : k.session = some s)
    (hframe : k.assembler.next = .ok (some (f, a))) (hdecode : Packet.decode s.version f = .ok p) :
    b.next? (.move (.task (.conn c) .dispatch)) =
      some ((b.takeFrame c a).handle c s f p, []) := by
  show b.connStep c .dispatch = _
  simp only [connStep, hk, hphase, hs, hframe, hdecode, Option.bind_eq_bind, Option.bind_some]
  rfl

/-- Every way to end is a way to `finish`, and the result is kept until the stream is shut. -/
theorem Quits.exists_finish (h : Quits c b e r) :
    ∃ (b₁ : Broker) (seen : List Observation),
      b₁.registry = b.registry ∧ b.next? e = some (b₁.finish c r, seen) := by
  cases h with
  | @disconnects k s since f a hk hphase hs hframe hdecode =>
    exact ⟨b.takeFrame c a, [], rfl, next?_of_decode hk hphase hs hframe hdecode⟩
  | @repeats k s since f a p hk hphase hs hframe hdecode =>
    exact ⟨b.takeFrame c a, [], rfl, next?_of_decode hk hphase hs hframe hdecode⟩
  | @misnames k s since f a p e hk hphase hs hframe hdecode hvalid =>
    refine ⟨b.takeFrame c a, [], rfl, ?_⟩
    rw [next?_of_decode hk hphase hs hframe hdecode]
    unfold handle
    dsimp only
    rw [hvalid]
  | @undecodable k s since f a e hk hphase hs hframe hdecode =>
    refine ⟨b.takeFrame c a, [], rfl, ?_⟩
    show b.connStep c .dispatch = _
    simp only [connStep, hk, hphase, hs, hframe, hdecode, Option.bind_eq_bind, Option.bind_some]
    rfl
  | givesUp hk hphase hs hends =>
    refine ⟨b, [], rfl, ?_⟩
    -- No packet is taken here, so the step is read off the loop itself.
    cases hends with
    | ended hnone hread =>
      simp [next?, step, connStep, receive, hk, hphase, hs, hnone, hread]
    | malformed herror => simp [next?, step, connStep, hk, hphase, hs, herror]
    | cancelled hcancelled =>
      rw [Bool.or_eq_true] at hcancelled
      simp [next?, step, connStep, hk, hphase, hs, hcancelled]
    | expired hpatience hlate hstarved =>
      simp [next?, step, connStep, hk, hphase, hs, hpatience, hlate, hstarved]
  | @fails k s d after m b₁ f seen hk hphase hs hsends =>
    exact ⟨b₁, seen, hsends.keeps.registry, by
      simp [next?, step, connStep, hk, hphase, hs, sendStep_of_sends hsends]⟩

/-- Whoever is served no longer has left the registry. -/
theorem Quits.not_mem (h : Quits c b e r) (hnodup : b.registry.Nodup)
    (hnext : b.next? e = some (b', seen)) : c ∉ b'.registry := by
  obtain ⟨b₁, seen₁, hregistry, hfinish⟩ := h.exists_finish
  obtain ⟨rfl, -⟩ := Prod.mk.inj (Option.some.inj (hfinish.symm.trans hnext))
  show c ∉ b₁.registry.erase c
  rw [hregistry]
  exact hnodup.not_mem_erase

/-! ### The numbers -/

/-- The sessions that have been opened, in the order of their numbers: 1, 2, 3 and so on. -/
structure Numbered (b : Broker) (opened : List ConnId) : Prop where
  ids : ∀ i c, opened[i]? = some c →
    ∃ s, b.session? c = some s ∧ s.id = i + 1 ∧ s.clientId ≠ ""
  all : ∀ c, (b.session? c).isSome = true → c ∈ opened
  next : b.nextId = opened.length + 1
  registry : b.registry.Sublist opened

theorem numbered_start (maxPacketSize now : Nat) : Numbered (start maxPacketSize now) [] where
  ids i c h := by simp at h
  all c h := by cases h
  next := rfl
  registry := .refl []

/-- The registry does not tell who else has a session, but that somebody new gets one it does. -/
theorem Joins.session_or_mem (h : Joins b b' e) (hs : (b'.session? c).isSome = true) :
    (b.session? c).isSome = true ∨ b.session? c = none ∧ b'.registry = b.registry ++ [c] := by
  cases h with
  | keeps h => exact .inl (h.session c hs)
  | @opens d hnone _ hregistry hothers =>
    by_cases hd : c = d
    · subst hd
      exact .inr ⟨hnone, hregistry⟩
    · exact .inl (hothers c hd hs)
  | ends _ _ h => exact .inl (h c hs)

theorem Joins.session_of_length_le (h : Joins b b' e)
    (hlength : b'.registry.length ≤ b.registry.length) (hs : (b'.session? c).isSome = true) :
    (b.session? c).isSome = true := by
  rcases h.session_or_mem hs with hold | ⟨-, hregistry⟩
  · exact hold
  · rw [hregistry, List.length_append, List.length_singleton] at hlength
    omega

theorem Numbered.clientId_ne (h : Numbered b opened) (hs : b.session? c = some s) :
    s.clientId ≠ "" := by
  obtain ⟨i, hi⟩ := List.mem_iff_getElem?.1 (h.all c (by rw [hs]; rfl))
  obtain ⟨t, ht, -, hclient⟩ := h.ids i c hi
  obtain rfl := Option.some.inj (hs.symm.trans ht)
  exact hclient

/-- No number is given to two sessions. -/
theorem Numbered.eq_of_id (h : Numbered b opened) {s' : Session} (hs : b.session? c = some s)
    (hs' : b.session? d = some s') (hid : s.id = s'.id) : c = d := by
  obtain ⟨i, hi⟩ := List.mem_iff_getElem?.1 (h.all c (by rw [hs]; rfl))
  obtain ⟨j, hj⟩ := List.mem_iff_getElem?.1 (h.all d (by rw [hs']; rfl))
  obtain ⟨t, ht, htid, -⟩ := h.ids i c hi
  obtain ⟨t', ht', htid', -⟩ := h.ids j d hj
  rw [hs, Option.some.injEq] at ht
  rw [hs', Option.some.injEq] at ht'
  have hij : i = j := by
    rw [← ht, hid, ht'] at htid
    omega
  rw [hij, hj, Option.some.injEq] at hi
  exact hi.symm

/-- The registry is in the order of the numbers. -/
theorem Numbered.ascending (h : Numbered b opened) :
    b.registry.Pairwise fun c d => ∀ s s', b.session? c = some s → b.session? d = some s' →
      s.id < s'.id := by
  suffices hopened : opened.Pairwise fun c d => ∀ s s', b.session? c = some s →
      b.session? d = some s' → s.id < s'.id from hopened.sublist h.registry
  refine List.pairwise_iff_getElem.2 fun i j hi hj hij s s' hs hs' => ?_
  obtain ⟨t, ht, htid, -⟩ := h.ids i _ (List.getElem?_eq_getElem hi)
  obtain ⟨t', ht', htid', -⟩ := h.ids j _ (List.getElem?_eq_getElem hj)
  rw [hs, Option.some.injEq] at ht
  rw [hs', Option.some.injEq] at ht'
  rw [ht, ht']
  omega

/-- **Every event keeps the numbers right.** -/
theorem Numbered.step (h : Numbered b opened) (he : b.Evolves b') (hj : Joins b b' e)
    (henrols : Enrols b b' e) : ∃ opened', Numbered b' opened' := by
  have hids : ∀ i c, opened[i]? = some c →
      ∃ s, b'.session? c = some s ∧ s.id = i + 1 ∧ s.clientId ≠ "" := by
    intro i c hi
    obtain ⟨s, hs, hid, hclient⟩ := h.ids i c hi
    obtain ⟨s', hs', hsame⟩ := he.exists_session hs
    exact ⟨s', hs', hsame.id.trans hid, hsame.clientId ▸ hclient⟩
  cases henrols with
  | stays hregistry hnext =>
    exact ⟨opened, hids, fun c hc => h.all c (hj.session_of_length_le (by rw [hregistry]) hc),
      hnext.trans h.next, hregistry ▸ h.registry⟩
  | goes _ hregistry hnext =>
    refine ⟨opened, hids, fun c hc => h.all c (hj.session_of_length_le ?_ hc),
      hnext.trans h.next, ?_⟩
    · rw [hregistry]
      exact List.length_erase_le
    · rw [hregistry]
      exact List.erase_sublist.trans h.registry
  | @comes c k f a v p _ _ _ _ _ hs hregistry hnext =>
    refine ⟨opened ++ [c], fun i d hi => ?_, fun d hd => ?_, ?_, ?_⟩
    · rw [List.getElem?_append] at hi
      split_ifs at hi with hlt
      · exact hids i d hi
      · -- The new session gets the next number.
        obtain ⟨hi₀, rfl⟩ : i - opened.length = 0 ∧ c = d := by
          rw [List.getElem?_eq_some_iff] at hi
          obtain ⟨hlt', heq⟩ := hi
          rw [List.length_singleton] at hlt'
          have hzero : i - opened.length = 0 := by omega
          simpa [hzero] using heq
        refine ⟨_, hs, ?_, clientId_newSession_ne v p⟩
        show b.nextId = i + 1
        rw [h.next]
        omega
    · rw [List.mem_append, List.mem_singleton]
      rcases hj.session_or_mem hd with hold | ⟨-, hregistry'⟩
      · exact .inl (h.all d hold)
      · rw [hregistry, List.append_cancel_left_eq, List.singleton_inj] at hregistry'
        exact .inr hregistry'.symm
    · rw [hnext, h.next, List.length_append, List.length_singleton]
    · rw [hregistry]
      exact h.registry.append (.refl _)

theorem numbered_of_replay {maxPacketSize now : Nat}
    (h : (start maxPacketSize now).replay es = some (b, seen)) : ∃ opened, Numbered b opened := by
  refine replay_induction (P := fun _ b _ => ∃ opened, Numbered b opened)
    ⟨[], numbered_start _ _⟩ ?_ h
  rintro es e b₁ seen₁ b₂ more hrun hnext ⟨opened, hnumbered⟩
  have hg := (exclusive_of_replay hrun).1.greets
  exact hnumbered.step (next?_evolves hg hnext) (next?_joins hg hnext) (next?_enrols hg hnext)

/-! ### Who is registered -/

/-- The loop that serves a session does not end in a run. -/
def Served (c : ConnId) (b : Broker) (es : List Event) : Prop :=
  b.Never es fun b e => ∃ r, Quits c b e r

theorem Quits.exists_session (h : Quits c b e r) : ∃ s, b.session? c = some s := by
  cases h with
  | disconnects hk _ hs _ _ | repeats hk _ hs _ _ | misnames hk _ hs _ _ _
  | undecodable hk _ hs _ _ | givesUp hk _ hs _ | fails hk _ hs _ =>
    exact ⟨_, session?_eq_some.2 ⟨_, hk, hs⟩⟩

/-- Whoever is registered had a session before the event, or gets one by it. -/
theorem Enrols.mem_of_mem (h : Enrols b b' e) (hs : (b.session? c).isSome = true)
    (hc : c ∈ b'.registry) : c ∈ b.registry := by
  cases h with
  | stays hregistry _ => rwa [hregistry] at hc
  | goes _ hregistry _ =>
    rw [hregistry] at hc
    exact List.mem_of_mem_erase hc
  | comes hk _ hnone _ _ _ hregistry _ =>
    rw [hregistry, List.mem_append, List.mem_singleton] at hc
    rcases hc with hc | rfl
    · exact hc
    · rw [session?_of_conn hk, hnone] at hs
      cases hs

/-- Whoever goes on being served stays registered. -/
theorem Enrols.mem (h : Enrols b b' e) (hc : c ∈ b.registry) (hserved : ∀ r, ¬Quits c b e r) :
    c ∈ b'.registry := by
  cases h with
  | stays hregistry _ => rwa [hregistry]
  | comes _ _ _ _ _ _ hregistry _ =>
    rw [hregistry]
    exact List.mem_append_left _ hc
  | @goes d _ r hquits hregistry _ =>
    have hne : c ≠ d := by
      rintro rfl
      exact hserved r hquits
    rw [hregistry]
    exact (List.mem_erase_of_ne hne).2 hc

/-- **The registry names the sessions that have been opened and are served.** -/
theorem registry_of_replay {maxPacketSize now : Nat}
    (h : (start maxPacketSize now).replay es = some (b, seen)) (c : ConnId) :
    c ∈ b.registry ↔ (b.session? c).isSome = true ∧ Served c (start maxPacketSize now) es := by
  refine replay_induction (P := fun es b _ => c ∈ b.registry ↔
    (b.session? c).isSome = true ∧ Served c (start maxPacketSize now) es) ?_ ?_ h
  · exact iff_of_false nofun fun h => nomatch h.1
  intro es e b₁ seen₁ b₂ more hrun hnext ih
  have hg := (exclusive_of_replay hrun).1.greets
  have he := next?_evolves hg hnext
  have hj := next?_joins hg hnext
  have henrols := next?_enrols hg hnext
  have hregistered := registered_of_replay hrun
  have hserved : Served c (start maxPacketSize now) (es ++ [e]) ↔
      Served c (start maxPacketSize now) es ∧ ∀ r, ¬Quits c b₁ e r := by
    rw [Served, never_concat hrun, not_exists]
    rfl
  -- Who has no session has not been served, so no such loop has ended.
  have hfresh (hnone : b₁.session? c = none) : Served c (start maxPacketSize now) es := by
    rintro es₁ e₁ b₀ seen₀ hp hrun₀ ⟨r, hquits⟩
    obtain ⟨s, hs⟩ := hquits.exists_session
    obtain ⟨s', hs', -⟩ := (replay_evolves_since (greets_start _ _) hrun
      ((List.prefix_append _ _).trans hp) hrun₀).exists_session hs
    rw [hnone] at hs'
    cases hs'
  rw [hserved]
  constructor
  · intro hc
    refine ⟨(hregistered.step he hj).session c hc, ?_, fun r hquits =>
      hquits.not_mem hregistered.nodup hnext hc⟩
    rcases hs : b₁.session? c with _ | s
    · exact hfresh hs
    · exact (ih.1 (henrols.mem_of_mem (by rw [hs]; rfl) hc)).2
  · rintro ⟨hs, hbefore, hlast⟩
    rcases hj.session_or_mem hs with hold | ⟨-, hregistry⟩
    · exact henrols.mem (ih.2 ⟨hold, hbefore⟩) hlast
    · rw [hregistry]
      exact List.mem_append_right _ (List.mem_singleton_self c)

/-! ### The registry over time -/

/-- What becomes of the sessions of an earlier moment. They keep their numbers and their client
ids. Those that are still registered stand in their old order, and whoever has come since stands
behind them; a session that had left by then is not among them. -/
structure Succeeds (b₁ b : Broker) : Prop where
  session : ∀ c s, b₁.session? c = some s →
    ∃ s', b.session? c = some s' ∧ s'.id = s.id ∧ s'.clientId = s.clientId
  registry : ∃ kept new, b.registry = kept ++ new ∧ kept.Sublist b₁.registry ∧
    ∀ c ∈ new, b₁.session? c = none

theorem Succeeds.step (h : Succeeds b₁ b) (he : b.Evolves b') (henrols : Enrols b b' e) :
    Succeeds b₁ b' := by
  refine ⟨fun c s hs => ?_, ?_⟩
  · obtain ⟨s', hs', hid, hclient⟩ := h.session c s hs
    obtain ⟨s'', hs'', hsame⟩ := he.exists_session hs'
    exact ⟨s'', hs'', hsame.id.trans hid, hsame.clientId.trans hclient⟩
  obtain ⟨kept, new, hregistry, hkept, hnew⟩ := h.registry
  cases henrols with
  | stays hsame _ => exact ⟨kept, new, hsame.trans hregistry, hkept, hnew⟩
  | @comes c k _ _ _ _ hk _ hnone _ _ _ hadded _ =>
    refine ⟨kept, new ++ [c], ?_, hkept, fun d hd => ?_⟩
    · rw [hadded, hregistry, List.append_assoc]
    · rw [List.mem_append, List.mem_singleton] at hd
      rcases hd with hd | rfl
      · exact hnew d hd
      · -- A session of the earlier moment would still be there.
        rcases hs₁ : b₁.session? d with _ | s₁
        · rfl
        · obtain ⟨s', hs', -⟩ := h.session d s₁ hs₁
          rw [session?_of_conn hk, hnone] at hs'
          cases hs'
  | @goes c _ _ _ herased _ =>
    rw [hregistry, List.erase_append] at herased
    split_ifs at herased with hin
    · exact ⟨kept.erase c, new, herased, List.erase_sublist.trans hkept, hnew⟩
    · exact ⟨kept, new.erase c, herased, hkept, fun d hd => hnew d (List.mem_of_mem_erase hd)⟩

theorem succeeds_of_replay (hg : b₁.Greets) (h : b₁.replay es = some (b, seen)) :
    Succeeds b₁ b := by
  refine replay_induction (P := fun _ b _ => Succeeds b₁ b) ?_ ?_ h
  · exact ⟨fun c s hs => ⟨s, hs, rfl, rfl⟩, b₁.registry, [], (List.append_nil _).symm, .refl _,
      nofun⟩
  intro es e b₂ seen₂ b' more hrun hnext ih
  have hg₂ := (replay_evolves hg hrun).greets hg
  exact ih.step (next?_evolves hg₂ hnext) (next?_enrols hg₂ hnext)

/-! ### The whole of it -/

/-- The registry and the sessions at a moment of a run. -/
structure Membership (b₀ : Broker) (es : List Event) (b : Broker) : Prop where
  /-- A session is registered if the first frame was a CONNECT that its codec accepts, and the loop
  that serves it has not ended. -/
  served : ∀ c, c ∈ b.registry ↔ Frame.Opens (framesRead c b₀ es) ∧ Served c b₀ es
  /-- Whoever is registered has a session with a client id. -/
  named : ∀ c ∈ b.registry, ∃ s, b.session? c = some s ∧ s.clientId ≠ ""
  /-- The sessions have the numbers from 1 on, so as long as there have been fewer than 2 ^ 64 of
  them, every number is one of 64 bits. -/
  numbered : ∃ opened, Numbered b opened
  /-- No number is given to two sessions. -/
  distinct : ∀ c d s s', b.session? c = some s → b.session? d = some s' → s.id = s'.id → c = d
  /-- The numbers in the registry ascend. -/
  ascending : b.registry.Pairwise fun c d => ∀ s s', b.session? c = some s →
    b.session? d = some s' → s.id < s'.id
  /-- What was there at an earlier moment is still there, in its order, or gone for good. -/
  since : b₀.Always es fun b₁ _ => Succeeds b₁ b

/-- **A session is registered from its CONNECT until it is served no longer**, at every moment of
every run. Its number is its own for ever, and it never comes back. -/
theorem membership_of_replay {maxPacketSize now : Nat}
    (h : (start maxPacketSize now).replay es = some (b, seen)) :
    Membership (start maxPacketSize now) es b := by
  obtain ⟨opened, hnumbered⟩ := numbered_of_replay h
  refine ⟨fun c => ?_, fun c hc => ?_, ⟨opened, hnumbered⟩,
    fun _ _ _ _ hs hs' => hnumbered.eq_of_id hs hs', hnumbered.ascending, ?_⟩
  · rw [registry_of_replay h c, (told_of_replay h c).opened]
  · obtain ⟨s, hs⟩ := Option.isSome_iff_exists.1 ((registered_of_replay h).session c hc)
    exact ⟨s, hs, hnumbered.clientId_ne hs⟩
  · intro es₁ b₁ seen₁ hp hrun₁
    have hg₁ := (exclusive_of_replay hrun₁).1.greets
    obtain ⟨es₂, more, -, hrest, -⟩ := Machine.exists_rest_of_prefix h hp hrun₁
    exact succeeds_of_replay hg₁ hrest

/-- A client comes and goes, and another one comes that has given no client id. -/
def changeOfGuests : List Event :=
  let connect : Bytes := [0x10, 12, 0, 4, 0x4d, 0x51, 0x54, 0x54, 4, 2, 0, 60, 0, 0]
  briefVisit ++ [.input (.opens "t" 64), .input (.peerWrites 1 connect)] ++ answering 1

/-- Only the second one is registered in the end, by a name that the broker has made up. -/
theorem membership_changeOfGuests :
    ∃ b seen, (start 1000 0).replay changeOfGuests = some (b, seen) ∧
      Membership (start 1000 0) changeOfGuests b ∧ b.registry = [1] ∧
      (b.session? 1).map (fun s => (s.id, s.clientId)) = some (2, "auto-2") := by
  have hend : ((start 1000 0).replay changeOfGuests).map (fun r => (r.1.registry,
      (r.1.session? 1).map fun s => (s.id, s.clientId))) = some ([1], some (2, "auto-2")) := by
    decide +kernel
  obtain ⟨⟨b, seen⟩, hrun, hb⟩ := Option.map_eq_some_iff.1 hend
  obtain ⟨hregistry, hsession⟩ := Prod.mk.inj hb
  exact ⟨b, seen, hrun, membership_of_replay hrun, hregistry, hsession⟩

end Broker
end Mqtt
