import Mqtt.Proofs.Broker.Runs
/-!
# The registry of a broker

The registry names every session that is not to end, and names it once (`Registered`). A session
comes into it when it is opened, at the end, and leaves it when it ends; no other event changes it
(`next?_joins`).
-/

namespace Mqtt
namespace Broker

variable {b b' b₁ b₂ : Broker} {c : ConnId} {t : Task} {e : Event}

/-- The registry names the sessions that are not to end, each one once. -/
structure Registered (b : Broker) : Prop where
  nodup : b.registry.Nodup
  session : ∀ c ∈ b.registry, (b.session? c).isSome = true
  lives : ∀ c s, b.session? c = some s → c ∈ b.registry ∨ s.cancelled = true

/-- No session joins or leaves. -/
structure Keeps (b b' : Broker) : Prop where
  registry : b'.registry = b.registry
  session : ∀ c, (b'.session? c).isSome = true → (b.session? c).isSome = true

/-- What an event does to the registry. -/
inductive Joins (b b' : Broker) : Event → Prop
  | keeps {e : Event} : b.Keeps b' → Joins b b' e
  /-- A session is opened. -/
  | opens {c : ConnId} : b.session? c = none → (b'.session? c).isSome = true →
    b'.registry = b.registry ++ [c] →
    (∀ d, d ≠ c → (b'.session? d).isSome = true → (b.session? d).isSome = true) →
    Joins b b' (.move (.task (.conn c) .dispatch))
  /-- A session ends. -/
  | ends {c : ConnId} {e : Event} : (∀ s, b'.session? c = some s → s.cancelled = true) →
    b'.registry = b.registry.erase c →
    (∀ d, (b'.session? d).isSome = true → (b.session? d).isSome = true) → Joins b b' e

theorem registered_start (maxPacketSize now : Nat) : (start maxPacketSize now).Registered where
  nodup := List.nodup_nil
  session c hc := by cases hc
  lives c s hs := by cases hs

/-- **Every event keeps the registry right.** -/
theorem Registered.step (h : b.Registered) (he : b.Evolves b') (hj : Joins b b' e) :
    b'.Registered := by
  -- Whoever was there and is still there is registered, or to end.
  have hlives {c : ConnId} {s : Session} (hold : (b.session? c).isSome = true)
      (hs : b'.session? c = some s) : c ∈ b.registry ∨ s.cancelled = true := by
    obtain ⟨s₀, hs₀⟩ := Option.isSome_iff_exists.1 hold
    obtain ⟨s', hs', hsame⟩ := he.exists_session hs₀
    rw [hs] at hs'
    cases hs'
    exact (h.lives c s₀ hs₀).imp_right hsame.cancelled
  have hstays {c : ConnId} (hc : c ∈ b.registry) : (b'.session? c).isSome = true := by
    obtain ⟨s, hs⟩ := Option.isSome_iff_exists.1 (h.session c hc)
    obtain ⟨s', hs', -⟩ := he.exists_session hs
    rw [hs']
    rfl
  cases hj with
  | keeps hkeeps =>
    refine ⟨hkeeps.registry ▸ h.nodup, fun c hc => hstays (hkeeps.registry ▸ hc), ?_⟩
    intro c s hs
    rw [hkeeps.registry]
    exact hlives (hkeeps.session c (by rw [hs]; rfl)) hs
  | @opens c hnone hsome hregistry hothers =>
    have hnew : c ∉ b.registry := by
      intro hc
      have := h.session c hc
      rw [hnone] at this
      cases this
    refine ⟨?_, fun d hd => ?_, fun d s hs => ?_⟩
    · rw [hregistry]
      exact List.nodup_append.2 ⟨h.nodup, List.pairwise_singleton _ c, by
        rintro d hd _ hc rfl
        exact hnew (List.mem_singleton.1 hc ▸ hd)⟩
    · rw [hregistry, List.mem_append, List.mem_singleton] at hd
      rcases hd with hd | rfl
      · exact hstays hd
      · exact hsome
    · rw [hregistry, List.mem_append, List.mem_singleton]
      by_cases hd : d = c
      · exact .inl (.inr hd)
      · exact (hlives (hothers d hd (by rw [hs]; rfl)) hs).imp_left .inl
  | @ends c _ hcancelled hregistry hold =>
    refine ⟨hregistry ▸ h.nodup.erase c, fun d hd => ?_, fun d s hs => ?_⟩
    · rw [hregistry] at hd
      exact hstays (List.mem_of_mem_erase hd)
    · rw [hregistry]
      by_cases hd : d = c
      · subst hd
        exact .inr (hcancelled s hs)
      · exact (hlives (hold d (by rw [hs]; rfl)) hs).imp_left (List.mem_erase_of_ne hd).2

/-! ### One operation -/

theorem Keeps.refl (b : Broker) : b.Keeps b := ⟨rfl, fun _ h => h⟩

theorem Keeps.trans (h : b.Keeps b₁) (h' : b₁.Keeps b₂) : b.Keeps b₂ where
  registry := h'.registry.trans h.registry
  session c hs := h.session c (h'.session c hs)

theorem keeps_of_eq (hconns : b'.conns = b.conns) (hregistry : b'.registry = b.registry) :
    b.Keeps b' where
  registry := hregistry
  session c hs := by rwa [session?, hconns] at hs

/-- A connection without a session gets none. -/
theorem keeps_modifyConn {f : Conn → Conn}
    (hf : ∀ k, (f k).session.isSome = true → k.session.isSome = true) :
    b.Keeps (b.modifyConn c f) where
  registry := rfl
  session d hs := by
    rw [session?_modifyConn] at hs
    by_cases hd : d = c
    · rw [if_pos hd] at hs
      rw [session?]
      rcases hk : b.conns[d]? with _ | k
      · rw [hk] at hs
        cases hs
      · rw [hk] at hs
        exact hf k hs
    · rwa [if_neg hd] at hs

theorem keeps_modifySession {f : Session → Session} : b.Keeps (b.modifySession c f) :=
  keeps_modifyConn fun k hs => by rwa [Option.isSome_map] at hs

theorem keeps_setPhase {phase : Phase} : b.Keeps (b.setPhase c phase) :=
  keeps_modifyConn fun _ => id

theorem keeps_readOn : b.Keeps (b.readOn c) := keeps_modifyConn fun _ => id

theorem joins_finish {r : Except Fault Unit} (h : b.Keeps b₁) : Joins b (b₁.finish c r) e := by
  have hkeeps : b₁.Keeps ((b₁.cancelSession c).setPhase c (.closing r)) :=
    Keeps.trans (keeps_modifySession (f := fun s => { s with cancelled := true })) keeps_setPhase
  refine .ends (c := c) (fun s hs => ?_) ?_ fun d hs => h.session d (hkeeps.session d hs)
  · change ((b₁.cancelSession c).setPhase c (.closing r)).session? c = some s at hs
    rw [session?_setPhase, cancelSession, modifySession, session?_modifyConn, if_pos rfl] at hs
    obtain ⟨k, -, hs⟩ := Option.bind_eq_some_iff.1 hs
    obtain ⟨s', -, rfl⟩ := Option.map_eq_some_iff.1 hs
    rfl
  · show ((b₁.cancelSession c).setPhase c (.closing r)).registry.erase c = _
    rw [hkeeps.registry, h.registry]

/-! ### Every event -/

theorem Sends.keeps {d : Delivery} {m : SendMove} {r : Sending ⊕ Except Fault Unit}
    {seen : List Observation} (h : Sends b t d m b' r seen) : b.Keeps b' := by
  cases h with
  | intro _ _ _ _ => exact keeps_modifyConn fun k hs => by rwa [Option.isSome_map] at hs

theorem Forwards.keeps {stopped : Bool} {o : FanOut} {m : Move} {r : FanOut ⊕ Nat}
    {seen : List Observation} (h : Forwards b t stopped o m b' r seen) : b.Keeps b' := by
  cases h with
  | exhausts _ _ | passes _ _ _ | reaches _ _ _ => exact .refl b
  | goesOn _ hsends | delivers _ hsends => exact hsends.keeps
  | fails _ hsends =>
    split_ifs
    · exact hsends.keeps
    · exact hsends.keeps.trans keeps_modifySession
  | stops _ _ => exact keeps_modifySession

theorem Handles.joins {s : Session} {f : Frame} {p : Packet} (hb : b.Keeps b₁)
    (h : Handles b₁ c s f p b') : Joins b b' e := by
  cases h with
  | unexpected | invalid _ | disconnects => exact joins_finish hb
  | acknowledges _ _ | forwards _ _ | releases | pings => exact .keeps (hb.trans keeps_setPhase)
  | subscribes | unsubscribes => exact .keeps ((hb.trans keeps_modifySession).trans keeps_setPhase)
  | ignores _ => exact .keeps (hb.trans keeps_readOn)

/-- The task opens a session. -/
theorem joins_openSession {k : Conn} {a : Assembler} {v : Version} {p : Connect}
    (hk : b.conns[c]? = some k) (hs : k.session = none) :
    Joins b ((b.takeFrame c a).openSession c v p) (.move (.task (.conn c) .dispatch)) := by
  have hnone : b.session? c = none := by
    rw [session?, hk]
    exact hs
  have hconn : (b.takeFrame c a).conns[c]? = some { k with assembler := a } :=
    conns_modifyConn_self hk
  -- The session is there afterwards, and no other has appeared.
  refine .opens hnone ?_ rfl fun d hd hs' => ?_
  · rw [openSession, reply, session?_setPhase]
    show (((b.takeFrame c a).modifyConn c _).session? c).isSome = true
    rw [session?_modifyConn, if_pos rfl, hconn]
    rfl
  · rw [openSession, reply, session?_setPhase] at hs'
    change (((b.takeFrame c a).modifyConn c _).session? d).isSome = true at hs'
    rw [session?_modifyConn, if_neg hd, takeFrame, session?_modifyConn, if_neg hd] at hs'
    exact hs'

theorem Serves.joins {k : Conn} {m : Move} {seen : List Observation} (hg : b.Greets)
    (hk : b.conns[c]? = some k) (h : Serves b c k m b' seen) :
    Joins b b' (.move (.task (.conn c) m)) := by
  have htake {a : Assembler} : b.Keeps (b.takeFrame c a) := keeps_modifyConn fun _ => id
  cases h with
  | greets _ _ _ | reads _ _ _ _ => exact .keeps (keeps_modifyConn fun _ => id)
  | refuses _ _ => exact .keeps (keeps_modifyConn fun _ => id)
  | opens hphase _ _ => exact joins_openSession hk (hg c k hk hphase)
  | handles _ _ _ _ => exact (handles_handle _).joins htake
  | undecodable _ _ _ _ => exact joins_finish htake
  | ends _ _ _ => exact joins_finish (.refl b)
  | answers _ _ hsends => exact .keeps (hsends.keeps.trans keeps_setPhase)
  | answerFails _ _ hsends => exact joins_finish hsends.keeps
  | @answered _ after _ _ _ _ _ _ hsends =>
    refine .keeps (hsends.keeps.trans ?_)
    cases after with
    | announce | read => exact keeps_readOn
    | forward _ _ => exact keeps_setPhase
  | forwards _ _ hforwards => exact .keeps (hforwards.keeps.trans keeps_setPhase)
  | forwarded _ _ hforwards => exact .keeps (hforwards.keeps.trans keeps_readOn)
  | closes _ _ =>
    exact .keeps (Keeps.trans
      (keeps_modifySession (f := fun s => { s with turnstile := s.turnstile.enter (.conn c) }))
      keeps_setPhase)
  | shuts _ _ _ => exact .keeps (keeps_modifyConn fun k hs => by rwa [Option.isSome_map] at hs)

theorem Calls.keeps {n : Nat} {call : HostCall} {m : Move} {seen : List Observation}
    (h : Calls b n call m b' seen) : b.Keeps b' := by
  cases h with
  | publishes hforwards | published hforwards => exact hforwards.keeps.trans (keeps_of_eq rfl rfl)
  | writes hsends | written hsends => exact hsends.keeps.trans (keeps_of_eq rfl rfl)
  | served _ => exact keeps_of_eq rfl rfl

theorem keeps_addConn {label : String} {capacity : Nat} : b.Keeps (b.addConn label capacity) where
  registry := rfl
  session c hs := by
    rw [session?, addConn, List.getElem?_append] at hs
    split_ifs at hs with hlt
    · exact hs
    · -- The new connection has no session, and there is none behind it.
      rcases hn : c - b.conns.length with _ | n
      · rw [hn] at hs
        cases hs
      · rw [hn] at hs
        cases hs

theorem Accepts.keeps {i : BrokerInput} {seen : List Observation} (h : Accepts b i b' seen) :
    b.Keeps b' := by
  cases h with
  | opens => exact keeps_addConn
  | links _ _ _ | cancels => exact keeps_modifyConn fun _ => id
  | closes => exact keeps_modifySession
  | shutsDown | elapses | begins _ | serves _ | declines _ => exact keeps_of_eq rfl rfl

/-- **What an event does to the registry.** -/
theorem next?_joins {seen : List Observation} (hg : b.Greets)
    (h : b.next? e = some (b', seen)) : Joins b b' e := by
  cases e with
  | input i => exact .keeps (accepts_of_next h).keeps
  | move a =>
    cases step_cases h with
    | conn hk hserves => exact hserves.joins hg hk
    | host _ hcalls => exact .keeps hcalls.keeps
    | relay _ _ _ _ => exact .keeps keeps_modifySession

theorem registered_of_replay {maxPacketSize now : Nat} {es : List Event} {seen : List Observation}
    (h : (start maxPacketSize now).replay es = some (b, seen)) : b.Registered := by
  refine replay_induction (P := fun _ b _ => b.Registered) (registered_start _ _) ?_ h
  intro es e b₁ seen₁ b₂ more hrun hnext hregistered
  have hg := (replay_evolves (greets_start _ _) hrun).greets (greets_start _ _)
  exact hregistered.step (next?_evolves hg hnext) (next?_joins hg hnext)

/-! ### Connections -/

@[simp]
theorem length_modifyConn {f : Conn → Conn} : (b.modifyConn c f).conns.length = b.conns.length :=
  List.length_modify ..

theorem Sends.length_conns {d : Delivery} {m : SendMove} {r : Sending ⊕ Except Fault Unit}
    {seen : List Observation} (h : Sends b t d m b' r seen) :
    b'.conns.length = b.conns.length := by
  cases h with
  | intro _ _ _ _ => exact length_modifyConn

theorem Forwards.length_conns {stopped : Bool} {o : FanOut} {m : Move} {r : FanOut ⊕ Nat}
    {seen : List Observation} (h : Forwards b t stopped o m b' r seen) :
    b'.conns.length = b.conns.length := by
  cases h with
  | exhausts _ _ | passes _ _ _ | reaches _ _ _ => rfl
  | goesOn _ hsends | delivers _ hsends => exact hsends.length_conns
  | fails _ hsends =>
    split_ifs
    · exact hsends.length_conns
    · exact length_modifyConn.trans hsends.length_conns
  | stops _ _ => exact length_modifyConn

theorem length_finish {r : Except Fault Unit} : (b.finish c r).conns.length = b.conns.length := by
  show ((b.cancelSession c).setPhase c (.closing r)).conns.length = _
  rw [setPhase, length_modifyConn, cancelSession, modifySession, length_modifyConn]

theorem Handles.length_conns {s : Session} {f : Frame} {p : Packet} (h : Handles b c s f p b') :
    b'.conns.length = b.conns.length := by
  cases h with
  | unexpected | invalid _ | disconnects => exact length_finish
  | acknowledges _ _ | forwards _ _ | releases | pings | ignores _ => exact length_modifyConn
  | subscribes | unsubscribes => exact length_modifyConn.trans length_modifyConn

theorem Serves.length_conns {k : Conn} {m : Move} {seen : List Observation}
    (h : Serves b c k m b' seen) : b'.conns.length = b.conns.length := by
  have htake {a : Assembler} : (b.takeFrame c a).conns.length = b.conns.length := length_modifyConn
  cases h with
  | greets _ _ _ | reads _ _ _ _ | refuses _ _ | shuts _ _ _ => exact length_modifyConn
  | opens _ _ _ => exact (length_modifyConn.trans length_modifyConn).trans htake
  | handles _ _ _ _ => exact (handles_handle _).length_conns.trans htake
  | undecodable _ _ _ _ => exact length_finish.trans htake
  | ends _ _ _ => exact length_finish
  | answers _ _ hsends => exact length_modifyConn.trans hsends.length_conns
  | answerFails _ _ hsends => exact length_finish.trans hsends.length_conns
  | @answered _ after _ _ _ _ _ _ hsends =>
    cases after <;> exact length_modifyConn.trans hsends.length_conns
  | forwards _ _ hforwards | forwarded _ _ hforwards =>
    exact length_modifyConn.trans hforwards.length_conns
  | closes _ _ => exact length_modifyConn.trans length_modifyConn

theorem Calls.length_conns {n : Nat} {call : HostCall} {m : Move} {seen : List Observation}
    (h : Calls b n call m b' seen) : b'.conns.length = b.conns.length := by
  cases h with
  | publishes hforwards | published hforwards => exact hforwards.length_conns
  | writes hsends | written hsends => exact hsends.length_conns
  | served _ => rfl

/-- No task makes a connection. -/
theorem length_conns_of_step {a : Action} {seen : List Observation}
    (h : b.step a = some (b', seen)) : b'.conns.length = b.conns.length := by
  cases step_cases h with
  | conn _ hserves => exact hserves.length_conns
  | host _ hcalls => exact hcalls.length_conns
  | relay _ _ _ _ => exact length_modifyConn

/-- A connection that is there after an event was there before, or is new: then it waits for its
first frame, and nothing has been sent over it. -/
theorem next?_conns_of_none {seen : List Observation} {k : Conn}
    (h : b.next? e = some (b', seen)) (hnone : b.conns[c]? = none) (hk : b'.conns[c]? = some k) :
    ∃ label capacity, k = .fresh label capacity b.maxPacketSize := by
  have hlt := (List.getElem?_eq_some_iff.1 hk).1
  have hge := List.getElem?_eq_none_iff.1 hnone
  have hsame (hlength : b'.conns.length = b.conns.length) :
      ∃ label capacity, k = .fresh label capacity b.maxPacketSize := by omega
  cases e with
  | move a => exact hsame (length_conns_of_step h)
  | input i =>
    cases accepts_of_next h with
    | @opens label capacity =>
      rw [addConn, List.getElem?_append_right hge] at hk
      exact ⟨label, capacity, List.mem_singleton.1 (List.mem_of_getElem? hk)⟩
    | links _ _ _ | cancels | closes => exact hsame length_modifyConn
    | shutsDown | elapses | begins _ | serves _ | declines _ => exact hsame rfl

end Broker
end Mqtt
