import Mqtt.Proofs.Broker.Moves
import Mqtt.Proofs.Lookup
/-!
# Connections over time

What stays once it is so, whatever happens to a broker: the connections keep their numbers, a
session keeps what it was opened with, and what has been cancelled or closed stays so
(`Broker.Evolves`). `next?_evolves` says so of every event.

A connection that still waits for its first frame has no session (`Broker.Greets`), so opening one
never replaces another.
-/

namespace Mqtt

/-! ### One connection -/

/-- What a session was opened with. -/
structure Session.Same (s s' : Session) : Prop where
  id : s'.id = s.id
  clientId : s'.clientId = s.clientId
  version : s'.version = s.version
  patience : s'.patience = s.patience
  cancelled : s.cancelled = true → s'.cancelled = true

theorem Session.Same.refl (s : Session) : s.Same s := ⟨rfl, rfl, rfl, rfl, fun h => h⟩

theorem Session.Same.trans {s s' s'' : Session} (h : s.Same s') (h' : s'.Same s'') :
    s.Same s'' where
  id := h'.id.trans h.id
  clientId := h'.clientId.trans h.clientId
  version := h'.version.trans h.version
  patience := h'.patience.trans h.patience
  cancelled hc := h'.cancelled (h.cancelled hc)

/-- What stays of a connection. -/
structure Conn.Evolves (k k' : Conn) : Prop where
  label : k'.label = k.label
  cancelled : k.cancelled = true → k'.cancelled = true
  up : k.link.up.closed = true → k'.link.up.closed = true
  down : k.link.down.closed = true → k'.link.down.closed = true
  session : ∀ s, k.session = some s → ∃ s', k'.session = some s' ∧ s.Same s'
  greeting : k'.phase = .greeting → k.phase = .greeting ∧ (k.session = none → k'.session = none)

theorem Conn.Evolves.refl (k : Conn) : k.Evolves k where
  label := rfl
  cancelled := id
  up := id
  down := id
  session s hs := ⟨s, hs, .refl s⟩
  greeting h := ⟨h, id⟩

theorem Conn.Evolves.trans {k k' k'' : Conn} (h : k.Evolves k') (h' : k'.Evolves k'') :
    k.Evolves k'' where
  label := h'.label.trans h.label
  cancelled hc := h'.cancelled (h.cancelled hc)
  up hc := h'.up (h.up hc)
  down hc := h'.down (h.down hc)
  session s hs := by
    obtain ⟨s', hs', hsame⟩ := h.session s hs
    obtain ⟨s'', hs'', hsame'⟩ := h'.session s' hs'
    exact ⟨s'', hs'', hsame.trans hsame'⟩
  greeting hp := by
    obtain ⟨hp', hn'⟩ := h'.greeting hp
    obtain ⟨hp, hn⟩ := h.greeting hp'
    exact ⟨hp, fun hs => hn' (hn hs)⟩

/-- A session that is changed at most in its filters, its turnstile, and in being told to end. -/
theorem Conn.Evolves.mapSession {k k' : Conn} {f : Session → Session}
    (hf : ∀ s : Session, s.Same (f s))
    (hsession : k'.session = k.session.map f) (hlabel : k'.label = k.label)
    (hcancelled : k'.cancelled = k.cancelled)
    (hup : k.link.up.closed = true → k'.link.up.closed = true)
    (hdown : k.link.down.closed = true → k'.link.down.closed = true)
    (hphase : k'.phase = .greeting → k.phase = .greeting) : k.Evolves k' where
  label := hlabel
  cancelled := by rw [hcancelled]; exact id
  up := hup
  down := hdown
  session s hs := ⟨f s, by rw [hsession, hs]; rfl, hf s⟩
  greeting hp := ⟨hphase hp, fun hs => by rw [hsession, hs]; rfl⟩

/-- A connection that keeps its session. -/
theorem Conn.Evolves.keepSession {k k' : Conn} (hsession : k'.session = k.session)
    (hlabel : k'.label = k.label) (hcancelled : k.cancelled = true → k'.cancelled = true)
    (hup : k.link.up.closed = true → k'.link.up.closed = true)
    (hdown : k.link.down.closed = true → k'.link.down.closed = true)
    (hphase : k'.phase = .greeting → k.phase = .greeting) : k.Evolves k' where
  label := hlabel
  cancelled := hcancelled
  up := hup
  down := hdown
  session s hs := ⟨s, hsession.trans hs, .refl s⟩
  greeting hp := ⟨hphase hp, fun hs => hsession.trans hs⟩

namespace Broker

variable {b b' : Broker} {c c' : ConnId} {t : Task}

/-! ### One operation -/

theorem conns_modifyConn {f : Conn → Conn} :
    (b.modifyConn c f).conns[c']? = if c' = c then b.conns[c']?.map f else b.conns[c']? := by
  rw [modifyConn, List.getElem?_modify]
  by_cases h : c' = c
  · simp [h]
  · simp [h, Ne.symm h]

theorem conns_modifyConn_self {f : Conn → Conn} {k : Conn} (hk : b.conns[c]? = some k) :
    (b.modifyConn c f).conns[c]? = some (f k) := by
  rw [conns_modifyConn, if_pos rfl, hk]
  rfl

theorem conns_modifySession_self {f : Session → Session} {k : Conn} (hk : b.conns[c]? = some k) :
    (b.modifySession c f).conns[c]? = some { k with session := k.session.map f } :=
  conns_modifyConn_self hk

theorem session?_modifyConn {f : Conn → Conn} :
    (b.modifyConn c f).session? c' =
      if c' = c then b.conns[c']?.bind fun k => (f k).session else b.session? c' := by
  rw [session?, conns_modifyConn]
  by_cases h : c' = c
  · rw [if_pos h, if_pos h]
    rcases b.conns[c']? with _ | k <;> rfl
  · simp [h, session?]

/-- A connection keeps its session. -/
theorem session?_modifyConn_same {f : Conn → Conn} (hf : ∀ k, (f k).session = k.session) :
    (b.modifyConn c f).session? c' = b.session? c' := by
  rw [session?_modifyConn]
  simp only [hf, session?, Option.bind_eq_bind, ite_self]

theorem session?_setPhase {phase : Phase} : (b.setPhase c phase).session? c' = b.session? c' :=
  session?_modifyConn_same fun _ => rfl

theorem session?_readOn : (b.readOn c).session? c' = b.session? c' :=
  session?_modifyConn_same fun _ => rfl

theorem session?_eq_some {s : Session} :
    b.session? c = some s ↔ ∃ k, b.conns[c]? = some k ∧ k.session = some s :=
  Option.bind_eq_some_iff

theorem session?_of_conn {k : Conn} (hk : b.conns[c]? = some k) : b.session? c = k.session := by
  rw [session?, hk]
  rfl

theorem call?_setCall {n n' : Nat} {call : HostCall} :
    (b.setCall n call).call? n' =
      if n' = n then (b.call? n').map fun _ => call else b.call? n' :=
  lookup_map_replace

theorem call?_dropCall {n n' : Nat} :
    (b.dropCall n).call? n' = if n' = n then none else b.call? n' :=
  lookup_filter_ne

theorem call?_addCall {n n' : Nat} {call : HostCall} :
    (b.addCall n call).call? n' = (b.call? n').or (if n' = n then some call else none) :=
  lookup_append_singleton

/-! ### What stays -/

/-- A connection that waits for its first frame has no session. -/
def Greets (b : Broker) : Prop :=
  ∀ (c : ConnId) (k : Conn), b.conns[c]? = some k → k.phase = .greeting → k.session = none

/-- What stays of a broker. -/
structure Evolves (b b' : Broker) : Prop where
  conns : ∀ (c : ConnId) (k : Conn), b.conns[c]? = some k →
    ∃ k' : Conn, b'.conns[c]? = some k' ∧ k.Evolves k'
  shutdown : b.shutdown = true → b'.shutdown = true
  now : b.now ≤ b'.now
  maxPacketSize : b'.maxPacketSize = b.maxPacketSize
  greets : b.Greets → b'.Greets

/-- A change of what is not held against a broker here. -/
theorem Evolves.of_conns_eq (hconns : b'.conns = b.conns)
    (hshutdown : b.shutdown = true → b'.shutdown = true) (hnow : b.now ≤ b'.now)
    (hmax : b'.maxPacketSize = b.maxPacketSize) : b.Evolves b' where
  conns c k hk := ⟨k, by rw [hconns, hk], .refl k⟩
  shutdown := hshutdown
  now := hnow
  maxPacketSize := hmax
  greets hg c k hk := hg c k (by rw [← hconns, hk])

theorem Evolves.refl (b : Broker) : b.Evolves b :=
  .of_conns_eq rfl id (Nat.le_refl _) rfl

theorem Evolves.trans {b₁ b₂ b₃ : Broker} (h : b₁.Evolves b₂) (h' : b₂.Evolves b₃) :
    b₁.Evolves b₃ where
  conns c k hk := by
    obtain ⟨k', hk', he⟩ := h.conns c k hk
    obtain ⟨k'', hk'', he'⟩ := h'.conns c k' hk'
    exact ⟨k'', hk'', he.trans he'⟩
  shutdown hs := h'.shutdown (h.shutdown hs)
  now := Nat.le_trans h.now h'.now
  maxPacketSize := h'.maxPacketSize.trans h.maxPacketSize
  greets hg := h'.greets (h.greets hg)

/-- No connection goes away. -/
theorem Evolves.exists_conn (h : b.Evolves b') {k : Conn} (hk : b.conns[c]? = some k) :
    ∃ k', b'.conns[c]? = some k' := by
  obtain ⟨k', hk', -⟩ := h.conns c k hk
  exact ⟨k', hk'⟩

/-- A connection that is not there afterwards has not been there. -/
theorem Evolves.absent (h : b.Evolves b') (hnone : b'.conns[c]? = none) : b.conns[c]? = none := by
  rcases hk : b.conns[c]? with _ | k
  · rfl
  · obtain ⟨k', hk'⟩ := h.exists_conn hk
    rw [hnone] at hk'
    cases hk'

/-- A session stays, with what it was opened with. -/
theorem Evolves.exists_session (h : b.Evolves b') {s : Session} (hs : b.session? c = some s) :
    ∃ s', b'.session? c = some s' ∧ s.Same s' := by
  obtain ⟨k, hk, hs⟩ := session?_eq_some.1 hs
  obtain ⟨k', hk', hconn⟩ := h.conns c k hk
  obtain ⟨s', hs', hsame⟩ := hconn.session s hs
  exact ⟨s', session?_eq_some.2 ⟨k', hk', hs'⟩, hsame⟩

theorem evolves_modifyConn {f : Conn → Conn}
    (hf : ∀ k : Conn, b.conns[c]? = some k → k.Evolves (f k)) : b.Evolves (b.modifyConn c f) where
  conns c' k hk := by
    rw [conns_modifyConn]
    by_cases h : c' = c
    · subst h
      rw [if_pos rfl, hk]
      exact ⟨f k, rfl, hf k hk⟩
    · rw [if_neg h]
      exact ⟨k, hk, .refl k⟩
  shutdown := id
  now := Nat.le_refl _
  maxPacketSize := rfl
  greets hg c' k' hk' hp := by
    rw [conns_modifyConn] at hk'
    by_cases h : c' = c
    · subst h
      rw [if_pos rfl, Option.map_eq_some_iff] at hk'
      obtain ⟨k, hk, rfl⟩ := hk'
      obtain ⟨hp, hn⟩ := (hf k hk).greeting hp
      exact hn (hg c' k hk hp)
    · rw [if_neg h] at hk'
      exact hg c' k' hk' hp

theorem evolves_modifySession {f : Session → Session} (hf : ∀ s : Session, s.Same (f s)) :
    b.Evolves (b.modifySession c f) :=
  evolves_modifyConn fun _ _ => .mapSession hf rfl rfl rfl id id id

theorem evolves_cancelSession : b.Evolves (b.cancelSession c) :=
  evolves_modifySession fun _ => ⟨rfl, rfl, rfl, rfl, fun _ => rfl⟩

theorem evolves_setPhase {phase : Phase} (h : phase ≠ .greeting) : b.Evolves (b.setPhase c phase) :=
  evolves_modifyConn fun _ _ => .keepSession rfl rfl id id id fun hp => absurd hp h

theorem evolves_readOn : b.Evolves (b.readOn c) :=
  evolves_modifyConn fun _ _ => .keepSession rfl rfl id id id nofun

theorem evolves_takeBytes {bs : Bytes} {up : Pipe} {k : Conn} (hk : b.conns[c]? = some k)
    {n : Nat} (hread : k.link.up.read n = .got bs up) : b.Evolves (b.takeBytes c bs up) := by
  refine evolves_modifyConn fun k' hk' => ?_
  rw [hk] at hk'
  cases hk'
  refine .keepSession rfl rfl id ?_ id id
  rw [← Pipe.closed_of_read hread]
  exact id

theorem evolves_takeFrame {a : Assembler} : b.Evolves (b.takeFrame c a) :=
  evolves_modifyConn fun _ _ => .keepSession rfl rfl id id id id

theorem evolves_finish {r : Except Fault Unit} : b.Evolves (b.finish c r) := by
  have hphase : (b.cancelSession c).Evolves ((b.cancelSession c).setPhase c (.closing r)) :=
    evolves_setPhase nofun
  exact (evolves_cancelSession.trans hphase).trans
    (.of_conns_eq rfl (fun h => h) (Nat.le_refl _) rfl)

theorem evolves_reply {v : Version} {p : Packet} {after : AfterReply} :
    b.Evolves (b.reply c v p after) :=
  evolves_setPhase nofun

theorem evolves_forward {p : Publish} {f : Frame} : b.Evolves (b.forward c p f) :=
  evolves_setPhase nofun

theorem evolves_refuse {f : Fault} : b.Evolves (b.refuse c f).1 :=
  evolves_modifyConn fun _ _ => .keepSession rfl rfl id (fun _ => rfl) (fun _ => rfl) nofun

theorem evolves_putSent {k : Conn} {sent : Sent Task} (hk : b.conns[c]? = some k)
    (hclosed : sent.outlet.pipe.closed = k.link.down.closed) : b.Evolves (b.putSent c sent) := by
  refine evolves_modifyConn fun k' hk' => ?_
  rw [hk] at hk'
  cases hk'
  refine .mapSession (f := fun s => { s with turnstile := sent.outlet.turnstile })
    (fun _ => ⟨rfl, rfl, rfl, rfl, id⟩) rfl rfl rfl id ?_ id
  rw [← hclosed]
  exact id

theorem evolves_abandon {d : Delivery} : b.Evolves (b.abandon t d) :=
  evolves_modifySession fun _ => ⟨rfl, rfl, rfl, rfl, id⟩

theorem evolves_shutStream {r : Except Fault Unit} : b.Evolves (b.shutStream c r) :=
  evolves_modifyConn fun _ _ => .mapSession
    (f := fun s => { s with turnstile := s.turnstile.leave (.conn c) })
    (fun _ => ⟨rfl, rfl, rfl, rfl, id⟩) rfl rfl rfl id (fun _ => rfl) nofun

theorem evolves_openSession {k : Conn} {v : Version} {p : Connect} (hk : b.conns[c]? = some k)
    (hsession : k.session = none) : b.Evolves (b.openSession c v p) := by
  have hconn : b.Evolves (b.modifyConn c fun k =>
      { k with
        session := some (b.newSession v p)
        phase := .replying (.ofPacket c v (.connAck .accepted)) .announce }) := by
    refine evolves_modifyConn fun k' hk' => ?_
    rw [hk] at hk'
    cases hk'
    refine ⟨rfl, id, id, id, fun s hs => ?_, nofun⟩
    rw [hsession] at hs
    cases hs
  refine hconn.trans (.of_conns_eq ?_ (fun h => h) (Nat.le_refl _) rfl)
  show (b.conns.modify c _).modify c _ = b.conns.modify c _
  rw [List.modify_modify_eq]
  rfl

/-! ### Every event -/

theorem Sends.evolves {d : Delivery} {m : SendMove} {r : Sending ⊕ Except Fault Unit}
    {seen : List Observation} (h : Sends b t d m b' r seen) : b.Evolves b' := by
  cases h with
  | intro hk hs _ hmoves => exact evolves_putSent hk hmoves.closed

theorem Forwards.evolves {stopped : Bool} {o : FanOut} {m : Move} {r : FanOut ⊕ Nat}
    {seen : List Observation} (h : Forwards b t stopped o m b' r seen) : b.Evolves b' := by
  cases h with
  | exhausts _ _ | passes _ _ _ | reaches _ _ _ => exact .refl b
  | goesOn _ hsends | delivers _ hsends => exact hsends.evolves
  | fails _ hsends =>
    split_ifs
    · exact hsends.evolves
    · exact hsends.evolves.trans evolves_cancelSession
  | stops _ _ => exact evolves_abandon

theorem Handles.evolves {s : Session} {f : Frame} {p : Packet} (h : Handles b c s f p b') :
    b.Evolves b' := by
  cases h with
  | unexpected | invalid _ | disconnects => exact evolves_finish
  | acknowledges _ _ | releases | pings => exact evolves_reply
  | forwards _ _ => exact evolves_forward
  | subscribes | unsubscribes =>
    have hfilters {g : Session → FilterIndex} :
        b.Evolves (b.modifySession c fun s => { s with filters := g s }) :=
      evolves_modifySession fun _ => ⟨rfl, rfl, rfl, rfl, id⟩
    exact hfilters.trans evolves_reply
  | ignores _ => exact evolves_readOn

theorem evolves_afterReply {s : Session} {after : AfterReply} :
    b.Evolves (b.afterReply c s after).1 := by
  cases after with
  | announce | read => exact evolves_readOn
  | forward p f => exact evolves_forward

theorem Serves.evolves {k : Conn} {m : Move} {seen : List Observation} (hg : b.Greets)
    (hk : b.conns[c]? = some k) (h : Serves b c k m b' seen) : b.Evolves b' := by
  cases h with
  | greets _ _ hread | reads _ _ _ hread => exact evolves_takeBytes hk hread
  | refuses _ _ => exact evolves_refuse
  | @opens f a v p hphase _ _ =>
    -- Only a connection that has no session opens one, so no session is replaced.
    have hk' : (b.takeFrame c a).conns[c]? = some { k with assembler := a } := by
      rw [takeFrame, conns_modifyConn, if_pos rfl, hk]
      rfl
    exact evolves_takeFrame.trans (evolves_openSession hk' (hg c k hk hphase))
  | handles _ _ _ _ => exact evolves_takeFrame.trans (handles_handle _).evolves
  | undecodable _ _ _ _ => exact evolves_takeFrame.trans evolves_finish
  | ends _ _ _ => exact evolves_finish
  | answers _ _ hsends => exact hsends.evolves.trans (evolves_setPhase nofun)
  | answerFails _ _ hsends => exact hsends.evolves.trans evolves_finish
  | answered _ _ hsends => exact hsends.evolves.trans evolves_afterReply
  | forwards _ _ hforwards => exact hforwards.evolves.trans (evolves_setPhase nofun)
  | forwarded _ _ hforwards => exact hforwards.evolves.trans evolves_readOn
  | closes _ _ =>
    refine (evolves_modifySession
      (f := fun s => { s with turnstile := s.turnstile.enter (.conn c) }) fun _ => ?_).trans
      (evolves_setPhase nofun)
    exact ⟨rfl, rfl, rfl, rfl, fun h => h⟩
  | shuts _ _ _ => exact evolves_shutStream

theorem Calls.evolves {n : Nat} {call : HostCall} {m : Move} {seen : List Observation}
    (h : Calls b n call m b' seen) : b.Evolves b' := by
  have hcalls {b : Broker} {calls : List (Nat × HostCall)} :
      b.Evolves { b with calls := calls } := .of_conns_eq rfl (fun h => h) (Nat.le_refl _) rfl
  cases h with
  | publishes hforwards | published hforwards => exact hforwards.evolves.trans hcalls
  | writes hsends | written hsends => exact hsends.evolves.trans hcalls
  | served _ => exact hcalls

theorem Steps.evolves {a : Action} {seen : List Observation} (hg : b.Greets)
    (h : Steps b a b' seen) : b.Evolves b' := by
  cases h with
  | conn hk hserves => exact hserves.evolves hg hk
  | host _ hcalls => exact hcalls.evolves
  | relay _ _ _ _ => exact evolves_cancelSession

theorem evolves_modifyLink {f : Link → Link}
    (hup : ∀ l : Link, l.up.closed = true → (f l).up.closed = true)
    (hdown : ∀ l : Link, l.down.closed = true → (f l).down.closed = true) :
    b.Evolves (b.modifyLink c f) :=
  evolves_modifyConn fun k _ => .keepSession rfl rfl id (hup k.link) (hdown k.link) id

/-- A new connection waits for its first frame. -/
theorem evolves_addConn {label : String} {capacity : Nat} :
    b.Evolves (b.addConn label capacity) where
  conns c k hk := by
    have hlt : c < b.conns.length := (List.getElem?_eq_some_iff.1 hk).1
    refine ⟨k, ?_, .refl k⟩
    rw [addConn, List.getElem?_append_left hlt, hk]
  shutdown := id
  now := Nat.le_refl _
  maxPacketSize := rfl
  greets hg c k hk hp := by
    rw [addConn, List.getElem?_append] at hk
    split_ifs at hk with hlt
    · exact hg c k hk hp
    · rw [List.mem_singleton.1 (List.mem_of_getElem? hk)]
      rfl

theorem Accepts.evolves {i : BrokerInput} {seen : List Observation} (h : Accepts b i b' seen) :
    b.Evolves b' := by
  cases h with
  | opens => exact evolves_addConn
  | links _ hup hdown => exact evolves_modifyLink hup hdown
  | cancels => exact evolves_modifyConn fun _ _ => .keepSession rfl rfl (fun _ => rfl) id id id
  | closes => exact evolves_cancelSession
  | shutsDown => exact .of_conns_eq rfl (fun _ => rfl) (Nat.le_refl _) rfl
  | elapses => exact .of_conns_eq rfl id (Nat.le_add_right _ _) rfl
  | begins _ | serves _ => exact .of_conns_eq rfl id (Nat.le_refl _) rfl
  | declines _ => exact .refl b

/-- **What stays of a broker, whatever happens to it.** -/
theorem next?_evolves {e : Event} {seen : List Observation} (hg : b.Greets)
    (h : b.next? e = some (b', seen)) : b.Evolves b' := by
  cases e with
  | input i => exact (accepts_of_next h).evolves
  | move a => exact (step_cases h).evolves hg

theorem greets_start (maxPacketSize now : Nat) : (start maxPacketSize now).Greets := by
  intro c k hk
  cases hk

end Broker
end Mqtt
