import Mqtt.Proofs.Broker.Framing
import Mqtt.Proofs.Client.Runs
import Mqtt.Proofs.Pair.Runs
/-!
# What a client sends arrives

As long as nothing is cancelled and the stream does not fail (`Pair.Calm`), the packets that a
client has sent are served in their order: those behind the ones served so far are in the bytes that
have come and have not been handled, frame by frame (`Pair.Delivers`). `Sound.next` says that every
event keeps it so, together with the accounts of the client and with the filters of its session,
which are those that the packets served ask for.
-/

namespace Mqtt
namespace Pair

variable {j j' : Pair} {log more : Log} {e : Event} {k : Conn} {handled queue : List Packet}

/-- Nothing has been cancelled, and the stream towards the broker has not failed. -/
structure Calm (j : Pair) : Prop where
  client : j.client.cancelled = false
  session : Broker.Lives j.conn j.broker
  stream : ∀ k, j.broker.conns[j.conn]? = some k → k.link.up.closed = false

/-- Of the packets that the client has sent some have been handled, and those of the queue are in
the bytes that have not. -/
structure Delivers (j : Pair) (log : Log) (k : Conn) (handled queue : List Packet) : Prop where
  conn : j.broker.conns[j.conn]? = some k
  steady : k.Steady
  carries : j.client.lane.Carries (queue.map fun p => (p.frame j.client.config.version).bytes)
    k.rest
  wellFormed : ∀ p ∈ queue, p.WellFormed j.client.config.version
  held : ∀ f, Packet.held f handled = Packet.held f log.served
  accounts : j.client.Accounts (handled ++ queue) log.notes
  reflects : k.filters.Reflects log.served

/-- What holds at every moment of a run. -/
structure Sound (j : Pair) (log : Log) : Prop where
  greets : j.broker.Greets
  orderly : j.client.Orderly
  exclusive : j.client.lane.Exclusive
  speaks : j.client.Speaks
  delivers : ∃ k handled queue, j.Delivers log k handled queue

/-! ### Calm before, calm after -/

theorem session?_modifyLink {b : Broker} {c : ConnId} {f : Link → Link} :
    (b.modifyLink c f).session? c = b.session? c :=
  Broker.session?_modifyConn_same fun _ => rfl

theorem greets_modifyLink {b : Broker} {c : ConnId} {f : Link → Link} (h : b.Greets) :
    (b.modifyLink c f).Greets := by
  intro c' k hk hphase
  rw [Broker.modifyLink, Broker.conns_modifyConn] at hk
  split_ifs at hk with hc
  · obtain ⟨k₀, hk₀, rfl⟩ := Option.map_eq_some_iff.1 hk
    exact h c' k₀ hk₀ hphase
  · exact h c' k hk hphase

/-- What is calm after an event was calm before it. -/
theorem Calm.of_steps (hg : j.broker.Greets) (h : Steps j e j' more) (hc : j'.Calm) : j.Calm := by
  -- What is once cancelled or closed stays so.
  have hback {before after : Bool} (hkeeps : before = true → after = true)
      (hafter : after = false) : before = false := by
    rw [← Bool.not_eq_true]
    intro hbefore
    rw [hkeeps hbefore] at hafter
    cases hafter
  cases h with
  | begins _ _ hstarts =>
    obtain ⟨new, hbegun⟩ := hstarts.begun
    exact ⟨hbegun.cancelled.symm.trans hc.client, hc.session, hc.stream⟩
  | refuses => exact hc
  | elapses => exact ⟨hc.client, hc.session, hc.stream⟩
  | @moves a k n hk hstep =>
    have hmoved := Client.step_moved hstep
    have hk' : (j.broker.modifyLink j.conn fun _ => n.2.1).conns[j.conn]? = _ :=
      Broker.conns_modifyConn_self hk
    refine ⟨hback hmoved.cancelled hc.client, ?_, ?_⟩
    · intro s hs
      rw [← session?_modifyLink] at hs
      exact hc.session s hs
    · intro k₀ hk₀
      rw [hk] at hk₀
      cases hk₀
      exact hback hmoved.closed (hc.stream _ hk')
  | serves _ hnext =>
    have hevolves := Broker.next?_evolves hg hnext
    refine ⟨hc.client, hc.session.of_evolves hevolves, ?_⟩
    intro k hk
    obtain ⟨k', hk', hconn⟩ := hevolves.conns j.conn k hk
    exact hback hconn.up (hc.stream k' hk')

/-! ### The client acts -/

/-- No frame is torn while all is calm. -/
theorem not_tears {c : Client} {l : Link} {lane lane' : Lane Party} {i : Party} {lm : LaneMove}
    {bs : Bytes} (hl : lane.Exclusive) (h : Lane.Step l.up c.cancelled i lm lane lane' bs)
    (hstop : lm ≠ .stop) (hcancelled : c.cancelled = false) (hopen : l.up.closed = false) :
    ¬lane.Tears lane' i bs := by
  intro htears
  rcases htears.cause hl h with h | ⟨-, h⟩ | ⟨-, h⟩
  · exact hstop h
  · rw [hcancelled] at h
    cases h
  · rw [hopen] at h
    cases h

/-- A call begins. -/
theorem Sound.begins {n : Nat} {call : ClientCall} {c : Client} (hs : j.Sound log) (hc : j.Calm)
    (hrunning : j.client.stage = .running) (hfresh : j.client.calls[n]? = none)
    (h : Client.Starts j.client n call c) :
    Sound { j with client := c } (log ++ ⟨Client.begun call, []⟩) := by
  obtain ⟨k, handled, queue, hd⟩ := hs.delivers
  obtain ⟨new, hbegun⟩ := h.begun
  have hnone : j.client.call? n = none := by
    rw [Client.call?, hfresh]
    rfl
  have hstep := hbegun.stepsAt (l := k.link) hrunning hnone
  have hcalm := not_tears hs.exclusive hstep (by simp) hc.client (hc.stream k hd.conn)
  have hcarries := hd.carries.step hs.exclusive hstep hcalm
  -- Nothing is written when a call begins.
  rw [Lane.completed_nil, List.append_nil, List.append_nil] at hcarries
  refine ⟨hs.greets, .of_running (hbegun.stage.trans hrunning), hs.exclusive.step hstep,
    hs.speaks.starts h, k, handled, queue, hd.conn, hd.steady, ?_, ?_, ?_, ?_, ?_⟩
  · rw [hbegun.config]
    exact hcarries
  · rw [hbegun.config]
    exact hd.wellFormed
  · rw [Log.served_append, List.append_nil]
    exact hd.held
  · refine hd.accounts.starts h ?_
    rw [Client.request?, hnone]
    rfl
  · rw [Log.served_append, List.append_nil]
    exact hd.reflects

/-- The client moves. -/
theorem Sound.moves {a : Client.Action} {n : Client.Next} (hs : j.Sound log) (hc : j.Calm)
    (hk : j.broker.conns[j.conn]? = some k) (h : j.client.step k.link a = some n) :
    Sound { j with client := n.1, broker := j.broker.modifyLink j.conn fun _ => n.2.1 }
      (log ++ ⟨j.client.notes n.2.2, []⟩) := by
  obtain ⟨k₀, handled, queue, hd⟩ := hs.delivers
  rw [hd.conn] at hk
  cases hk
  have hopen := hc.stream k hd.conn
  have hstep := Client.stepsAt_of_step hs.orderly h
  have hmoved := Client.step_moved h
  obtain ⟨done, hdone, hpacket⟩ := Client.exists_completed n.1.lane (Client.streamOf n.2.2)
    hs.speaks
  have hcarries := hd.carries.step hs.exclusive hstep
    (not_tears hs.exclusive hstep a.atLane_ne_stop hc.client hopen)
  have haccounts := hd.accounts.step hs.exclusive (Client.step_deals h) hopen hc.client hdone
    fun p hp => (hpacket p hp).2
  refine ⟨greets_modifyLink hs.greets, hs.orderly.step h, hs.exclusive.step hstep, hs.speaks.step h,
    { k with link := n.2.1 }, handled, queue ++ done, Broker.conns_modifyConn_self hd.conn,
    hd.steady, ?_, ?_, ?_, ?_, ?_⟩
  · -- The bytes that the client has pushed come last in what is to be read.
    rw [hmoved.config, List.map_append, ← hdone]
    have hrest : ({ k with link := n.2.1 } : Conn).rest = k.rest ++ Client.streamOf n.2.2 := by
      rw [Conn.rest, Conn.rest, hmoved.unread, List.append_assoc]
    rw [hrest]
    exact hcarries
  · rw [hmoved.config]
    intro p hp
    rcases List.mem_append.1 hp with hp | hp
    · exact hd.wellFormed p hp
    · exact (hpacket p hp).1
  · rw [Log.served_append, List.append_nil]
    exact hd.held
  · rw [← List.append_assoc]
    exact haccounts
  · rw [Log.served_append, List.append_nil]
    exact hd.reflects

/-! ### The broker acts -/

/-- The frame in front is that of the packet at the head of the queue. -/
theorem Delivers.of_parse (hl : j.client.lane.Exclusive) (hd : j.Delivers log k handled queue)
    {f : Frame} {n : Nat} (h : Frame.parse k.rest = .ok (some (f, n))) :
    ∃ p more, queue = p :: more ∧ f = p.frame j.client.config.version ∧
      j.client.lane.Carries (more.map fun p => (p.frame j.client.config.version).bytes)
        (k.rest.drop n) := by
  have hcarries := hd.carries
  cases queue with
  | nil =>
    -- At most a part of a frame has come.
    rw [hcarries.parse_nil hl] at h
    cases h
  | cons p more =>
    obtain ⟨rest, hrest, hcarries⟩ := Lane.carries_cons.1 hcarries
    have hsize := (hd.wellFormed p List.mem_cons_self).size
    rw [hrest, Frame.parse_bytes_append hsize] at h
    cases h
    refine ⟨p, more, rfl, rfl, ?_⟩
    rw [hrest, List.drop_left]
    exact hcarries

/-- Something happens to the broker, or in it. -/
theorem Sound.serves {e : Broker.Event} {b : Broker} {seen : List Observation}
    (hs : j.Sound log) (hpeer : e.peer? ≠ some j.conn) (h : j.broker.next? e = some (b, seen))
    (hc : Calm { j with broker := b }) :
    Sound { j with broker := b } (log ++ ⟨[], j.broker.served j.conn e⟩) := by
  obtain ⟨k, handled, queue, hd⟩ := hs.delivers
  have hevolves := Broker.next?_evolves hs.greets h
  obtain ⟨k', hk', hsteady, hdigests⟩ :=
    Broker.next?_digests hs.greets hd.conn hd.steady hpeer h
  have hgreets := hevolves.greets hs.greets
  generalize j.broker.served j.conn e = served at hdigests
  cases hdigests with
  | rests hrest hfilters =>
    refine ⟨hgreets, hs.orderly, hs.exclusive, hs.speaks, k', handled, queue, hk', hsteady, ?_,
      hd.wellFormed, ?_, ?_, ?_⟩
    · rw [hrest]
      exact hd.carries
    · rw [Log.served_append, List.append_nil]
      exact hd.held
    · rw [Log.notes_append, List.append_nil]
      exact hd.accounts
    · rw [Log.served_append, List.append_nil, hfilters]
      exact hd.reflects
  | @serves v f n p hparse hdecode hrest hfilters =>
    -- The packet served is the head of the queue, perhaps in the reading of another version.
    obtain ⟨q, more, rfl, rfl, hcarries⟩ := hd.of_parse hs.exclusive hparse
    refine ⟨hgreets, hs.orderly, hs.exclusive, hs.speaks, k', handled ++ [q], more, hk',
      hsteady, ?_,
      ?_, ?_, ?_, ?_⟩
    · rw [hrest]
      exact hcarries
    · exact fun p hp => hd.wellFormed p (List.mem_cons_of_mem _ hp)
    · intro g
      rw [Log.served_append, Packet.held_concat, Packet.held_concat, hd.held,
        Packet.settle_of_decode (hd.wellFormed q List.mem_cons_self) hdecode]
    · rw [Log.notes_append, List.append_nil, List.append_assoc]
      exact hd.accounts
    · rw [hfilters]
      exact hd.reflects.serve p
  | ends hended =>
    -- All is calm, so the session has not ended.
    rcases hended with hclosed | ⟨s, hsession, hcancelled⟩
    · rw [hc.stream k' hk'] at hclosed
      cases hclosed
    · have := hc.session s (Broker.session?_eq_some.2 ⟨k', hk', hsession⟩)
      rw [Broker.isCancelled, hcancelled] at this
      cases this

/-! ### Every event -/

/-- **Every event keeps it so**, if all is calm after it. -/
theorem Sound.next (hs : j.Sound log) (h : j.next? e = some (j', more)) (hc : j'.Calm) :
    j'.Sound (log ++ more) := by
  have hsteps := next?_cases h
  have hc₀ := hc.of_steps hs.greets hsteps
  cases hsteps with
  | begins hrunning hfresh hstarts => exact hs.begins hc₀ hrunning hfresh hstarts
  | refuses =>
    rw [Log.append_empty]
    exact hs
  | elapses =>
    rw [Log.append_empty]
    obtain ⟨k, handled, queue, hd⟩ := hs.delivers
    exact ⟨hs.greets, ⟨hs.orderly.reader, hs.orderly.keeper, hs.orderly.calls,
      hs.orderly.turnstile⟩,
      hs.exclusive, ⟨hs.speaks.reader, hs.speaks.call⟩, k, handled, queue, hd.conn, hd.steady,
      hd.carries, hd.wellFormed, hd.held, ⟨hd.accounts.active, hd.accounts.covered⟩, hd.reflects⟩
  | moves hk hstep => exact hs.moves hc₀ hk hstep
  | serves hpeer hnext => exact hs.serves hpeer hnext hc

/-! ### Runs -/

theorem Begins.sound (h : Begins j) : j.Sound .empty := by
  cases h with
  | @intro maxPacketSize start now capacity label es b seen config c hrun hconnect =>
    obtain ⟨bs, hbytes, rfl⟩ := Client.connect_eq_ok hconnect
    have hgreets := (Broker.replay_evolves (Broker.greets_start maxPacketSize start) hrun).greets
      (Broker.greets_start maxPacketSize start)
    refine ⟨Broker.evolves_addConn.greets hgreets, Client.orderly_fresh,
      Client.exclusive_fresh hbytes,
      ?_, .fresh label capacity b.maxPacketSize, [], [], ?_, fun _ => rfl,
      Client.carries_fresh hbytes, nofun, fun _ => rfl, ?_, FilterIndex.reflects_empty⟩
    · refine ⟨fun frame s p hr => ?_, fun n call hn => ?_⟩
      · cases hr
      · rw [Client.call?_fresh] at hn
        cases hn
    · show (b.conns ++ _)[b.conns.length]? = _
      rw [List.getElem?_append_right (Nat.le_refl _), Nat.sub_self]
      rfl
    · refine ⟨fun f => ?_, fun f hf => ?_⟩
      · exact iff_of_false List.not_mem_nil Bool.false_ne_true
      · cases hf

theorem Steps.greets (hg : j.broker.Greets) (h : Steps j e j' more) : j'.broker.Greets := by
  cases h with
  | begins _ _ _ | refuses | elapses => exact hg
  | moves _ _ => exact greets_modifyLink hg
  | serves _ hnext => exact (Broker.next?_evolves hg hnext).greets hg

theorem Run.greets (h : Run j log) : j.broker.Greets := by
  obtain ⟨j₀, es, hbegins, hrun⟩ := h
  exact Machine.replay_induction (P := fun _ j _ => j.broker.Greets) hbegins.sound.greets
    (fun _ _ _ _ _ _ _ hnext ih => (next?_cases hnext).greets ih) hrun

/-- **At every moment of a run that has been calm** what the client has sent arrives. -/
theorem Run.sound (h : Run j log) (hc : j.Calm) : j.Sound log := by
  obtain ⟨j₀, es, hbegins, hrun⟩ := h
  refine Machine.replay_induction (P := fun _ j log => j.Calm → j.Sound log)
    (fun _ => hbegins.sound) ?_ hrun hc
  intro es e j₁ log₁ j₂ more hrun hnext ih hc
  have hgreets : j₁.broker.Greets := Run.greets ⟨j₀, es, hbegins, hrun⟩
  exact (ih (hc.of_steps hgreets (next?_cases hnext))).next hnext hc

end Pair
end Mqtt
