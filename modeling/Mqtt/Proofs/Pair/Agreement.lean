import Mqtt.Proofs.Pair.Delivery
/-!
# What a client and its session agree on

Once no call of subscribe or unsubscribe is outstanding, the active filters of a client ought to be
those that its session holds; then the client wants every message that the broker forwards to it.
`agrees_iff` says when this is so. It goes wrong where a call of unsubscribe returns behind the
beginning of a call of subscribe: the filter is made inactive, and the SUBSCRIBE is served behind
the UNSUBSCRIBE.
-/

namespace Mqtt

namespace Log

/-- A SUBSCRIBE of the filter has been served, and no UNSUBSCRIBE of it since. -/
def Held (log : Log) (f : String) : Prop :=
  ∃ before p after, log.served = before ++ p :: after ∧ p.Asks f ∧ ∀ q ∈ after, ¬q.Drops f

/-- A call of subscribe has begun with the filter, and nothing has made it inactive since. -/
def Active (log : Log) (f : String) : Prop :=
  ∃ before n after, log.notes = before ++ n :: after ∧ n.Takes f ∧ ∀ m ∈ after, ¬m.Gives f

/-- A call of unsubscribe has failed with the filter. -/
def Fails (log : Log) (f : String) : Prop := ∃ gone, .fails gone ∈ log.notes ∧ f ∈ gone

/-- The session was asked for the filter after it had been told to give it up, but the client made
it inactive after it had begun to ask for it. -/
def Lost (log : Log) (f : String) : Prop := log.Held f ∧ ¬log.Active f

end Log

/-- A SUBSCRIBE of the filter has come, and has still to be handled. -/
def Conn.Awaits (k : Conn) (f : String) : Prop :=
  ∃ (before : List Bytes) (p : Packet) (v : Version) (after : Bytes),
    (∀ bs ∈ before, Frame.Whole bs) ∧ p.Asks f ∧
      k.rest = before.flatten ++ (p.frame v).bytes ++ after

namespace Pair

variable {j : Pair} {log : Log} {k : Conn} {handled queue : List Packet} {f : String}

/-- The session of the client holds the filter. -/
def Holds (j : Pair) (f : String) : Prop :=
  ∃ s, j.broker.session? j.conn = some s ∧ s.filters.contains f = true

/-- The active filters are those that the session holds. -/
def Agrees (j : Pair) : Prop := ∀ f, f ∈ j.client.filters ↔ j.Holds f

/-- No call of subscribe or unsubscribe is outstanding. -/
def Idle (j : Pair) : Prop :=
  ∀ (n : Nat) (purpose : Purpose) (id : UInt16) (frame : Except Fault Bytes) (slot : Slot)
    (state : Option Sending),
    j.client.calls[n]? = some (.request purpose id frame slot state) → purpose = .publish

/-- The filter is active and is not held, for a call of unsubscribe failed after all, or a SUBSCRIBE
has still to be handled. -/
def Stale (j : Pair) (log : Log) (f : String) : Prop :=
  log.Active f ∧ ¬log.Held f ∧
    (log.Fails f ∨ ∃ k, j.broker.conns[j.conn]? = some k ∧ k.Awaits f)

/-! ### The two sides -/

theorem Idle.request? (h : j.Idle) {n : Nat} {r : Request} (hr : j.client.request? n = some r) :
    r.purpose = .publish := by
  obtain ⟨call, hcall, hr⟩ := Option.bind_eq_some_iff.1 hr
  obtain ⟨call, hn, rfl⟩ := Option.map_eq_some_iff.1 hcall
  rw [Call.request?_bare] at hr
  cases call with
  | request purpose id frame slot state =>
    cases hr
    exact h n _ _ _ _ _ hn
  | _ => cases hr

theorem Delivers.mem_filters_iff (hd : j.Delivers log k handled queue) :
    f ∈ j.client.filters ↔ log.Active f :=
  (hd.accounts.active f).trans Note.active_iff

/-- The filters of a connection are those of its session. -/
theorem Delivers.session? (hd : j.Delivers log k handled queue) :
    j.broker.session? j.conn = k.session := by
  rw [Broker.session?, hd.conn]
  rfl

theorem Delivers.holds_iff (hd : j.Delivers log k handled queue) : j.Holds f ↔ log.Held f := by
  obtain ⟨S, hS, hmem⟩ := hd.reflects
  have hheld : k.filters.contains f = true ↔ log.Held f :=
    (hS.contains_iff.trans (hmem f)).trans Packet.held_iff
  rw [← hheld, Holds, hd.session?, Conn.filters]
  rcases k.session with _ | s
  · -- Before the session is open, nothing is held on either side.
    refine iff_of_false ?_ ?_
    · rintro ⟨s, h, -⟩
      cases h
    · rw [Bool.not_eq_true]
      exact FilterIndex.contains_empty
  · constructor
    · rintro ⟨s', h, hs'⟩
      cases h
      exact hs'
    · intro h
      exact ⟨s, rfl, h⟩

/-- What is asked for in the queue has come. -/
theorem Delivers.awaits {before after : List Packet} {p : Packet}
    (hd : j.Delivers log k handled queue) (hqueue : queue = before ++ p :: after) (hp : p.Asks f) :
    k.Awaits f := by
  subst hqueue
  obtain ⟨part, hrest, -⟩ := hd.carries
  let bytes (p : Packet) : Bytes := (p.frame j.client.config.version).bytes
  refine ⟨before.map bytes, p, j.client.config.version, (after.map bytes).flatten ++ part, ?_, hp,
    ?_⟩
  · intro bs hbs
    obtain ⟨q, hq, rfl⟩ := List.mem_map.1 hbs
    exact Frame.whole_bytes (hd.wellFormed q (List.mem_append_left _ hq)).size
  · rw [hrest, List.map_append, List.map_cons, List.flatten_append, List.flatten_cons]
    simp only [List.append_assoc, bytes]

/-- Once the client is idle, a filter that is active is held, or it is stale. -/
theorem Delivers.held_of_active (hd : j.Delivers log k handled queue) (hidle : j.Idle)
    (hf : f ∈ j.client.filters) (hnot : ¬j.Stale log f) : log.Held f := by
  by_contra hheld
  have hstale : log.Fails f ∨ ∃ k, j.broker.conns[j.conn]? = some k ∧ k.Awaits f := by
    cases hd.accounts.covered f hf with
    | held hsent =>
      -- What was sent for the filter is in the queue, for the session does not hold it yet.
      have hhandled : Packet.held f handled = false := by
        rw [hd.held, ← Bool.not_eq_true]
        exact fun h => hheld (Packet.held_iff.1 h)
      obtain ⟨before, p, after, hqueue, hp⟩ := Packet.exists_asks_of_held_append hsent hhandled
      exact .inr ⟨k, hd.conn, hd.awaits hqueue hp⟩
    | unsent hr hpurpose _ _ _ | unsendable hr hpurpose _ _ _ | leaving hr hpurpose _ _ =>
      -- Here a call is outstanding.
      rw [hidle.request? hr] at hpurpose
      cases hpurpose
    | failed hnote hgone => exact .inl ⟨_, hnote, hgone⟩
  exact hnot ⟨hd.mem_filters_iff.1 hf, hheld, hstale⟩

/-- Two sides that agree on the filters agree on the topics. -/
theorem Delivers.isSubscribed_eq (hd : j.Delivers log k handled queue) (h : j.Agrees)
    (topic : String) : j.client.isSubscribed topic = j.broker.isSubscribed j.conn topic := by
  obtain ⟨S, hS, hmem⟩ := hd.reflects
  have hbroker : j.broker.isSubscribed j.conn topic = k.filters.matchesTopic topic := by
    rw [Broker.isSubscribed, hd.session?, Conn.filters]
    rcases k.session with _ | s
    · exact FilterIndex.matchesTopic_empty.symm
    · rfl
  rw [hbroker, Bool.eq_iff_iff, hS.matchesTopic_iff, Client.isSubscribed, List.any_eq_true]
  have hfilters (f : String) : f ∈ j.client.filters ↔ f ∈ S := by
    rw [h f, hd.holds_iff, hmem, Packet.held_iff]
    rfl
  simp only [hfilters]

/-- **When a client and its session agree.** In a run in which nothing has been cancelled and the
stream has not failed, once no call of subscribe or unsubscribe is outstanding, the active filters
are those that the session holds exactly if no filter is lost and none is stale. Then the client
wants a message exactly if the broker forwards it. -/
theorem agrees_iff (h : Run j log) (hcalm : j.Calm) (hidle : j.Idle) :
    (j.Agrees ↔ ∀ f, ¬log.Lost f ∧ ¬j.Stale log f) ∧
      (j.Agrees →
        ∀ topic, j.client.isSubscribed topic = j.broker.isSubscribed j.conn topic) := by
  obtain ⟨k, handled, queue, hd⟩ := (h.sound hcalm).delivers
  refine ⟨⟨fun hagrees f => ⟨?_, ?_⟩, fun hnone f => ⟨fun hf => ?_, fun hf => ?_⟩⟩,
    hd.isSubscribed_eq⟩
  · rintro ⟨hheld, hactive⟩
    exact hactive (hd.mem_filters_iff.1 ((hagrees f).2 (hd.holds_iff.2 hheld)))
  · rintro ⟨hactive, hheld, -⟩
    exact hheld (hd.holds_iff.1 ((hagrees f).1 (hd.mem_filters_iff.2 hactive)))
  · exact hd.holds_iff.2 (hd.held_of_active hidle hf (hnone f).2)
  · by_contra hactive
    exact (hnone f).1 ⟨hd.holds_iff.1 hf, fun h => hactive (hd.mem_filters_iff.2 h)⟩

/-- A call sends its request, the broker serves it, and the answer comes back. -/
def exchange (n : Nat) (call : ClientCall) : List Event :=
  [.calls n call] ++ ([.enter, .layOut, .push].map fun m => .client (.party (.call n) (.send m))) ++
    (Broker.answering 0).map .broker ++
    [.receive, .dispatch].map fun m => .client (.party .reader m)

/-- A client subscribes, unsubscribes, and subscribes again before the call of unsubscribe has
returned. -/
def overlap : List Event :=
  let wanted : List Subscription := [⟨"a", .atMostOnce⟩]
  let returns (n : Nat) : List Event := [.client (.party (.call n) .take)]
  [.client (.party .reader (.send .push))] ++ (Broker.answering 0).map .broker ++
    ([.receive, .dispatch].map fun m => .client (.party .reader m)) ++
    exchange 0 (.subscribe wanted) ++ returns 0 ++
    exchange 1 (.unsubscribe ["a"]) ++ exchange 2 (.subscribe wanted) ++ returns 1 ++ returns 2

/-- The session holds the filter, the client does not, and nothing is under way. -/
theorem not_agrees_overlap : ∃ j log, Run j log ∧ j.Calm ∧ j.Idle ∧
    (j.broker.conns[j.conn]?.map fun k =>
      (k.link.up.unread.toList, k.link.down.unread.toList)) = some ([], []) ∧ ¬j.Agrees := by
  have hend : ((Client.connect (.ofAddr "" "c") 0).toOption.bind fun c =>
      (machine.replay ⟨c, (Broker.start 1000 0).addConn "c" 64, 0⟩ overlap).map fun r =>
        ([r.1.client.cancelled, !r.1.client.calls.isEmpty,
            (r.1.broker.session? r.1.conn).any r.1.broker.isCancelled,
            r.1.broker.conns[r.1.conn]?.any fun k => k.link.up.closed,
            !Packet.held "a" r.2.served, Note.active "a" r.2.notes],
          r.1.broker.conns[r.1.conn]?.map fun k =>
            (k.link.up.unread.toList, k.link.down.unread.toList))) =
      some ([false, false, false, false, false, false], some ([], [])) := by
    decide +kernel
  -- What the replay has come to, field by field.
  obtain ⟨c, hconnect, hend⟩ := Option.bind_eq_some_iff.1 hend
  obtain ⟨⟨j, log⟩, hreplay, hend⟩ := Option.map_eq_some_iff.1 hend
  simp only [Prod.mk.injEq, List.cons.injEq, Bool.not_eq_false', and_true] at hend
  obtain ⟨⟨hcancelled, hcalls, hsession, hclosed, hheld, hactive⟩, hempty⟩ := hend
  have hstart : (Broker.start 1000 0).replay [] = some (Broker.start 1000 0, []) := rfl
  have hbegins : Begins ⟨c, (Broker.start 1000 0).addConn "c" 64, 0⟩ := by
    rcases hc : Client.connect (.ofAddr "" "c") 0 with e | c'
    · rw [hc] at hconnect
      cases hconnect
    · rw [hc] at hconnect
      cases hconnect
      exact .intro hstart hc
  have hcalm : j.Calm := by
    refine ⟨hcancelled, fun s hs => ?_, fun k hk => ?_⟩
    · rwa [hs] at hsession
    · rwa [hk] at hclosed
  have hidle : j.Idle := by
    intro n purpose id frame slot state h
    rw [Std.TreeMap.getElem?_of_isEmpty hcalls] at h
    cases h
  have hrun : Run j log := ⟨_, overlap, hbegins, hreplay⟩
  refine ⟨j, log, hrun, hcalm, hidle, hempty, fun hagrees => ?_⟩
  -- The filter is lost: it is held, and the last note of it makes it inactive.
  refine (((agrees_iff hrun hcalm hidle).1.1 hagrees) "a").1 ⟨Packet.held_iff.1 hheld, fun h => ?_⟩
  rw [show Note.active "a" log.notes = true from Note.active_iff.2 h] at hactive
  cases hactive

end Pair
end Mqtt
