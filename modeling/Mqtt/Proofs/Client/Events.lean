import Mqtt.Proofs.Client.Runs
/-!
# What an event leaves as it is

The events of a run, seen from each side: a step of one party at the lane (`Happens.lane`), what
becomes of one call (`Happens.meets`), and what stays once it is so (`Happens.stays`). Bytes come
into the stream only where somebody pushes (`Happens.push`), and never once it is closed
(`Happens.streamOf_of_closed`).
-/

namespace Mqtt

/-- Nothing is taken by a pipe that is closed. -/
theorem Lane.Own.nil_of_closed {ι : Type} [DecidableEq ι] {p : Pipe} {cancelled : Bool} {i : ι}
    {t t' : Turnstile ι} {m : LaneMove} {x y : Option (Except Fault Bytes × Sending)} {bs : Bytes}
    (h : Lane.Own p cancelled i t m x t' y bs) (hclosed : p.closed = true) : bs = [] := by
  cases h with
  | send hm =>
    cases hm with
    | part hw _ | whole hw =>
      rw [(Pipe.write_eq_took.1 hw).1] at hclosed
      cases hclosed
    | _ => rfl
  | _ => rfl

namespace Client

variable {c c' : Client} {l l' : Link} {e : Event} {i : Party} {k : Nat} {n : Next}

/-! ### Bytes that come into the stream -/

/-- Where the stream takes bytes, a frame is pushed. -/
theorem Sends.push {frame : Except Fault Bytes} {s : Sending} {m : SendMove}
    {r : Sending ⊕ Except Fault Unit} {seen : List ClientObservation}
    (h : Sends c l i frame s m c' l' r seen) (hw : streamOf seen ≠ []) :
    m = .push ∧ ∃ left, s = .pushing left := by
  cases h with
  | intro hm =>
    rw [streamOf_wrote] at hw
    cases hm with
    | part _ _ | whole _ => exact ⟨rfl, _, rfl⟩
    | _ => exact absurd rfl hw

/-- **Where the stream takes bytes, somebody pushes a frame.** -/
theorem step_push {a : Action} (h : c.step l a = some n) (hw : streamOf n.2.2 ≠ []) :
    ∃ i frame left, a = .party i (.send .push) ∧ c.sending? i = some (frame, .pushing left) := by
  -- A frame that moves on puts bytes into the stream only when it is pushed.
  have hpush {i : Party} {frame : Except Fault Bytes} {s : Sending} {m : SendMove} {c' : Client}
      {l' : Link} {r : Sending ⊕ Except Fault Unit} {seen : List ClientObservation}
      (hsends : Sends c l i frame s m c' l' r seen) (hi : c.sending? i = some (frame, s))
      (hw : streamOf seen ≠ []) : ∃ j frame left, Action.party i (.send m) =
        .party j (.send .push) ∧ c.sending? j = some (frame, .pushing left) := by
    obtain ⟨rfl, left, rfl⟩ := hsends.push hw
    exact ⟨i, frame, left, rfl, hi⟩
  cases step_cases h with
  | opening hopens =>
    cases hopens with
    | @connects left _ _ _ hstage _ =>
      -- The opening call pushes the CONNECT in the name of the reading task.
      exact ⟨.reader, _, left, rfl, by simp only [sending?, hstage]; rfl⟩
    | _ => exact absurd rfl hw
  | reader hrunning hreads =>
    cases hreads with
    | answers hc hsends | answerFails hc hsends | answered hc hsends =>
      exact hpush hsends (sending?_of_answering hrunning hc) hw
    | _ => exact absurd rfl hw
  | keeper hkeeps =>
    cases hkeeps with
    | pings hc hsends | pinged hc hsends | pingFails hc hsends =>
      exact hpush hsends (sending?_of_pinging hc) hw
    | _ => exact absurd rfl hw
  | call hcall hcalls =>
    have hbefore := sending?_call_eq hcall
    cases hcalls with
    | sends hsends | requests hsends | requested hsends | leaves hsends | left hsends =>
      exact hpush hsends hbefore hw
    | sent hsends =>
      refine hpush hsends hbefore ?_
      simpa [returnsUnit, returns] using hw
    | requestFails hsends =>
      refine hpush hsends hbefore ?_
      rw [requestFails_eq] at hw
      simpa using hw
    | acknowledged =>
      -- A request that is answered writes nothing any more.
      obtain ⟨a, ha, -⟩ := requestReturns_eq (c := c) (l := l) (k := _) _ _ _
      rw [ha] at hw
      exact absurd rfl hw
    | forgotten | cancelled _ =>
      rw [requestFails_eq] at hw
      exact absurd rfl hw
    | _ => exact absurd rfl hw
  | givesUp _ => exact absurd rfl hw

theorem Happens.push (h : Happens c l e n) (hw : streamOf n.2.2 ≠ []) :
    ∃ i frame left, e = .move (.party i (.send .push)) ∧
      c.sending? i = some (frame, .pushing left) := by
  cases h with
  | moves hstep =>
    obtain ⟨i, frame, left, rfl, hi⟩ := step_push hstep hw
    exact ⟨i, frame, left, rfl, hi⟩
  | _ => exact absurd rfl hw

/-- Whoever has sent a frame has pushed the rest of it. -/
theorem Sends.whole {frame : Except Fault Bytes} {s : Sending} {m : SendMove}
    {seen : List ClientObservation} (h : Sends c l i frame s m c' l' (.inr (.ok ())) seen) :
    s = .pushing (streamOf seen) := by
  generalize hr : (Sum.inr (.ok ()) : Sending ⊕ Except Fault Unit) = r at h
  cases h with
  | intro hm =>
    rw [streamOf_wrote]
    cases hm with
    | @whole left taken _ hw => rw [← Pipe.append_of_write hw, List.append_nil]
    | _ => cases hr

/-! ### What becomes of a call -/

/-- How a call goes on that moves and does not return, with the bytes that the stream takes. -/
inductive GoesOn (c : Client) (l : Link) (k : Nat) : Call → Move → Bytes → Call → Prop
  | sends {frame : Except Fault Bytes} {s s' : Sending} {m : SendMove} {c' : Client} {l' : Link}
    {seen : List ClientObservation} : Sends c l (.call k) frame s m c' l' (.inl s') seen →
    GoesOn c l k (.send frame s) (.send m) (streamOf seen) (.send frame s')
  | requests {purpose : Purpose} {id : UInt16} {frame : Except Fault Bytes} {slot : Slot}
    {s s' : Sending} {m : SendMove} {c' : Client} {l' : Link} {seen : List ClientObservation} :
    Sends c l (.call k) frame s m c' l' (.inl s') seen →
    GoesOn c l k (.request purpose id frame slot (some s)) (.send m) (streamOf seen)
      (.request purpose id frame slot (some s'))
  | requested {purpose : Purpose} {id : UInt16} {frame : Except Fault Bytes} {slot : Slot}
    {s : Sending} {m : SendMove} {c' : Client} {l' : Link} {seen : List ClientObservation} :
    Sends c l (.call k) frame s m c' l' (.inr (.ok ())) seen →
    GoesOn c l k (.request purpose id frame slot (some s)) (.send m) (streamOf seen)
      (.request purpose id frame slot none)
  | waits {deadline : Option Nat} :
    GoesOn c l k (.receive deadline false) .enter [] (.receive deadline true)
  | leaves {frame : Except Fault Bytes} {s s' : Sending} {m : SendMove} {c' : Client} {l' : Link}
    {seen : List ClientObservation} : Sends c l (.call k) frame s m c' l' (.inl s') seen →
    GoesOn c l k (.leave frame s) (.send m) (streamOf seen) (.leave frame s')
  | left {frame : Except Fault Bytes} {s : Sending} {m : SendMove} {c' : Client} {l' : Link}
    {r : Except Fault Unit} {seen : List ClientObservation} :
    Sends c l (.call k) frame s m c' l' (.inr r) seen →
    GoesOn c l k (.leave frame s) (.send m) (streamOf seen) (.leaving r false)
  | comes {r : Except Fault Unit} : GoesOn c l k (.leaving r false) .enter [] (.leaving r true)

/-- **A call that moves returns or goes on.** -/
theorem Calls.own {call : Call} {m : Move} (h : Calls c l k call m n) :
    n.1.call? k = none ∨
      ∃ call', n.1.call? k = some call'.bare ∧ GoesOn c l k call m (streamOf n.2.2) call' := by
  have hgoes {n : Next} {c₁ : Client} {call' : Call}
      (hcalls : n.1.calls = c₁.calls.insert k call')
      (hgoes : GoesOn c l k call m (streamOf n.2.2) call') : n.1.call? k = none ∨
        ∃ call', n.1.call? k = some call'.bare ∧ GoesOn c l k call m (streamOf n.2.2) call' :=
    .inr ⟨call', (call?_of_insert hcalls).trans (if_pos rfl), hgoes⟩
  cases h with
  | sends hsends => exact hgoes rfl (.sends hsends)
  | requests hsends => exact hgoes rfl (.requests hsends)
  | requested hsends => exact hgoes rfl (.requested hsends)
  | leaves hsends => exact hgoes rfl (.leaves hsends)
  | left hsends => exact hgoes rfl (.left hsends)
  | waits => exact hgoes rfl .waits
  | comes => exact hgoes rfl .comes
  -- These return, and a call that returns is forgotten.
  | sent _ | receives _ _ | exhausts _ _ _ | expires _ _ | shuts _ =>
    exact .inl ((call?_of_erase rfl).trans (if_pos rfl))
  | requestFails _ | forgotten | cancelled _ =>
    -- A request is withdrawn together with its id.
    rw [requestFails_eq]
    exact .inl (call?_withdraw.trans (if_pos rfl))
  | acknowledged =>
    obtain ⟨a, ha, -⟩ := requestReturns_eq (c := c) (l := l) (k := k) _ _ _
    rw [ha]
    exact .inl (call?_withdraw.trans (if_pos rfl))

/-- A call that is still there has gone on. -/
theorem Calls.goesOn {call new : Call} {m : Move} (h : Calls c l k call m n)
    (hk : n.1.call? k = some new) :
    ∃ call', call'.bare = new ∧ GoesOn c l k call m (streamOf n.2.2) call' := by
  rcases h.own with hnone | ⟨call', hk', hgoes⟩
  · rw [hnone] at hk
    cases hk
  · exact ⟨call', Option.some.inj (hk'.symm.trans hk), hgoes⟩

theorem Reads.call? {m : Move} (h : Reads c l m n) (k : Nat) : n.1.call? k = c.call? k := by
  cases h with
  | ceases _ _ => exact call?_endReader
  | reads _ _ _ => rfl
  | undecodable _ _ _ => exact (readerMoved_takeFrame.trans readerMoved_endReader).call? k
  | handles _ _ _ => exact (readerMoved_takeFrame.trans (handles_handle _).moved).call? k
  | answers _ hsends =>
    obtain ⟨t, rfl⟩ := hsends.client
    rfl
  | answerFails _ hsends =>
    obtain ⟨t, rfl⟩ := hsends.client
    exact call?_endReader
  | answered _ hsends =>
    obtain ⟨t, rfl⟩ := hsends.client
    exact readerMoved_afterAnswer.call? k

theorem Keeps.call? {m : Move} (h : Keeps c l m n) (k : Nat) : n.1.call? k = c.call? k := by
  cases h with
  | ceases _ _ | wakes _ _ => rfl
  | pings _ hsends | pinged _ hsends | pingFails _ hsends =>
    obtain ⟨t, rfl⟩ := hsends.client
    rfl

theorem Opens.call? {m : Move} (h : Opens c l m n) (k : Nat) : n.1.call? k = c.call? k := by
  cases h <;> rfl

theorem Drops.callMoved {call : Option Call} (h : Drops c k call c') : CallMoved k c c' := by
  cases h with
  | requests | waits =>
    exact ⟨rfl, rfl, rfl, rfl, fun k' hk' => call?_release.trans (if_neg hk')⟩
  | _ => exact callMoved_of_erase rfl rfl rfl rfl rfl

theorem Drops.call?_eq_none {call : Option Call} (h : Drops c k call c') : c'.call? k = none := by
  cases h with
  | requests | waits => rw [call?_release, if_pos rfl]
  | _ => exact (call?_of_erase rfl).trans (if_pos rfl)

theorem Drops.cancelled {call : Option Call} (h : Drops c k call c') :
    c'.cancelled = c.cancelled := by
  cases h <;> rfl

/-- What an event has to do with a call. -/
inductive Meets (c : Client) (l : Link) (e : Event) (n : Next) (k : Nat) : Prop
  | rests : n.1.call? k = c.call? k → Meets c l e n k
  | begins {call : ClientCall} : e = .input (.calls k call) → c.call? k = none →
    Starts c k call n.1 → Meets c l e n k
  | dropped : e = .input (.abandons k) → n.1.call? k = none → Meets c l e n k
  | moves {call : Call} {m : Move} : e = .move (.party (.call k) m) → c.calls[k]? = some call →
    Calls c l k call m n → Meets c l e n k

/-- **What becomes of a call**: it begins, is dropped, or moves, and nobody else changes it. -/
theorem Happens.meets (h : Happens c l e n) (k : Nat) : Meets c l e n k := by
  cases h with
  | @begins k' call c' hrunning hfresh hstarts =>
    by_cases hk : k = k'
    · subst hk
      exact .begins rfl (call?_eq_none_iff.2 hfresh) hstarts
    · -- A call that begins under another number leaves this one alone.
      obtain ⟨new, hbegun⟩ := hstarts.begun
      exact .rests ((call?_of_insert hbegun.calls).trans (if_neg hk))
  | @abandons k' =>
    by_cases hk : k = k'
    · subst hk
      exact .dropped rfl (drops_abandon k).call?_eq_none
    · exact .rests ((drops_abandon k').callMoved.call? k hk)
  | moves hstep =>
    cases step_cases hstep with
    | opening hopens => exact .rests (hopens.call? k)
    | reader _ hreads => exact .rests (hreads.call? k)
    | keeper hkeeps => exact .rests (hkeeps.call? k)
    | @call k' call m _ hcall hcalls =>
      by_cases hk : k = k'
      · subst hk
        exact .moves rfl hcall hcalls
      · exact .rests (hcalls.callMoved.call? k hk)
    | givesUp _ => exact .rests rfl
  | _ => exact .rests rfl

/-! ### What stays -/

/-- What stays of a client and its connection once it is so. -/
structure Stays (c : Client) (l : Link) (n : Next) : Prop where
  config : n.1.config = c.config
  cancelled : c.cancelled = true → n.1.cancelled = true
  closed : l.up.closed = true → n.2.1.up.closed = true

theorem Stays.running (h : Stays c l n) (hrunning : n.1.cancelled = false) :
    c.cancelled = false := by
  by_contra hne
  rw [h.cancelled (by simpa using hne)] at hrunning
  cases hrunning

theorem Happens.stays (h : Happens c l e n) : Stays c l n := by
  cases h with
  | begins _ _ hstarts =>
    obtain ⟨new, hbegun⟩ := hstarts.begun
    exact ⟨hbegun.config, hbegun.cancelled.trans, id⟩
  | @abandons k =>
    have hdrops := drops_abandon (c := c) k
    exact ⟨hdrops.callMoved.config, hdrops.cancelled.trans, id⟩
  | cancels | drops => exact ⟨rfl, fun _ => rfl, id⟩
  | reads hread => exact ⟨rfl, id, (Pipe.closed_of_read hread).trans⟩
  | leaves => exact ⟨rfl, id, fun _ => rfl⟩
  | moves hstep =>
    have hmoved := step_moved hstep
    exact ⟨hmoved.config, hmoved.cancelled, hmoved.closed⟩
  | _ => exact ⟨rfl, id, id⟩

/-! ### Steps at the lane -/

/-- A call leaves the line that is dropped with its frame. -/
theorem quit_own {frame : Except Fault Bytes} {s : Sending} :
    Lane.Own l.up c.cancelled (.call k) c.turnstile .stop (some (frame, s)) (c.quit k s).turnstile
      none [] := by
  cases s with
  | starting => exact .drop
  | inLine | pushing _ => exact .quit (by simp)

/-- **A call that is dropped makes a step at the lane.** -/
theorem Drops.lane (h : Drops c k c.calls[k]? c') (hrunning : c.stage = .running) :
    ∃ lm, Lane.Step l.up c.cancelled (.call k) lm c.lane c'.lane [] ∧
      (lm = .apart ∨ lm = .stop) := by
  have hmoved := h.callMoved
  have hafter := sending?_of_call?_eq_none h.call?_eq_none
  have hstep {lm : LaneMove} (hlm : lm = .apart ∨ lm = .stop)
      (hown : Lane.Own l.up c.cancelled (.call k) c.turnstile lm
        (c.sending? (.call k)) c'.turnstile none []) :
      ∃ lm, Lane.Step l.up c.cancelled (.call k) lm c.lane c'.lane [] ∧
        (lm = .apart ∨ lm = .stop) := by
    refine ⟨lm, ⟨?_, hmoved.others⟩, hlm⟩
    show Lane.Own l.up c.cancelled (.call k) c.gate lm (c.sending? (.call k)) c'.gate
      (c'.sending? (.call k)) []
    rw [gate_of_running hrunning, gate_of_running (hmoved.stage.trans hrunning), hafter]
    exact hown
  have hbefore : c.sending? (.call k) = c.calls[k]?.bind Call.sending? := by
    rcases hcall : c.calls[k]? with _ | call
    · exact sending?_of_call?_eq_none (call?_eq_none_iff.2 hcall)
    · exact sending?_call_eq hcall
  rw [hbefore] at hstep
  generalize c.calls[k]? = call at h hstep
  cases h with
  -- One that has a frame drops it, wherever it stands with that.
  | sends | leaves | requests => exact hstep (.inr rfl) quit_own
  -- One that waits to shut the stream is in line without a frame.
  | shuts => exact hstep (.inl rfl) .leave
  | _ => exact hstep (.inl rfl) .rest

/-- Nobody acts at the lane. -/
theorem lane_of_same (hgate : c'.gate = c.gate) (hsame : ∀ j, c'.sending? j = c.sending? j) :
    Lane.Step l.up c.cancelled i .apart c.lane c'.lane [] := by
  refine ⟨?_, fun j _ => hsame j⟩
  show Lane.Own l.up c.cancelled i c.gate .apart (c.sending? i) c'.gate (c'.sending? i) []
  rw [hgate, hsame]
  exact .rest

/-- Who acts in an event. -/
def Event.actor : Event → Party
  | .input (.calls k _) | .input (.abandons k) => .call k
  | .input _ => .reader
  | .move a => a.actor

/-- How an event acts at the lane, unless a call is dropped. -/
def Event.atLane : Event → LaneMove
  | .input _ => .apart
  | .move a => a.atLane

/-- **Every event is a step of one party at the lane**, and a frame is dropped only where a call
is. -/
theorem Happens.lane (h : Happens c l e n) (ho : c.Orderly) :
    ∃ lm, Lane.Step l.up c.cancelled e.actor lm c.lane n.1.lane (streamOf n.2.2) ∧
      (lm = e.atLane ∨ lm = .stop ∧ ∃ k, e = .input (.abandons k)) := by
  have hsame {c' : Client} {i : ClientInput} (he : e = .input i) (hgate : c'.gate = c.gate)
      (hsending : ∀ j, c'.sending? j = c.sending? j) :
      ∃ lm, Lane.Step l.up c.cancelled e.actor lm c.lane c'.lane [] ∧
        (lm = e.atLane ∨ lm = .stop ∧ ∃ k, e = .input (.abandons k)) :=
    ⟨.apart, lane_of_same hgate hsending, .inl (he ▸ rfl)⟩
  cases h with
  | @begins k call c' hrunning hfresh hstarts =>
    obtain ⟨new, hbegun⟩ := hstarts.begun
    have hnone := call?_eq_none_iff.2 hfresh
    exact ⟨.apart, hbegun.stepsAt hrunning hnone, .inl rfl⟩
  | @abandons k =>
    have hdrops := drops_abandon (c := c) k
    by_cases hrunning : c.stage = .running
    · obtain ⟨lm, hstep, hlm⟩ := hdrops.lane hrunning
      exact ⟨lm, hstep, hlm.imp_right fun hstop => ⟨hstop, k, rfl⟩⟩
    · -- There is no such call before the session is open.
      have hnone : c.calls[k]? = none := call?_eq_none_iff.1 (ho.calls hrunning k)
      rw [hnone] at hdrops
      generalize c.abandon k = c' at hdrops ⊢
      cases hdrops
      refine hsame rfl rfl fun j => ?_
      cases j with
      | call k' =>
        show ((({ c with calls := c.calls.erase k } : Client).call? k').bind Call.sending?) =
          (c.call? k').bind Call.sending?
        rw [call?_of_erase rfl]
        split_ifs with hk
        · rw [hk, ho.calls hrunning k]
        · rfl
      | _ => rfl
  | refuses _ _ _ => exact hsame rfl rfl fun _ => rfl
  | moves hstep => exact ⟨_, stepsAt_of_step ho hstep, .inl rfl⟩
  | _ => exact hsame rfl rfl fun j => by cases j <;> rfl

/-- Nothing comes into a stream that is closed. -/
theorem Happens.streamOf_of_closed (h : Happens c l e n) (ho : c.Orderly)
    (hclosed : l.up.closed = true) : streamOf n.2.2 = [] := by
  obtain ⟨lm, hstep, -⟩ := h.lane ho
  exact hstep.own.nil_of_closed hclosed

/-! ### Every run -/

/-- Before the session is open nothing goes on but its opening. -/
theorem Happens.orderly (h : Happens c l e n) (ho : c.Orderly) : n.1.Orderly := by
  have hsame {c' : Client} (hstage : c'.stage = c.stage) (hreader : c'.reader = c.reader)
      (hkeeper : c'.keeper = c.keeper) (hcalls : c'.calls = c.calls)
      (hturnstile : c'.turnstile = c.turnstile) : c'.Orderly := by
    refine ⟨?_, ?_, ?_, ?_⟩
    · rw [hstage, hreader]
      exact ho.reader
    · rw [hstage, hkeeper]
      exact ho.keeper
    · intro hne k
      rw [call?, hcalls]
      exact ho.calls (hstage ▸ hne) k
    · rw [hstage, hturnstile]
      exact ho.turnstile
  cases h with
  | begins hrunning _ hstarts =>
    obtain ⟨new, hbegun⟩ := hstarts.begun
    exact .of_running (hbegun.stage.trans hrunning)
  | @abandons k =>
    have hdrops := drops_abandon (c := c) k
    have hmoved := hdrops.callMoved
    by_cases hrunning : c.stage = .running
    · exact .of_running (hmoved.stage.trans hrunning)
    · -- There is no call before the session is open, so none is dropped.
      have hnone : c.calls[k]? = none := call?_eq_none_iff.1 (ho.calls hrunning k)
      rw [hnone] at hdrops
      generalize c.abandon k = c' at hdrops ⊢
      cases hdrops
      refine ⟨ho.reader, ho.keeper, fun hne k' => ?_, ho.turnstile⟩
      rw [call?_of_erase rfl]
      split_ifs
      · rfl
      · exact ho.calls hne k'
  | moves hstep => exact ho.step hstep
  | _ => exact hsame rfl rfl rfl rfl rfl

/-- What every run of a client keeps of its parties. -/
structure Wired (c : Client) : Prop where
  orderly : c.Orderly
  exclusive : c.lane.Exclusive

theorem Begins.wired (h : Begins c l) : c.Wired := by
  cases h with
  | intro hconnect =>
    obtain ⟨bs, hbytes, rfl⟩ := connect_eq_ok hconnect
    exact ⟨orderly_fresh, exclusive_fresh hbytes⟩

theorem Wired.next (h : c.Wired) (hevent : c.event? l e = some n) : n.1.Wired := by
  have hhappens := happens_of_event? hevent
  obtain ⟨lm, hstep, -⟩ := hhappens.lane h.orderly
  exact ⟨hhappens.orderly h.orderly, h.exclusive.step hstep⟩

theorem wired_of_replay {es : List Event} {seen : List ClientObservation} (hw : c.Wired)
    (h : c.replay l es = some (c', l', seen)) : c'.Wired :=
  replay_invariant (P := fun c _ => c.Wired) (fun _ _ _ _ hevent hw => hw.next hevent) hw h

/-- What stays once it is so stays in the course of a run. -/
theorem stays_of_replay {es : List Event} {seen : List ClientObservation}
    (h : c.replay l es = some (c', l', seen)) : Stays c l (c', l', seen) := by
  refine replay_induction (P := fun _ c' l' seen => Stays c l (c', l', seen)) ⟨rfl, id, id⟩ ?_ h
  intro es e c₁ l₁ seen₁ c₂ l₂ more _ hevent hstays
  have hnext := (happens_of_event? hevent).stays
  exact ⟨hnext.config.trans hstays.config, fun hc => hnext.cancelled (hstays.cancelled hc),
    fun hc => hnext.closed (hstays.closed hc)⟩

end Client
end Mqtt
