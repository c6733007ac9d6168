import Mqtt.Proofs.Client.Farewell
import Mqtt.Proofs.Client.Lines
import Mqtt.Proofs.Client.Turns
/-!
# What a client has written

Calls, the reading task and the pinging task write into one stream, each in pieces and as there is
room. As long as nothing is cancelled, no write fails and no call is dropped, the stream is the
CONNECT and behind it whole frames, one for each packet that a party has begun and is done with, and
at most a part of one more (`transcript_of_replay`). Packets that cannot be encoded leave nothing
there.

* `Happens.over`: a party is done with its frame when that is all in the stream, or when there is
  none.
* `Tidy`: what is kept of the stream from event to event; `Opened` is the part about the CONNECT.
* `Quiescent.sending?_eq_none`: nobody waits for ever to send.
* `Happens.unsent`: what is left of a call whose packet cannot be encoded, such as an UNSUBSCRIBE
  with a filter that is too long to be written.
-/

namespace Mqtt

theorem Packet.toBytes_pingReq (v : Version) : Packet.pingReq.toBytes v = .ok [0xc0, 0] := by
  cases v <;> decide +kernel

namespace Client

variable {c c' c₁ c₂ : Client} {l l' l₁ l₂ : Link} {e : Event} {es es₁ : List Event} {i j : Party}
  {k : Nat} {n : Next} {seen seen₁ : List ClientObservation} {log : List ClientDeed}

/-- A party finds the stream closed when it pushes. -/
def FailsWrite (_ : Client) (l : Link) (e : Event) : Prop :=
  l.up.closed = true ∧ ∃ i, e = .move (.party i (.send .push))

/-- A call is dropped by its caller. -/
def Abandons (_ : Client) (_ : Link) (e : Event) : Prop := ∃ k, e = .input (.abandons k)

/-! ### Nothing is left unfinished -/

theorem Event.eq_of_atLane {m : SendMove} (h : e.atLane = .send m) :
    e = .move (.party e.actor (.send m)) := by
  rcases e with i | ⟨i, m'⟩ | _
  · cases h
  · cases m' with
    | send m' =>
      cases h
      rfl
    | _ => cases h
  · cases h

theorem Event.atLane_ne_stop (e : Event) : e.atLane ≠ .stop := by
  rcases e with i | a
  · nofun
  · exact a.atLane_ne_stop

/-- A party breaks off its frame: its call is dropped, the token is cancelled, or the stream is
closed. -/
inductive BreaksOff (i : Party) (c : Client) (l : Link) : Event → Prop
  | dropped {k : Nat} : i = .call k → BreaksOff i c l (.input (.abandons k))
  | cancelled : c.cancelled = true → BreaksOff i c l (.move (.party i (.send .giveUp)))
  | broken : l.up.closed = true → BreaksOff i c l (.move (.party i (.send .push)))

theorem not_breaksOff (hcancelled : c.cancelled = false) (hwrites : ¬FailsWrite c l e)
    (hkeeps : i = .reader ∨ ¬Abandons c l e) : ¬BreaksOff i c l e := by
  intro h
  cases h with
  | dropped hi =>
    refine hkeeps.elim (fun hreader => ?_) fun hkeeps => hkeeps ⟨_, rfl⟩
    rw [hi] at hreader
    cases hreader
  | cancelled hc =>
    rw [hcancelled] at hc
    cases hc
  | broken hclosed => exact hwrites ⟨hclosed, i, rfl⟩

/-- How an event can leave a party without a frame: the party breaks it off, there is none, or it is
written to the end. -/
theorem Happens.over (h : Happens c l e n) (ho : c.Orderly) {frame : Except Fault Bytes}
    {s : Sending}
    (hi : c.sending? e.actor = some (frame, s)) (hgone : n.1.sending? e.actor = none) :
    BreaksOff e.actor c l e ∨
      (∃ f, frame = .error f ∧ s = .inLine ∧ e = .move (.party e.actor (.send .layOut))) ∨
      s = .pushing (streamOf n.2.2) := by
  obtain ⟨lm, hlane, hlm⟩ := h.lane ho
  have hmove {m : SendMove} (h : lm = .send m) : e = .move (.party e.actor (.send m)) := by
    rcases hlm with hlm | ⟨hlm, -⟩
    · exact Event.eq_of_atLane (hlm.symm.trans h)
    · rw [hlm] at h
      cases h
  generalize streamOf n.2.2 = bs at hlane ⊢
  generalize hm : lm = m at hlane
  -- The lane knows five ways out of it. Three of them break the frame off.
  cases hlane.over hi hgone with
  | stops =>
    obtain ⟨-, k, rfl⟩ := hlm.resolve_left fun h => e.atLane_ne_stop (h.symm.trans hm)
    exact .inl (.dropped rfl)
  | givesUp hc =>
    rw [hmove hm]
    exact .inl (.cancelled hc)
  | broken hclosed =>
    rw [hmove hm]
    exact .inl (.broken hclosed)
  | fault => exact .inr (.inl ⟨_, rfl, rfl, hmove hm⟩)
  | whole => exact .inr (.inr rfl)

/-- Nobody goes away and leaves its frame as it is, unless it breaks that off. -/
theorem Happens.not_quits (h : Happens c l e n) (hw : c.Wired) (hgoes : ¬BreaksOff i c l e) :
    .quits i ∉ c.deeds l e n := by
  intro hquits
  obtain ⟨rfl, hends⟩ := mem_endings_of_mem_deeds hquits rfl nofun
  rcases hbefore : c.sending? e.actor with _ | ⟨frame, s⟩
  · rw [endings_eq_nil (.inl hbefore)] at hends
    cases hends
  rcases hafter : n.1.sending? e.actor with _ | x
  · rw [endings, hbefore, hafter] at hends
    rcases (h.over hw.orderly hbefore hafter).resolve_left hgoes with ⟨f, rfl, rfl, he⟩ | rfl
    · rw [he] at hends
      simp [Event.isLayOut] at hends
    · -- What was left of the frame is all in the stream.
      obtain ⟨hleft, part, rfl⟩ := hw.exclusive.part _ _ _ hbefore
      simp [hleft] at hends
  · rw [endings_eq_nil (.inr ⟨x, hafter⟩)] at hends
    cases hends

/-- No frame is torn, unless it is broken off. -/
theorem Happens.carries (h : Happens c l e n) (hw : c.Wired) (hgoes : ¬BreaksOff e.actor c l e)
    {frames : List Bytes} {written : Bytes} (hcarries : c.lane.Carries frames written) :
    n.1.lane.Carries (frames ++ framesOf (c.deeds l e n)) (written ++ streamOf n.2.2) := by
  obtain ⟨lm, hlane, hlm⟩ := h.lane hw.orderly
  rw [framesOf_deeds]
  refine hcarries.step hw.exclusive hlane fun htears => ?_
  obtain ⟨part, left, hi, -, hgone, hbs⟩ := htears
  obtain ⟨hleft, -⟩ := hw.exclusive.part _ _ _ hi
  rcases (h.over hw.orderly hi hgone).resolve_left hgoes with ⟨f, hf, -⟩ | hs
  · cases hf
  · cases hs
    exact hleft hbs

/-! ### The CONNECT comes first -/

theorem Happens.not_connecting (h : Happens c l e n)
    (hne : ∀ left, c.stage ≠ .connecting left) : ∀ left, n.1.stage ≠ .connecting left := by
  have hsame {c' : Client} (hstage : c'.stage = c.stage) : ∀ left, c'.stage ≠ .connecting left :=
    hstage ▸ hne
  cases h with
  | begins _ _ hstarts =>
    obtain ⟨new, hbegun⟩ := hstarts.begun
    exact hsame hbegun.stage
  | abandons => exact hsame (drops_abandon _).callMoved.stage
  | moves hstep =>
    cases step_cases hstep with
    | opening hopens =>
      cases hopens with
      | connects hstage _ => exact absurd hstage (hne _)
      | reads _ _ _ => exact hne
      | fails _ | unwelcome _ _ _ | opens _ _ _ => nofun
    | reader _ hreads => exact hsame hreads.stage
    | keeper hkeeps => exact hsame hkeeps.stage
    | call _ hcalls => exact hsame hcalls.stage
    | givesUp _ => nofun
  | _ => exact hne

/-- Until the CONNECT is written, nothing else is, and from then on it stands in front. -/
def Opened (c : Client) (connect : Bytes) (frames : List Bytes) : Prop :=
  (∃ left, c.stage = .connecting left) ∧ frames = [] ∨
    (∀ left, c.stage ≠ .connecting left) ∧ ∃ more, frames = connect :: more

/-- A client that writes its CONNECT goes on with that. -/
theorem Happens.opened_of_connecting (h : Happens c l e n) (hw : c.Wired)
    (hgoes : ¬BreaksOff .reader c l e) {connect left : Bytes}
    (hconnect : c.frameOf (.connect c.config.connect) = .ok connect)
    (hstage : c.stage = .connecting left) :
    n.1.Opened connect (framesOf (c.deeds l e n)) := by
  rw [framesOf_deeds]
  have hsame {c' : Client} (h : c'.stage = c.stage) {lane : Lane Party} {i : Party} :
      c'.Opened connect (c.lane.completed lane i []) :=
    .inl ⟨⟨left, h.trans hstage⟩, Lane.completed_nil⟩
  have hne : c.stage ≠ .running := by simp [hstage]
  -- While the session is being opened the CONNECT is what the reading task pushes.
  have hpushes : c.lane.Pushes .reader (.ok connect) left := by
    show c.sending? .reader = _
    rw [← hconnect]
    simp only [sending?, hstage]
  cases h with
  | begins hrunning _ _ => exact absurd hrunning hne
  | abandons => exact hsame (drops_abandon _).callMoved.stage
  | moves hstep =>
    cases step_cases hstep with
    | opening hopens =>
      cases hopens with
      | @connects left' taken rest up hstage' hw' =>
        rw [hstage] at hstage'
        cases hstage'
        rw [show streamOf [.wrote .reader taken] = taken from List.append_nil taken]
        by_cases hrest : rest = []
        · -- The last part is taken, and the CONNECT is the first frame that is noted.
          subst hrest
          refine .inr ⟨by simp, [], Lane.completed_of_pushes hpushes ?_ ?_⟩
          · exact sending?_reader_of_over (hw.orderly.reader hne) (by simp)
          · exact Pipe.taken_ne_nil hw' (hw.exclusive.part _ _ _ hpushes).1
        · have hempty : rest.isEmpty = false := by simpa using hrest
          refine .inl ⟨⟨rest, by simp [hempty]⟩, Lane.completed_of_sending
            (x := (c.frameOf (.connect c.config.connect), .pushing rest)) ?_⟩
          simp only [hempty]
          rfl
      | fails hfails =>
        cases hfails with
        -- A CONNECT that fails is broken off.
        | broken _ hclosed => exact absurd (.broken hclosed) hgoes
        | cancelled hstage' _ | ended hstage' _ _ | malformed hstage' _ =>
          rw [hstage] at hstage'
          cases hstage'
      | reads hstage' _ _ | unwelcome hstage' _ _ | opens hstage' _ _ =>
        rw [hstage] at hstage'
        cases hstage'
    | reader hrunning _ => exact absurd hrunning hne
    | keeper hkeeps => exact absurd (hkeeps.running hw.orderly) hne
    | call hcall _ => exact absurd (running_of_call hw.orderly hcall) hne
    | givesUp hforsaken => exact absurd (of_isForsaken hforsaken).2.1 hne
  | _ => exact hsame rfl

theorem Happens.opened (h : Happens c l e n) (hw : c.Wired) (hgoes : ¬BreaksOff .reader c l e)
    {connect : Bytes} {frames : List Bytes}
    (hconnect : c.frameOf (.connect c.config.connect) = .ok connect)
    (hopened : c.Opened connect frames) :
    n.1.Opened connect (frames ++ framesOf (c.deeds l e n)) := by
  rcases hopened with ⟨⟨left, hstage⟩, rfl⟩ | ⟨hne, more, rfl⟩
  · exact h.opened_of_connecting hw hgoes hconnect hstage
  · exact .inr ⟨h.not_connecting hne, _, List.cons_append⟩

/-! ### Nobody is stuck -/

/-- A party that can go on with its frame can move. -/
theorem exists_step_of_sending (ho : c.Orderly) {frame : Except Fault Bytes} {s : Sending}
    {m : SendMove} {sent : Sent Party} (hi : c.sending? i = some (frame, s))
    (hm : Outlet.Moves ⟨c.gate, l.up⟩ i frame c.cancelled s m sent) (hgive : m ≠ .giveUp) :
    ∃ n, c.step l (.party i (.send m)) = some n := by
  by_cases hconnecting : ∃ left, c.stage = .connecting left
  · obtain ⟨left, hstage⟩ := hconnecting
    have hne : c.stage ≠ .running := by simp [hstage]
    cases i with
    | reader =>
      simp only [sending?, hstage] at hi
      cases hi
      -- Nobody is in front of the opening call, and its CONNECT is laid out from the start.
      cases hm with
      | broken hclosed =>
        exact ⟨_, by simp only [step, hstage, openStep, Pipe.write_eq_broken.2 hclosed]; rfl⟩
      | part hw _ | whole hw => exact ⟨_, by simp only [step, hstage, openStep, hw]; rfl⟩
      | giveUpPushing _ => exact absurd rfl hgive
    | keeper =>
      simp only [sending?, ho.keeper hne] at hi
      cases hi
    | call k =>
      simp only [sending?, ho.calls hne k] at hi
      cases hi
  have hstage (left : Bytes) : c.stage ≠ .connecting left := fun h => hconnecting ⟨left, h⟩
  -- From here on every party takes the same step with its frame.
  have hsend : ∃ c' l' seen, c.sendStep l i frame s m = some (c', l', sent.state, seen) := by
    rw [gate_of_not_connecting hstage] at hm
    rw [sendStep, Outlet.step_eq_some.2 hm]
    exact ⟨_, _, _, rfl⟩
  obtain ⟨c', l', seen, hsend⟩ := hsend
  cases i with
  | reader =>
    obtain ⟨p, hreader⟩ := answering_of_sending? hstage hi
    have hrunning : c.stage = .running := by
      by_contra hne
      rw [ho.reader hne] at hreader
      cases hreader
    simp only [step, hrunning, readerStep, hreader, hsend]
    -- Whatever comes of the step, the task knows how to go on.
    rcases sent.state with s' | f | ⟨⟩
    · exact ⟨_, rfl⟩
    · exact ⟨_, rfl⟩
    · rcases p with _ | p <;> exact ⟨_, rfl⟩
  | keeper =>
    rcases hkeeper : c.keeper with wake | s' | _
    · simp only [sending?, hkeeper] at hi
      cases hi
    · rw [sending?_of_pinging hkeeper] at hi
      cases hi
      simp only [step, keeperStep, hkeeper, hsend]
      rcases sent.state with s' | f | ⟨⟩ <;> exact ⟨_, rfl⟩
    · simp only [sending?, hkeeper] at hi
      cases hi
  | call k =>
    rcases hcall : c.calls[k]? with _ | call
    · simp only [sending?, call?, hcall] at hi
      cases hi
    rw [sending?_call_eq hcall] at hi
    simp only [step, callStep, hcall]
    rcases call with ⟨frame', s'⟩ | ⟨purpose, id, frame', slot, _ | s'⟩ | _ | ⟨frame', s'⟩ | _ <;>
      cases hi
    · simp only [Option.bind_eq_bind, Option.bind_some, hsend]
      rcases sent.state with s' | r <;> exact ⟨_, rfl⟩
    · simp only [Option.bind_eq_bind, Option.bind_some, hsend]
      rcases sent.state with s' | f | ⟨⟩ <;> exact ⟨_, rfl⟩
    · simp only [Option.bind_eq_bind, Option.bind_some, hsend]
      rcases sent.state with s' | r <;> exact ⟨_, rfl⟩

theorem stands_of_sending {frame : Except Fault Bytes} {s : Sending}
    (hi : c.sending? i = some (frame, s)) : c.stands i = s.stands := by
  cases i with
  | reader | keeper =>
    rw [stands, hi]
    rfl
  | call k =>
    rcases hcall : c.calls[k]? with _ | call
    · simp only [sending?, call?, hcall] at hi
      cases hi
    · rw [sending?_call_eq hcall] at hi
      rw [stands_call hcall]
      rcases call with _ | ⟨_, _, _, _, _ | _⟩ | _ | _ | _ <;> cases hi <;> rfl

/-- Whoever stands in line has a frame to send, or is about to shut the stream. -/
theorem sending_or_leaving_of_stands (h : c.stands i = true) :
    (∃ frame s, c.sending? i = some (frame, s) ∧ s.stands = true) ∨
      ∃ k r, i = .call k ∧ c.calls[k]? = some (.leaving r true) := by
  rcases hi : c.sending? i with _ | ⟨frame, s⟩
  · cases i with
    | reader | keeper =>
      rw [stands, hi] at h
      cases h
    | call k =>
      rcases hcall : c.calls[k]? with _ | call
      · rw [stands_of_call?_eq_none (call?_eq_none_iff.2 hcall)] at h
        cases h
      · rw [sending?_call_eq hcall] at hi
        rw [stands_call hcall] at h
        rcases call with _ | ⟨_, _, _, _, _ | _⟩ | _ | _ | ⟨r, _ | _⟩
        case leaving.true => exact .inr ⟨k, r, rfl, hcall⟩
        all_goals first | cases h | cases hi
  · exact .inl ⟨frame, s, rfl, (stands_of_sending hi).symm.trans h⟩

/-- Whoever is inside can move, if there is room in the stream for what it pushes. -/
theorem exists_step_of_inside (ho : c.Orderly) (hl : c.Lined) (hinside : c.gate.inside = some i)
    (hroom : ∀ frame left, c.sending? i = some (frame, .pushing left) →
      l.up.closed = true ∨ l.up.free ≠ 0) :
    ∃ m n, c.step l (.party i m) = some n := by
  have hstands : c.stands i = true := by
    refine (hl.gate.mem i).1 ?_
    rw [Turnstile.members, hinside]
    exact List.mem_cons_self
  have hmoves {frame : Except Fault Bytes} {s : Sending} {m : SendMove} {sent : Sent Party}
      (hi : c.sending? i = some (frame, s))
      (hm : Outlet.Moves ⟨c.gate, l.up⟩ i frame c.cancelled s m sent) (hgive : m ≠ .giveUp) :
      ∃ m n, c.step l (.party i m) = some n := by
    obtain ⟨n, hn⟩ := exists_step_of_sending ho hi hm hgive
    exact ⟨_, n, hn⟩
  rcases sending_or_leaving_of_stands hstands with ⟨frame, s, hi, hs⟩ | ⟨k, r, rfl, hcall⟩
  · cases s with
    | starting => cases hs
    | inLine =>
      rcases frame with f | bs
      · exact hmoves hi (.fault (o := ⟨c.gate, l.up⟩) hinside rfl) (by simp)
      · exact hmoves hi (.layOut (o := ⟨c.gate, l.up⟩) hinside rfl) (by simp)
    | pushing left =>
      obtain ⟨sent, hm⟩ := Outlet.exists_moves_push (o := ⟨c.gate, l.up⟩) (hroom frame left hi)
      exact hmoves hi hm (by simp)
  · -- The call is about to shut the stream.
    have hrunning := running_of_call ho hcall
    rw [gate_of_running hrunning] at hinside
    refine ⟨.shut, ?_⟩
    simp [step, callStep, hcall, Turnstile.holds, hinside]

/-- **Nobody waits for ever to send.** Where nothing can move, and there is room in the stream, no
party has anything to send. -/
theorem Quiescent.sending?_eq_none (hq : c.Quiescent l) (ho : c.Orderly) (hl : c.Lined)
    (hroom : l.up.closed = true ∨ l.up.free ≠ 0) (i : Party) : c.sending? i = none := by
  rcases hi : c.sending? i with _ | ⟨frame, s⟩
  · rfl
  have hinside (hs : s.stands = true) : ∃ j m n, c.step l (.party j m) = some n := by
    obtain ⟨j, hj, -⟩ := hl.gate.exists_inside ((stands_of_sending hi).trans hs)
    obtain ⟨m, n, hn⟩ := exists_step_of_inside ho hl hj fun _ _ _ => hroom
    exact ⟨j, m, n, hn⟩
  cases s with
  | starting =>
    obtain ⟨n, hn⟩ := exists_step_of_sending ho hi (.enter (o := ⟨c.gate, l.up⟩)) nofun
    rw [hq] at hn
    cases hn
  | inLine | pushing left =>
    obtain ⟨j, m, n, hn⟩ := hinside rfl
    rw [hq] at hn
    cases hn

/-! ### Packets that cannot be encoded -/

/-- What is left of a call whose packet cannot be encoded: nothing but its answer. -/
structure Unsent (c : Client) (l : Link) (k : Nat) (f : Fault) (n : Next) : Prop where
  /-- The call returns with the fault. -/
  answered : n.2.2 = [.answered k (.failed f)]
  gone : n.1.call? k = none
  /-- Nothing has come into the stream, or been done to it. -/
  link : n.2.1 = l
  running : n.1.cancelled = c.cancelled
  /-- Its packet id is free, and every other one is as it was. -/
  ids : ∀ id : UInt16, n.1.ids.taken[id]? =
    if (c.request? k).map Request.id = some id then none else c.ids.taken[id]?
  others : ∀ j, j ≠ .call k → n.1.sending? j = c.sending? j
  gate : n.1.gate = c.gate.leave (.call k)
  /-- The next one is inside, and can go on at once. -/
  next : ∀ j, n.1.gate.inside = some j → ∃ m n', n.1.step n.2.1 (.party j m) = some n'

/-- Whoever finds that its packet cannot be encoded leaves. -/
theorem Sends.fault {f : Fault} {r : Sending ⊕ Except Fault Unit}
    (h : Sends c l i (.error f) .inLine .layOut c' l' r seen) :
    c.turnstile.inside = some i ∧ c' = { c with turnstile := c.turnstile.leave i } ∧ l' = l ∧
      r = .inr (.error f) ∧ seen = [] := by
  generalize hframe : (Except.error f : Except Fault Bytes) = frame at h
  cases h with
  | intro hm =>
    cases hm with
    | layOut _ hf =>
      rw [hf] at hframe
      cases hframe
    | fault hinside hf =>
      rw [← hframe] at hf
      cases hf
      exact ⟨hinside, rfl, rfl, rfl, rfl⟩

/-- Where it is noted that a packet cannot be encoded, its party was about to lay it out. -/
theorem eq_of_mem_fails {f : Fault} (h : .fails i f ∈ c.deeds l e n) :
    e = .move (.party i (.send .layOut)) ∧ c.sending? i = some (.error f, .inLine) := by
  obtain ⟨rfl, hends⟩ := mem_endings_of_mem_deeds h rfl nofun
  rcases hbefore : c.sending? e.actor with _ | ⟨frame, s⟩
  · rw [endings_eq_nil (.inl hbefore)] at hends
    cases hends
  rcases hafter : n.1.sending? e.actor with _ | x
  · obtain ⟨d, hd, hhow⟩ := endings_of_none hbefore hafter
    rw [hd, List.mem_singleton] at hends
    generalize hactor : e.actor = i at hends
    cases hhow with
    | fails he =>
      obtain ⟨rfl, rfl⟩ : i = e.actor ∧ f = _ := by simpa using hends
      refine ⟨?_, rfl⟩
      unfold Event.isLayOut at he
      split at he
      · rfl
      · cases he
    | completes _ | quits => cases hends
  · rw [endings_eq_nil (.inr ⟨x, hafter⟩)] at hends
    cases hends

/-- A call finds that its packet cannot be encoded. -/
theorem Calls.answered_of_fault {f : Fault} {call : Call} (h : Calls c l k call (.send .layOut) n)
    (hp : c.Polite) (hcall : c.calls[k]? = some call)
    (hi : call.sending? = some (.error f, .inLine)) :
    c.turnstile.inside = some (.call k) ∧ n.2 = (l, [.answered k (.failed f)]) ∧
      n.1.call? k = none ∧ n.1.cancelled = c.cancelled ∧
      n.1.turnstile = c.turnstile.leave (.call k) ∧
      ∀ id : UInt16, n.1.ids.taken[id]? =
        if (c.request? k).map Request.id = some id then none else c.ids.taken[id]? := by
  rw [request?_eq hcall]
  cases h with
  | sends hsends | requests hsends | requested hsends | leaves hsends =>
    cases hi
    -- A frame that cannot be laid out fails there and then, and does not go on.
    obtain ⟨-, -, -, hr, -⟩ := hsends.fault
    cases hr
  | sent hsends =>
    cases hi
    obtain ⟨hinside, rfl, rfl, hr, rfl⟩ := hsends.fault
    cases hr
    exact ⟨hinside, rfl, (call?_of_erase rfl).trans (if_pos rfl), rfl, rfl, fun _ => rfl⟩
  | @requestFails purpose id _ _ _ _ _ _ _ _ hsends =>
    cases hi
    obtain ⟨hinside, rfl, rfl, hr, rfl⟩ := hsends.fault
    cases hr
    rw [requestFails_eq]
    refine ⟨hinside, rfl, call?_withdraw.trans (if_pos rfl), rfl, rfl, fun id' => ?_⟩
    -- A request gives its id back.
    show (c.ids.taken.erase id)[id']? = _
    rw [Std.TreeMap.getElem?_erase]
    simp [Call.request?]
  | left hsends =>
    cases hi
    -- A DISCONNECT can always be laid out.
    cases hp k _ _ (call?_eq hcall)

/-- **A packet that cannot be encoded is that of a call**, unless the client ends. -/
theorem Happens.unsent {f : Fault} (h : Happens c l e n) (hw : c.Wired) (hp : c.Polite)
    (hl : c.Lined)
    (hrunning : n.1.cancelled = false) (hfails : .fails i f ∈ c.deeds l e n) :
    ∃ k, i = .call k ∧ Unsent c l k f n := by
  obtain ⟨rfl, hi⟩ := eq_of_mem_fails hfails
  have hlined := hl.next hw.orderly h
  have horderly := h.orderly hw.orderly
  obtain ⟨lm, hlane, -⟩ := h.lane hw.orderly
  cases h with
  | moves hstep =>
    cases step_cases hstep with
    | opening hopens =>
      cases hopens with
      | fails hwhy => cases hwhy
    | reader hstage hreads =>
      cases hreads with
      | ceases _ hceases => cases hceases
      | answers hc hsends | answered hc hsends =>
        cases (sending?_of_answering hstage hc).symm.trans hi
        -- A frame that cannot be laid out does not go on.
        obtain ⟨-, -, -, hr, -⟩ := hsends.fault
        cases hr
      -- The failed answer ends the reading task, and with that the client.
      | answerFails _ _ => cases hrunning
    | keeper hkeeps =>
      -- A ping can always be encoded.
      cases hkeeps with
      | pings hc _ | pinged hc _ | pingFails hc _ =>
        rw [sending?_of_pinging hc, frameOf, Packet.toBytes_pingReq] at hi
        cases hi
    | @call k call _ _ hcall hcalls =>
      have hstage := running_of_call hw.orderly hcall
      rw [sending?_call_eq hcall] at hi
      obtain ⟨hinside, hseen, hgone, hsame, hturnstile, hids⟩ :=
        hcalls.answered_of_fault hp hcall hi
      obtain ⟨hlink, hanswered⟩ := Prod.mk.inj hseen
      refine ⟨k, rfl, hanswered, hgone, hlink, hsame, hids, hlane.others, ?_, fun j hj => ?_⟩
      · rw [gate_of_running hstage, gate_of_running (hcalls.stage.trans hstage)]
        exact hturnstile
      · refine exists_step_of_inside horderly hlined hj fun frame left hpushes => ?_
        -- Nobody else was inside before, so nobody else pushes.
        have hne : j ≠ .call k := by
          rintro rfl
          simp only [sending?, hgone] at hpushes
          cases hpushes
        have hin := hw.exclusive.inside j frame left ((hlane.others j hne).symm.trans hpushes)
        rw [show c.lane.turnstile = c.turnstile from gate_of_running hstage, hinside] at hin
        exact absurd (Option.some.inj hin).symm hne

/-! ### Every run -/

/-- What is kept of the stream as long as no frame is broken off. -/
structure Tidy (c : Client) (connect : Bytes) (log : List ClientDeed) (written : Bytes) : Prop where
  carries : c.lane.Carries (framesOf log) written
  opened : c.Opened connect (framesOf log)

theorem Begins.tidy (h : Begins c l) : ∃ connect,
    (Packet.connect c.config.connect).toBytes c.config.version = .ok connect ∧
      c.Tidy connect (c.journal l []) [] := by
  cases h with
  | intro hconnect =>
    obtain ⟨bs, hbytes, rfl⟩ := connect_eq_ok hconnect
    exact ⟨bs, hbytes, carries_fresh hbytes, .inl ⟨⟨bs, rfl⟩, rfl⟩⟩

theorem tidy_of_replay {connect : Bytes} (hb : Begins c l)
    (hconnect : (Packet.connect c.config.connect).toBytes c.config.version = .ok connect)
    (htidy : c.Tidy connect (c.journal l []) []) (h : c.replay l es = some (c', l', seen))
    (hgoes : ∀ i, c.Never l es (BreaksOff i)) :
    c'.Tidy connect (c.journal l es) (streamOf seen) := by
  refine replay_induction (P := fun es c' _ seen => (∀ i, c.Never l es (BreaksOff i)) →
    c'.Tidy connect (c.journal l es) (streamOf seen)) (fun _ => htidy) ?_ h hgoes
  intro es e c₁ l₁ seen₁ c₂ l₂ more hrun hevent ih hgoes
  have hhappens := happens_of_event? hevent
  have hw := wired_of_replay hb.wired hrun
  obtain ⟨hcarries, hopened⟩ := ih fun i => (hgoes i).upTo (List.prefix_append ..)
  have hconfig := (stays_of_replay hrun).config
  rw [journal_concat hrun hevent, streamOf_append]
  refine ⟨?_, ?_⟩
  · rw [framesOf_append]
    exact hhappens.carries hw ((hgoes _).last hrun) hcarries
  · rw [framesOf_append]
    refine hhappens.opened hw ((hgoes _).last hrun) ?_ hopened
    rw [frameOf, hconfig]
    exact hconnect

/-- Nobody leaves a frame as it is, unless it breaks that off. -/
theorem not_quits_of_replay (hb : Begins c l) (h : c.replay l es = some (c', l', seen))
    (hgoes : c.Never l es (BreaksOff i)) : .quits i ∉ c.journal l es := by
  refine replay_induction (P := fun es _ _ _ => c.Never l es (BreaksOff i) →
    .quits i ∉ c.journal l es) (fun _ hmem => ?_) ?_ h hgoes
  · cases List.mem_singleton.1 hmem
  · intro es e c₁ l₁ seen₁ c₂ l₂ more hrun hevent ih hgoes
    rw [journal_concat hrun hevent]
    refine fun hmem => (List.mem_append.1 hmem).elim (ih (hgoes.upTo (List.prefix_append ..))) ?_
    exact (happens_of_event? hevent).not_quits (wired_of_replay hb.wired hrun) (hgoes.last hrun)

/-- No frame is broken off as long as the token is not cancelled, no write fails and no call is
dropped. -/
theorem never_breaksOff (h : c.replay l es = some (c', l', seen))
    (hcancelled : c'.cancelled = false)
    (hwrites : c.Never l es FailsWrite) (hkeeps : i = .reader ∨ c.Never l es Abandons) :
    c.Never l es (BreaksOff i) := by
  rw [never_iff] at hwrites hkeeps ⊢
  intro es₁ e c₁ l₁ seen₁ hes hrun
  obtain ⟨es₂, more, -, hrest, -⟩ :=
    exists_rest_of_prefix h ((List.prefix_append es₁ [e]).trans hes) hrun
  exact not_breaksOff ((stays_of_replay hrest).running hcancelled) (hwrites _ _ _ _ _ hes hrun)
    (hkeeps.imp_right fun hkeeps => hkeeps _ _ _ _ _ hes hrun)

/-- What a client has written in a run, by the journal of the run. -/
structure Transcript (c c' : Client) (l' : Link) (log : List ClientDeed) (stream : Bytes) :
    Prop where
  /-- Every party sends one packet after the other, each call the one it was made for, and nobody
  leaves a frame unfinished. -/
  turns : ∀ i, ∃ o, InTurn c.config.version i (doings i log) o ∧
    (c'.sending? i).map Prod.fst = o.map (Packet.toBytes c.config.version)
  finished : ∀ i, .quits i ∉ log
  /-- The stream is the frames that have been written to the end, and behind them a part of the one
  frame that is being written. -/
  written : ∃ part, stream = (framesOf log).flatten ++ part ∧
    (part = [] ∨ ∃ i p left, c'.gate.inside = some i ∧
      InTurn c.config.version i (doings i log) (some p) ∧
      p.toBytes c.config.version = .ok (part ++ left) ∧ left ≠ [])
  /-- The CONNECT comes first. -/
  connect : ∃ connect, (Packet.connect c.config.connect).toBytes c.config.version = .ok connect ∧
    ((framesOf log = [] ∧ ∃ left, stream ++ left = connect ∧ left ≠ []) ∨
      ∃ frames, framesOf log = connect :: frames)
  /-- Whoever has something to send gets to send it, unless the stream is full. -/
  idle : c'.Quiescent l' → l'.up.closed = true ∨ l'.up.free ≠ 0 → ∀ i, c'.sending? i = none
  /-- Which buffer a packet is laid out in makes no difference. -/
  buffer : ∀ (w : Writer) (p : Packet),
    match (p.writeFrame c.config.version).run w.reset with
    | .ok _ w' => p.toBytes c.config.version = .ok w'.written
    | .error _ w' => (∃ e, p.toBytes c.config.version = .error e) ∧ w'.written = []

/-- Wherever it is noted in a run that a packet cannot be encoded, it is that of a call, and nothing
is left of it. -/
def FailsClean (c : Client) (l : Link) (es : List Event) : Prop :=
  ∀ es₁ e c₁ l₁ seen₁ n i f, es₁ ++ [e] <+: es → c.replay l es₁ = some (c₁, l₁, seen₁) →
    c₁.event? l₁ e = some n → .fails i f ∈ c₁.deeds l₁ e n → ∃ k, i = .call k ∧ Unsent c₁ l₁ k f n

theorem failsClean_of_replay (hb : Begins c l) (h : c.replay l es = some (c', l', seen))
    (hcancelled : c'.cancelled = false) : c.FailsClean l es := by
  intro es₁ e c₁ l₁ seen₁ n i f hprefix hrun hevent hfails
  have hspeaking := speaking_of_replay hb hrun
  -- A token that was cancelled would still be.
  have hrunning : n.1.cancelled = false := by
    obtain ⟨es₂, more, -, hrest, -⟩ := exists_rest_of_prefix h hprefix
      (replay_concat_eq_some.2 ⟨c₁, l₁, seen₁, n.2.2, hrun, hevent, rfl⟩)
    exact (stays_of_replay hrest).running hcancelled
  exact (happens_of_event? hevent).unsent hspeaking.wired hspeaking.polite
    (lined_of_replay hb hrun) hrunning hfails

/-- **What a client has written is whole frames**, as long as its token is not cancelled, no write
has failed and no call is dropped: first its CONNECT, then the frames of the packets that its
parties have begun to send, each written once and to the end, and behind them a part of the one that
is being written. A packet that cannot be encoded is that of a call, which returns: it leaves
nothing in the stream, its packet id is free, and whoever is next can go on at once. -/
theorem transcript_of_replay (hb : Begins c l) (h : c.replay l es = some (c', l', seen))
    (hcancelled : c'.cancelled = false) (hwrites : c.Never l es FailsWrite)
    (hkeeps : c.Never l es Abandons) :
    Transcript c c' l' (c.journal l es) (streamOf seen) ∧ c.FailsClean l es := by
  refine ⟨?_, failsClean_of_replay hb h hcancelled⟩
  obtain ⟨connect, hconnect, hstart⟩ := hb.tidy
  have hw := wired_of_replay hb.wired h
  have hl := lined_of_replay hb h
  have hturns := turns_of_replay hb h
  have hgoes (i : Party) : c.Never l es (BreaksOff i) :=
    never_breaksOff h hcancelled hwrites (.inr hkeeps)
  have htidy := tidy_of_replay hb hconnect hstart h hgoes
  refine ⟨hturns, fun i => not_quits_of_replay hb h (hgoes i), ?_, ⟨connect, hconnect, ?_⟩,
    fun hq hroom i => hq.sending?_eq_none hw.orderly hl hroom i,
    fun w p => Packet.run_writeFrame_reset _ p w⟩
  · obtain ⟨part, hpart, ⟨rfl, -⟩ | ⟨i, left, hi⟩⟩ := htidy.carries
    · exact ⟨[], hpart, .inl rfl⟩
    · -- The packet that is being pushed is the one begun last.
      obtain ⟨o, hturn, ho⟩ := hturns i
      rw [show c'.sending? i = _ from hi] at ho
      obtain ⟨p, rfl, hp⟩ := Option.map_eq_some_iff.1 ho.symm
      exact ⟨part, hpart, .inr ⟨i, p, left, hw.exclusive.inside i _ left hi, hturn, hp,
        (hw.exclusive.part i _ left hi).1⟩⟩
  · rcases htidy.opened with ⟨⟨left, hstage⟩, hnone⟩ | ⟨-, hmore⟩
    · have hi : c'.lane.Pushes .reader (.ok connect) left := by
        show c'.sending? .reader = _
        rw [← hconnect, ← (stays_of_replay h).config]
        simp only [sending?, hstage]
        rfl
      obtain ⟨hleft, part, hpart⟩ := hw.exclusive.part _ _ _ hi
      obtain rfl := Except.ok.inj hpart
      refine .inl ⟨hnone, left, ?_, hleft⟩
      rw [htidy.carries.of_pushes hw.exclusive hi, hnone]
      rfl
    · exact .inr hmore

/-- No write fails in a run that leaves the stream open. -/
theorem never_failsWrite_of_open (h : c.replay l es = some (c', l', seen))
    (hopen : l'.up.closed = false) : c.Never l es FailsWrite := by
  rw [never_iff]
  rintro es₁ e c₁ l₁ seen₁ hprefix hrun ⟨hclosed, -⟩
  obtain ⟨es₂, more, -, hrest, -⟩ :=
    exists_rest_of_prefix h ((List.prefix_append es₁ [e]).trans hprefix) hrun
  rw [(stays_of_replay hrest).closed hclosed] at hopen
  cases hopen

/-- Whether a party gives up its frame. -/
def Event.isGiveUp : Event → Bool
  | .move (.party _ (.send .giveUp)) => true
  | _ => false

/-- Whether a call is dropped. -/
def Event.isAbandon : Event → Bool
  | .input (.abandons _) => true
  | _ => false

theorem never_abandons (h : es.any Event.isAbandon = false) : c.Never l es Abandons := by
  rw [never_iff]
  rintro es₁ e c₁ l₁ seen₁ hes - ⟨k, rfl⟩
  have hmem : .input (.abandons k) ∈ es := hes.subset (by simp)
  exact List.any_eq_false.1 h _ hmem rfl

/-- A client acknowledges a message while its program publishes and pings. The broker reads slowly,
and is just getting the second message. -/
def conversing : List Event :=
  let calls (k : Nat) (ms : List SendMove) : List Event :=
    ms.map fun m => .move (.party (.call k) (.send m))
  let reads (ms : List Move) : List Event := ms.map fun m => .move (.party .reader m)
  reads [.send .push] ++ [.input (.peerReads 8)] ++ reads [.send .push] ++
    [.input (.peerWrites [0x20, 2, 0, 0, 0x32, 5, 0, 1, 0x74, 0, 9])] ++
    reads [.receive, .dispatch] ++ [.input (.calls 0 (.publish "t" [1, 2, 3, 4, 5] false))] ++
    calls 0 [.enter, .layOut] ++ reads [.dispatch, .send .enter] ++ calls 0 [.push] ++
    [.input (.calls 1 .ping)] ++ calls 1 [.enter] ++ [.input (.peerReads 8)] ++ calls 0 [.push] ++
    [.input (.peerReads 8)] ++ calls 0 [.push] ++ reads [.send .layOut, .send .push] ++
    calls 1 [.layOut, .push] ++ [.input (.calls 2 (.publish "t" [] false))] ++
    calls 2 [.enter, .layOut, .push]

/-- The frames stand one behind the other, though they were begun in another order. -/
theorem transcript_conversing : ∃ c l c' l' seen, Begins c l ∧
    c.replay l conversing = some (c', l', seen) ∧ c'.cancelled = false ∧
    c.Never l conversing FailsWrite ∧ c.Never l conversing Abandons ∧
    framesOf (c.journal l conversing) =
      [[0x10, 13, 0, 4, 0x4d, 0x51, 0x54, 0x54, 4, 2, 0, 60, 0, 1, 0x63],
        [0x30, 8, 0, 1, 0x74, 1, 2, 3, 4, 5], [0x40, 2, 0, 9], [0xc0, 0]] ∧
    streamOf seen = (framesOf (c.journal l conversing)).flatten ++ [0x30] ∧
    Transcript c c' l' (c.journal l conversing) (streamOf seen) ∧ c.FailsClean l conversing := by
  have hend : (connect (.ofAddr "" "c") 0).toOption.bind (fun c =>
      (c.replay ⟨.empty 8, .empty 32⟩ conversing).map fun n =>
        (framesOf (c.journal ⟨.empty 8, .empty 32⟩ conversing), streamOf n.2.2,
          n.1.cancelled, n.2.1.up.closed)) =
      some ([[0x10, 13, 0, 4, 0x4d, 0x51, 0x54, 0x54, 4, 2, 0, 60, 0, 1, 0x63],
        [0x30, 8, 0, 1, 0x74, 1, 2, 3, 4, 5], [0x40, 2, 0, 9], [0xc0, 0]],
        [0x10, 13, 0, 4, 0x4d, 0x51, 0x54, 0x54, 4, 2, 0, 60, 0, 1, 0x63, 0x30, 8, 0, 1, 0x74, 1, 2,
          3, 4, 5, 0x40, 2, 0, 9, 0xc0, 0, 0x30], false, false) := by
    decide +kernel
  obtain ⟨c, hconnect, hend⟩ := Option.bind_eq_some_iff.1 hend
  obtain ⟨⟨c', l', seen⟩, hrun, hend⟩ := Option.map_eq_some_iff.1 hend
  simp only [Prod.mk.injEq] at hend
  obtain ⟨hframes, hstream, hcancelled, hopen⟩ := hend
  have hbegins : Begins c ⟨.empty 8, .empty 32⟩ := begins_of_toOption hconnect
  have hwrites := never_failsWrite_of_open hrun hopen
  have hkeeps : c.Never ⟨.empty 8, .empty 32⟩ conversing Abandons := never_abandons rfl
  obtain ⟨htranscript, hclean⟩ := transcript_of_replay hbegins hrun hcancelled hwrites hkeeps
  exact ⟨c, _, c', l', seen, hbegins, hrun, hcancelled, hwrites, hkeeps, hframes,
    hstream.trans (by rw [hframes]; decide), htranscript, hclean⟩

end Client
end Mqtt
