import Mqtt.Proofs.Client.Parties
/-!
# The stream of a client

Every move of a client is a step of one party at the lane (`stepsAt_of_step`), and so is the
beginning of a call (`Begun.stepsAt`). So what is proved of lanes holds of the stream towards the
broker.

For this, nothing may be going on before the session is open (`Client.Orderly`).
-/

namespace Mqtt

/-- Who makes a move. -/
def Client.Action.actor : Client.Action → Party
  | .party p _ => p
  | .giveUp => .reader

/-- How a move acts at the lane. -/
def Client.Move.atLane : Client.Move → LaneMove
  | .send m => .send m
  | _ => .apart

/-- How a move acts at the lane. -/
def Client.Action.atLane : Client.Action → LaneMove
  | .party _ m => m.atLane
  | .giveUp => .apart

/-- No move drops a frame. -/
theorem Client.Action.atLane_ne_stop (a : Client.Action) : a.atLane ≠ .stop := by
  rcases a with ⟨i, _ | _ | _ | m | _ | _ | _ | _ | _⟩ | _ <;> nofun

namespace Client

variable {c c' : Client} {l l' : Link} {i : Party} {k : Nat} {n : Next} {bs : Bytes}

/-- Before the session is open nothing goes on but its opening. -/
structure Orderly (c : Client) : Prop where
  reader : c.stage ≠ .running → c.reader = .over
  keeper : c.stage ≠ .running → c.keeper = .over
  calls : c.stage ≠ .running → ∀ k, c.call? k = none
  turnstile : (∃ left, c.stage = .connecting left) ∨ c.stage = .awaiting → c.turnstile = .empty

/-- A party makes a step at the lane. -/
abbrev StepsAt (c : Client) (l : Link) (i : Party) (lm : LaneMove) (c' : Client) (bs : Bytes) :
    Prop :=
  Lane.Step l.up c.cancelled i lm c.lane c'.lane bs

/-! ### One step -/

variable {lm : LaneMove}

theorem stepsAt_of_own
    (own : Lane.Own l.up c.cancelled i c.gate lm (c.sending? i) c'.gate (c'.sending? i) bs)
    (others : ∀ j, j ≠ i → c'.sending? j = c.sending? j) : c.StepsAt l i lm c' bs :=
  ⟨own, others⟩

/-- A party makes a step while the session is open. -/
theorem stepsAt_of_running (h : c.stage = .running) (h' : c'.stage = .running)
    (own : Lane.Own l.up c.cancelled i c.turnstile lm (c.sending? i)
      c'.turnstile (c'.sending? i) bs)
    (others : ∀ j, j ≠ i → c'.sending? j = c.sending? j) : c.StepsAt l i lm c' bs := by
  refine stepsAt_of_own ?_ others
  rw [gate_of_running h, gate_of_running h']
  exact own

/-- A party that moves does not touch the stream. -/
theorem stepsAt_of_same (hgate : c'.gate = c.gate) (hsame : ∀ j, c'.sending? j = c.sending? j)
    (hbs : bs = []) : c.StepsAt l i .apart c' bs := by
  refine stepsAt_of_own ?_ fun j _ => hsame j
  rw [hgate, hsame, hbs]
  exact .rest

/-- A party that sends moves on, and takes note of where its frame is. -/
theorem Sends.stepsAt {frame : Except Fault Bytes} {s : Sending} {m : SendMove} {c'' : Client}
    {r : Sending ⊕ Except Fault Unit} {seen : List ClientObservation}
    (h : Sends c l i frame s m c' l' r seen) (hrunning : c.stage = .running)
    (hstage : c''.stage = c.stage) (hturnstile : c''.turnstile = c'.turnstile)
    (hbefore : c.sending? i = some (frame, s))
    (hafter : c''.sending? i = r.elim (fun s => some (frame, s)) fun _ => none)
    (others : ∀ j, j ≠ i → c''.sending? j = c.sending? j) :
    c.StepsAt l i (.send m) c'' (streamOf seen) := by
  refine stepsAt_of_running hrunning (hstage.trans hrunning) ?_ others
  rw [hbefore, hafter, hturnstile]
  exact h.own

/-! ### Every move -/

theorem Reads.stepsAt {m : Move} (h : Reads c l m n) (hrunning : c.stage = .running) :
    c.StepsAt l .reader m.atLane n.1 (streamOf n.2.2) := by
  have hothers {c' : Client} (hmoved : ReaderMoved c c') :
      ∀ j, j ≠ .reader → c'.sending? j = c.sending? j :=
    others_of_reader hmoved.config hmoved.keeper hmoved.call?
  have hnone {c' : Client} (hmoved : ReaderMoved c c')
      (hc' : c'.reader = .reading ∨ c'.reader = .over) : c'.sending? .reader = none :=
    sending?_reader_eq_none (hmoved.stage.trans hrunning) hc'
  -- The task goes on without a frame.
  have hrest {c' : Client} (hmoved : ReaderMoved c c') (hc : c.reader = .reading)
      (hc' : c'.reader = .reading ∨ c'.reader = .over) : c.StepsAt l .reader .apart c' [] := by
    have hown : Lane.Own l.up c.cancelled .reader c.turnstile .apart none c'.turnstile none [] := by
      rw [hmoved.turnstile]
      exact .rest
    refine stepsAt_of_running hrunning (hmoved.stage.trans hrunning) ?_
      (hothers hmoved)
    rw [hnone (.refl c) (.inl hc), hnone hmoved hc']
    exact hown
  cases h with
  | ceases hc hceases => cases hceases <;> exact hrest readerMoved_endReader hc (.inr rfl)
  | reads hc _ _ => exact hrest ⟨rfl, rfl, rfl, rfl, rfl, fun _ => rfl⟩ hc (.inl hc)
  | undecodable hc _ _ =>
    exact hrest (readerMoved_takeFrame.trans readerMoved_endReader) hc (.inr rfl)
  | @handles f a p hc _ _ =>
    have hhandles : Handles (c.takeFrame a) p _ := handles_handle p
    have hmoved := readerMoved_takeFrame.trans hhandles.moved
    rcases hhandles.reader with hc' | hc' | ⟨ack, q, -, hc'⟩
    · exact hrest hmoved hc (.inl hc')
    · exact hrest hmoved hc (.inr hc')
    · have hstage := hmoved.stage.trans hrunning
      refine stepsAt_of_running hrunning hstage ?_ (hothers hmoved)
      rw [hnone (.refl c) (.inl hc), hmoved.turnstile, sending?_reader_of_running hstage, hc']
      exact .begin (Packet.frameWhole_toBytes _ _)
  | answers hc hsends =>
    obtain ⟨t, rfl⟩ := hsends.client
    refine hsends.stepsAt hrunning rfl rfl (sending?_of_answering hrunning hc) ?_
      (others_of_reader rfl rfl fun _ => rfl)
    exact sending?_reader_of_running hrunning
  | answerFails hc hsends =>
    obtain ⟨t, rfl⟩ := hsends.client
    refine hsends.stepsAt hrunning rfl rfl (sending?_of_answering hrunning hc) ?_
      (others_of_reader rfl rfl fun _ => call?_endReader)
    exact sending?_reader_of_running hrunning
  | @answered frame s p m c₁ l' seen hc hsends =>
    have hafter : ReaderMoved c₁ (c₁.afterAnswer p) := readerMoved_afterAnswer
    have hreader : (c₁.afterAnswer p).reader = .reading ∨ (c₁.afterAnswer p).reader = .over :=
      reader_afterAnswer
    obtain ⟨t, rfl⟩ := hsends.client
    refine hsends.stepsAt hrunning hafter.stage hafter.turnstile
      (sending?_of_answering hrunning hc) ?_
      (others_of_reader hafter.config hafter.keeper hafter.call?)
    exact sending?_reader_eq_none (hafter.stage.trans hrunning) hreader

theorem Keeps.stepsAt {m : Move} (h : Keeps c l m n) (hrunning : c.stage = .running) :
    c.StepsAt l .keeper m.atLane n.1 (streamOf n.2.2) := by
  have hothers {turnstile : Turnstile Party} {keeper : Keeper} {cancelled : Bool} :
      ∀ j, j ≠ .keeper → ({ c with turnstile, keeper, cancelled } : Client).sending? j =
        c.sending? j :=
    others_of_keeper rfl rfl rfl fun _ => rfl
  have hsleeping {wake : Nat} (hc : c.keeper = .sleeping wake) : c.sending? .keeper = none := by
    simp only [sending?, hc]
  cases h with
  | ceases hc _ =>
    refine stepsAt_of_running hrunning hrunning ?_ hothers
    rw [hsleeping hc]
    exact .rest
  | wakes hc _ =>
    -- The keeper has a PINGREQ to send, and stands outside the line with it.
    refine stepsAt_of_running hrunning hrunning ?_ hothers
    rw [hsleeping hc]
    exact .begin (Packet.frameWhole_toBytes _ _)
  | pings hc hsends | pingFails hc hsends =>
    obtain ⟨t, rfl⟩ := hsends.client
    exact hsends.stepsAt hrunning rfl rfl (sending?_of_pinging hc) rfl hothers
  | @pinged s m c₁ l' seen hc hsends =>
    -- With its ping written the keeper goes to sleep again, and has no frame.
    have hafter : ({ c₁ with keeper := c₁.nextPing } : Client).sending? .keeper = none := by
      rw [sending?, nextPing]
      rcases pingInterval c₁.config with _ | interval <;> rfl
    obtain ⟨t, rfl⟩ := hsends.client
    exact hsends.stepsAt hrunning rfl rfl (sending?_of_pinging hc) hafter hothers

theorem Calls.callMoved {call : Call} {m : Move} (h : Calls c l k call m n) :
    CallMoved k c n.1 := by
  cases h with
  | sends hsends | requests hsends | requested hsends | leaves hsends | left hsends =>
    obtain ⟨t, rfl⟩ := hsends.client
    exact callMoved_of_insert rfl rfl rfl rfl rfl
  | sent hsends =>
    obtain ⟨t, rfl⟩ := hsends.client
    exact callMoved_of_erase rfl rfl rfl rfl rfl
  | requestFails hsends =>
    obtain ⟨t, rfl⟩ := hsends.client
    rw [requestFails_eq]
    exact ⟨rfl, rfl, rfl, rfl, fun k' hk' => callMoved_withdraw.call? k' hk'⟩
  | acknowledged =>
    -- What the acknowledgement says does not matter here: the request is withdrawn.
    obtain ⟨a, ha, -⟩ := requestReturns_eq (c := c) (l := l) (k := k) _ _ _
    rw [ha]
    exact callMoved_withdraw
  | forgotten | cancelled _ =>
    rw [requestFails_eq]
    exact callMoved_withdraw
  | waits | comes => exact callMoved_of_insert rfl rfl rfl rfl rfl
  | receives _ _ | exhausts _ _ _ | expires _ _ | shuts _ =>
    exact callMoved_of_erase rfl rfl rfl rfl rfl

theorem Calls.stepsAt {call : Call} {m : Move} (h : Calls c l k call m n)
    (hrunning : c.stage = .running) (hcall : c.calls[k]? = some call) :
    c.StepsAt l (.call k) m.atLane n.1 (streamOf n.2.2) := by
  have hbefore := sending?_call_eq hcall
  -- The call comes to the turnstile, or leaves it, or neither, without a frame.
  have hapart {c' : Client} {bs : Bytes} (hmoved : CallMoved k c c')
      (hown : Lane.Own l.up c.cancelled (.call k) c.turnstile .apart none c'.turnstile none bs)
      (hnone : call.sending? = none) (hafter : c'.sending? (.call k) = none) :
      c.StepsAt l (.call k) .apart c' bs := by
    refine stepsAt_of_running hrunning (hmoved.stage.trans hrunning) ?_
      hmoved.others
    rw [hbefore, hnone, hafter]
    exact hown
  -- The call moves on with its frame.
  have hsend {frame : Except Fault Bytes} {s : Sending} {m : SendMove} {c₁ c' : Client} {l₁ : Link}
      {r : Sending ⊕ Except Fault Unit} {seen : List ClientObservation}
      (hsends : Sends c l (.call k) frame s m c₁ l₁ r seen) (hmoved : CallMoved k c c')
      (hturnstile : c'.turnstile = c₁.turnstile) (hframe : call.sending? = some (frame, s))
      (hafter : c'.sending? (.call k) = r.elim (fun s => some (frame, s)) fun _ => none) :
      c.StepsAt l (.call k) (.send m) c' (streamOf seen) :=
    hsends.stepsAt hrunning hmoved.stage hturnstile (hbefore.trans hframe) hafter hmoved.others
  cases h with
  | sends hsends | requests hsends | leaves hsends | requested hsends | left hsends =>
    obtain ⟨t, rfl⟩ := hsends.client
    exact hsend hsends (callMoved_of_insert rfl rfl rfl rfl rfl) rfl rfl
      (sending?_of_insert rfl rfl)
  | sent hsends =>
    obtain ⟨t, rfl⟩ := hsends.client
    simp only [returnsUnit, returns, streamOf_append, streamOf_answered, List.append_nil]
    exact hsend hsends (callMoved_of_erase rfl rfl rfl rfl rfl) rfl rfl (sending?_of_erase rfl)
  | requestFails hsends =>
    obtain ⟨t, rfl⟩ := hsends.client
    rw [requestFails_eq]
    dsimp only
    rw [streamOf_append, streamOf_answered, List.append_nil]
    refine hsend hsends ⟨rfl, rfl, rfl, rfl, fun k' hk' => ?_⟩ rfl rfl sending?_withdraw
    exact callMoved_withdraw.call? k' hk'
  | acknowledged =>
    obtain ⟨a, ha, -⟩ := requestReturns_eq (c := c) (l := l) (k := k) _ _ _
    rw [ha]
    exact hapart callMoved_withdraw .rest rfl sending?_withdraw
  | forgotten | cancelled _ =>
    rw [requestFails_eq]
    exact hapart callMoved_withdraw .rest rfl sending?_withdraw
  | waits =>
    exact hapart (callMoved_of_insert rfl rfl rfl rfl rfl) .rest rfl (sending?_of_insert rfl rfl)
  | receives _ _ | exhausts _ _ _ | expires _ _ =>
    exact hapart (callMoved_of_erase rfl rfl rfl rfl rfl) .rest rfl (sending?_of_erase rfl)
  | comes =>
    exact hapart (callMoved_of_insert rfl rfl rfl rfl rfl) .enter rfl (sending?_of_insert rfl rfl)
  | shuts _ =>
    exact hapart (callMoved_of_erase rfl rfl rfl rfl rfl) .leave rfl (sending?_of_erase rfl)

/-- Nothing is pushed once the CONNECT is written. -/
theorem stepsAt_of_awaiting (ho : c.Orderly) (hstage : c.stage = .awaiting)
    (hstage' : ∀ left, c'.stage ≠ .connecting left) (hconfig : c'.config = c.config)
    (hkeeper : c'.keeper = c.keeper) (hcalls : c'.calls = c.calls)
    (hturnstile : c'.turnstile = c.turnstile) (hreader : c'.reader = c.reader) :
    c.StepsAt l .reader .apart c' [] := by
  have hover : c.reader = .over := ho.reader (by simp [hstage])
  have hbefore : c.sending? .reader = none := sending?_reader_of_over hover (by simp [hstage])
  have hafter : c'.sending? .reader = none :=
    sending?_reader_of_over (hreader.trans hover) hstage'
  have hgate : c'.gate = c.gate := by
    rw [gate, gate, hstage, hturnstile]
    split
    · next left hs => exact absurd hs (hstage' left)
    · rfl
  have hothers := others_of_reader hconfig hkeeper fun k => by rw [call?, call?, hcalls]
  refine stepsAt_of_own ?_ hothers
  rw [hbefore, hafter, hgate]
  exact .rest

/-- The CONNECT is pushed, and whoever pushes it is alone. -/
theorem stepsAt_of_connecting {left : Bytes} {sent : Sent Party}
    (hstage : c.stage = .connecting left)
    (hm : Outlet.Moves ⟨⟨some .reader, []⟩, l.up⟩ .reader (c.frameOf (.connect c.config.connect))
      c.cancelled (.pushing left) .push sent)
    (hgate : c'.gate = sent.outlet.turnstile)
    (hreader : c'.sending? .reader = sent.state.elim
      (fun s => some (c.frameOf (.connect c.config.connect), s)) fun _ => none)
    (hconfig : c'.config = c.config) (hkeeper : c'.keeper = c.keeper)
    (hcalls : c'.calls = c.calls) : c.StepsAt l .reader (.send .push) c' sent.pushed := by
  have hbefore : c.gate = ⟨some .reader, []⟩ := by rw [gate, hstage]
  have hsending : c.sending? .reader =
      some (c.frameOf (.connect c.config.connect), .pushing left) := by
    simp only [sending?, hstage]
  have hothers := others_of_reader hconfig hkeeper fun k => by rw [call?, call?, hcalls]
  have hown := Lane.Own.send hm
  refine stepsAt_of_own ?_ hothers
  rw [hgate, hreader, hbefore, hsending]
  exact hown

theorem Opens.stepsAt {m : Move} (h : Opens c l m n) (ho : c.Orderly) :
    c.StepsAt l .reader m.atLane n.1 (streamOf n.2.2) := by
  cases h with
  | @connects left taken rest up hstage hw =>
    -- The turnstile behind the opening call is still empty.
    have hempty := ho.turnstile (.inl ⟨left, hstage⟩)
    have hover := ho.reader (by simp [hstage])
    rw [show streamOf [.wrote .reader taken] = taken from List.append_nil taken]
    by_cases hrest : rest = []
    · -- The last part of the CONNECT.
      subst hrest
      exact stepsAt_of_connecting hstage (.whole hw) hempty
        (sending?_reader_of_over hover fun _ h => by cases h) rfl rfl rfl
    · -- A part of the CONNECT: the opening call stays inside.
      have hne : rest.isEmpty = false := by simpa using hrest
      simp only [hne]
      exact stepsAt_of_connecting hstage (.part hw hrest) rfl rfl rfl rfl rfl
  | fails hfails =>
    cases hfails with
    | @broken left hstage hclosed =>
      -- The CONNECT fails in the middle. The opening call leaves with it.
      have hempty := ho.turnstile (.inl ⟨left, hstage⟩)
      have hover := ho.reader (by simp [hstage])
      exact stepsAt_of_connecting hstage (.broken hclosed) hempty
        (sending?_reader_of_over hover fun _ h => by cases h) rfl rfl rfl
    | cancelled hstage _ | ended hstage _ _ | malformed hstage _ =>
      exact stepsAt_of_awaiting ho hstage (fun _ h => by cases h) rfl rfl rfl rfl rfl
  | reads hstage _ _ =>
    have hne (left : Bytes) : c.stage ≠ .connecting left := by simp [hstage]
    exact stepsAt_of_awaiting ho hstage hne rfl rfl rfl rfl rfl
  | unwelcome hstage _ _ =>
    exact stepsAt_of_awaiting ho hstage (fun _ h => by cases h) rfl rfl rfl rfl rfl
  | @opens f a hstage _ _ =>
    have hover := ho.reader (by simp [hstage])
    have hkeeper := ho.keeper (by simp [hstage])
    -- The session opens: both tasks begin, and none has a frame yet.
    refine stepsAt_of_same ?_ (fun j => ?_) rfl
    · rw [gate, gate, hstage]
      rfl
    · cases j with
      | reader =>
        rw [sending?_reader_of_over hover (by simp [hstage])]
        rfl
      | keeper =>
        simp only [sending?, hkeeper, run]
        rcases pingInterval (c.takeFrame a).config with _ | _ <;> rfl
      | call k => rfl

/-! ### What stays -/

theorem Keeps.running {m : Move} (ho : c.Orderly) (h : Keeps c l m n) : c.stage = .running := by
  by_contra hstage
  have hover := ho.keeper hstage
  cases h with
  | ceases hc _ | wakes hc _ | pings hc _ | pinged hc _ | pingFails hc _ =>
    rw [hover] at hc
    cases hc

theorem running_of_call {call : Call} (ho : c.Orderly) (h : c.calls[k]? = some call) :
    c.stage = .running := by
  by_contra hstage
  have := ho.calls hstage k
  rw [call?_eq h] at this
  cases this

theorem of_isForsaken (h : c.isForsaken = true) :
    (∀ k, c.call? k = none) ∧ c.stage = .running ∧ c.reader = .over ∧ c.keeper = .over := by
  rw [isForsaken, Bool.and_eq_true, Bool.and_eq_true] at h
  obtain ⟨⟨-, hcalls⟩, h⟩ := h
  refine ⟨fun k => ?_, ?_⟩
  · rw [call?, Std.TreeMap.getElem?_of_isEmpty hcalls]
    rfl
  · split at h
    · next hstage hreader hkeeper => exact ⟨hstage, hreader, hkeeper⟩
    · cases h

/-- **Every move is a step of one party at the lane.** -/
theorem stepsAt_of_step {a : Action} (ho : c.Orderly) (h : c.step l a = some n) :
    c.StepsAt l a.actor a.atLane n.1 (streamOf n.2.2) := by
  cases step_cases h with
  | opening hopens => exact hopens.stepsAt ho
  | reader hrunning hreads => exact hreads.stepsAt hrunning
  | keeper hkeeps => exact hkeeps.stepsAt (hkeeps.running ho)
  | call hcall hcalls => exact hcalls.stepsAt (running_of_call ho hcall) hcall
  | givesUp hforsaken =>
    obtain ⟨-, hstage, hreader, -⟩ := of_isForsaken hforsaken
    refine stepsAt_of_same ?_ (fun j => ?_) rfl
    · rw [gate, gate, hstage]
    · have hbefore : c.sending? .reader = none :=
        sending?_reader_of_over hreader (by simp [hstage])
      have hafter : ({ c with stage := .closed } : Client).sending? .reader = none :=
        sending?_reader_of_over hreader fun _ h => by cases h
      cases j with
      | reader => exact hafter.trans hbefore.symm
      | keeper => rfl
      | call k => rfl

theorem Orderly.of_running (h : c.stage = .running) : c.Orderly where
  reader hstage := absurd h hstage
  keeper hstage := absurd h hstage
  calls hstage := absurd h hstage
  turnstile hstage := by
    rcases hstage with ⟨left, hstage⟩ | hstage <;> · rw [h] at hstage; cases hstage

theorem Reads.stage {m : Move} (h : Reads c l m n) : n.1.stage = c.stage := by
  cases h with
  | ceases _ _ | reads _ _ _ | undecodable _ _ _ => rfl
  | handles _ _ _ => exact (readerMoved_takeFrame.trans (handles_handle _).moved).stage
  | answers _ hsends | answerFails _ hsends =>
    obtain ⟨t, rfl⟩ := hsends.client
    rfl
  | answered _ hsends =>
    obtain ⟨t, rfl⟩ := hsends.client
    exact readerMoved_afterAnswer.stage

theorem Keeps.stage {m : Move} (h : Keeps c l m n) : n.1.stage = c.stage := by
  cases h with
  | ceases _ _ | wakes _ _ => rfl
  | pings _ hsends | pinged _ hsends | pingFails _ hsends =>
    obtain ⟨t, rfl⟩ := hsends.client
    rfl

theorem Calls.stage {call : Call} {m : Move} (h : Calls c l k call m n) : n.1.stage = c.stage :=
  h.callMoved.stage

theorem Orderly.step {a : Action} (ho : c.Orderly) (h : c.step l a = some n) : n.1.Orderly := by
  -- Nothing but the stage is looked at while the session is being opened.
  have hopening {c' : Client} (hstage : (∃ left, c.stage = .connecting left) ∨ c.stage = .awaiting)
      (hreader : c'.reader = c.reader) (hkeeper : c'.keeper = c.keeper)
      (hcalls : c'.calls = c.calls) (hturnstile : c'.turnstile = c.turnstile) : c'.Orderly := by
    have hne : c.stage ≠ .running := by
      rcases hstage with ⟨left, hstage⟩ | hstage <;> simp [hstage]
    refine ⟨fun _ => hreader.trans (ho.reader hne), fun _ => hkeeper.trans (ho.keeper hne),
      fun _ k => ?_, fun _ => hturnstile.trans (ho.turnstile hstage)⟩
    rw [call?, hcalls]
    exact ho.calls hne k
  cases step_cases h with
  | opening hopens =>
    cases hopens with
    | connects hstage _ => exact hopening (.inl ⟨_, hstage⟩) rfl rfl rfl rfl
    | fails hfails =>
      cases hfails with
      | broken hstage _ => exact hopening (.inl ⟨_, hstage⟩) rfl rfl rfl rfl
      | cancelled hstage _ | ended hstage _ _ | malformed hstage _ =>
        exact hopening (.inr hstage) rfl rfl rfl rfl
    | reads hstage _ _ | unwelcome hstage _ _ => exact hopening (.inr hstage) rfl rfl rfl rfl
    | opens _ _ _ => exact .of_running rfl
  | reader hrunning hreads => exact .of_running (hreads.stage.trans hrunning)
  | keeper hkeeps => exact .of_running (hkeeps.stage.trans (hkeeps.running ho))
  | call hcall hcalls => exact .of_running (hcalls.stage.trans (running_of_call ho hcall))
  | givesUp hforsaken =>
    obtain ⟨hcalls, -, hreader, hkeeper⟩ := of_isForsaken hforsaken
    refine ⟨fun _ => hreader, fun _ => hkeeper, fun _ => hcalls, fun hstage => ?_⟩
    rcases hstage with ⟨left, hstage⟩ | hstage <;> cases hstage

/-- What a move leaves as it is, and what it puts into the stream. -/
structure Moved (c : Client) (l : Link) (n : Next) : Prop where
  config : n.1.config = c.config
  cancelled : c.cancelled = true → n.1.cancelled = true
  closed : l.up.closed = true → n.2.1.up.closed = true
  unread : n.2.1.up.unread.toList = l.up.unread.toList ++ streamOf n.2.2

/-- The stream is left alone. -/
theorem Moved.of_up {seen : List ClientObservation} (hconfig : c'.config = c.config)
    (hcancelled : c.cancelled = true → c'.cancelled = true) (hup : l'.up = l.up)
    (hseen : streamOf seen = []) : Moved c l (c', l', seen) where
  config := hconfig
  cancelled := hcancelled
  closed h := (congrArg Pipe.closed hup).trans h
  unread := by rw [hseen, List.append_nil, hup]

/-- A party has sent, and has taken note of that. -/
theorem Sends.moved {c'' : Client} {frame : Except Fault Bytes} {s : Sending} {m : SendMove}
    {r : Sending ⊕ Except Fault Unit} {seen more : List ClientObservation}
    (h : Sends c l i frame s m c' l' r seen) (hconfig : c''.config = c.config)
    (hcancelled : c.cancelled = true → c''.cancelled = true)
    (hmore : streamOf more = streamOf seen) :
    Moved c l (c'', l', more) := by
  cases h with
  | intro hm =>
    refine ⟨hconfig, hcancelled, fun h => hm.closed.trans h, ?_⟩
    rw [hmore, streamOf_wrote]
    exact hm.unread

theorem Opens.moved {m : Move} (h : Opens c l m n) : Moved c l n := by
  cases h with
  | connects _ hw =>
    refine ⟨rfl, id, fun h => (Pipe.closed_of_write hw).trans h, ?_⟩
    rw [show streamOf [.wrote .reader _] = _ from List.append_nil _]
    exact Pipe.unread_of_write hw
  | fails _ | unwelcome _ _ _ => exact ⟨rfl, id, fun _ => rfl, (List.append_nil _).symm⟩
  | reads _ _ _ | opens _ _ _ => exact .of_up rfl id rfl rfl

theorem Reads.moved {m : Move} (h : Reads c l m n) : Moved c l n := by
  cases h with
  | ceases _ _ => exact .of_up readerMoved_endReader.config (fun _ => rfl) rfl rfl
  | reads _ _ _ => exact .of_up rfl id rfl rfl
  | undecodable _ _ _ => exact .of_up rfl (fun _ => rfl) rfl rfl
  | handles _ _ _ =>
    exact .of_up (readerMoved_takeFrame.trans (handles_handle _).moved).config
      (fun h => (handles_handle _).cancelled h) rfl rfl
  | answers _ hsends =>
    obtain ⟨t, rfl⟩ := hsends.client
    exact hsends.moved rfl id rfl
  | answerFails _ hsends =>
    obtain ⟨t, rfl⟩ := hsends.client
    exact hsends.moved rfl (fun _ => rfl) rfl
  | answered _ hsends =>
    obtain ⟨t, rfl⟩ := hsends.client
    exact hsends.moved readerMoved_afterAnswer.config (fun h => cancelled_afterAnswer h) rfl

theorem Keeps.moved {m : Move} (h : Keeps c l m n) : Moved c l n := by
  cases h with
  | ceases _ _ | wakes _ _ => exact .of_up rfl id rfl rfl
  | pings _ hsends | pinged _ hsends =>
    obtain ⟨t, rfl⟩ := hsends.client
    exact hsends.moved rfl id rfl
  | pingFails _ hsends =>
    obtain ⟨t, rfl⟩ := hsends.client
    refine hsends.moved rfl (fun h => ?_) rfl
    rw [h, Bool.true_or]

theorem Calls.moved {call : Call} {m : Move} (h : Calls c l k call m n) : Moved c l n := by
  cases h with
  | sends hsends | requests hsends | requested hsends | leaves hsends | left hsends =>
    obtain ⟨t, rfl⟩ := hsends.client
    exact hsends.moved rfl id rfl
  | sent hsends =>
    obtain ⟨t, rfl⟩ := hsends.client
    exact hsends.moved rfl id (by simp)
  | requestFails hsends =>
    obtain ⟨t, rfl⟩ := hsends.client
    rw [requestFails_eq]
    exact hsends.moved rfl id (by simp)
  | acknowledged =>
    obtain ⟨a, ha, -⟩ := requestReturns_eq (c := c) (l := l) (k := k) _ _ _
    rw [ha]
    exact .of_up rfl id rfl rfl
  | forgotten | cancelled _ =>
    rw [requestFails_eq]
    exact .of_up rfl id rfl rfl
  | waits | receives _ _ | exhausts _ _ _ | expires _ _ | comes => exact .of_up rfl id rfl rfl
  | shuts _ => exact ⟨rfl, fun _ => rfl, fun _ => rfl, (List.append_nil _).symm⟩

/-- **What every move leaves as it is.** -/
theorem step_moved {a : Action} (h : c.step l a = some n) : Moved c l n := by
  cases step_cases h with
  | opening hopens => exact hopens.moved
  | reader _ hreads => exact hreads.moved
  | keeper hkeeps => exact hkeeps.moved
  | call _ hcalls => exact hcalls.moved
  | givesUp _ => exact ⟨rfl, id, fun _ => rfl, (List.append_nil _).symm⟩

/-! ### Calls that begin -/

/-- A call has begun, and nothing else has happened but to packet ids and filters. -/
structure Begun (c : Client) (k : Nat) (new : Call) (c' : Client) : Prop where
  calls : c'.calls = c.calls.insert k new
  stage : c'.stage = c.stage
  config : c'.config = c.config
  reader : c'.reader = c.reader
  keeper : c'.keeper = c.keeper
  turnstile : c'.turnstile = c.turnstile
  cancelled : c'.cancelled = c.cancelled
  /-- What it sends, if anything, is a packet. -/
  sending : new.sending? = none ∨ ∃ p, new.sending? = some (c.frameOf p, .starting)

theorem Starts.begun {call : ClientCall} (h : Starts c k call c') : ∃ new, Begun c k new c' := by
  cases h with
  | publish _ | ping | disconnect =>
    exact ⟨_, rfl, rfl, rfl, rfl, rfl, rfl, rfl, .inr ⟨_, rfl⟩⟩
  | publishAcknowledged _ _ | unsubscribe _ _ =>
    exact ⟨_, rfl, rfl, rfl, rfl, rfl, rfl, rfl, .inr ⟨_, rfl⟩⟩
  | @subscribe wanted id ids _ _ _ =>
    have h := addFilters_eq (c := c.reserved ids) (wanted.map Subscription.filter)
    rw [h]
    exact ⟨_, rfl, rfl, rfl, rfl, rfl, rfl, rfl, .inr ⟨_, rfl⟩⟩
  | receive => exact ⟨_, rfl, rfl, rfl, rfl, rfl, rfl, rfl, .inl rfl⟩

theorem Begun.callMoved {new : Call} (h : Begun c k new c') : CallMoved k c c' :=
  callMoved_of_insert h.stage h.config h.reader h.keeper h.calls

/-- **A call that begins is a step of its own at the lane.** -/
theorem Begun.stepsAt {new : Call} (h : Begun c k new c') (hrunning : c.stage = .running)
    (hfresh : c.call? k = none) : c.StepsAt l (.call k) .apart c' [] := by
  refine stepsAt_of_running hrunning (h.stage.trans hrunning) ?_ h.callMoved.others
  rw [sending?_of_call?_eq_none hfresh, h.turnstile]
  rcases h.sending with hnew | ⟨p, hnew⟩
  · rw [sending?_of_insert h.calls hnew]
    exact .rest
  · rw [sending?_of_insert h.calls hnew]
    exact .begin (Packet.frameWhole_toBytes _ _)

end Client
end Mqtt
