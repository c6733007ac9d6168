import Mqtt.Proofs.Client.Events
import Mqtt.Proofs.Stream.Lines
/-!
# The two lines of a client

The parties of a client stand in line in front of the stream, and the calls that receive stand in
line for messages. Each party knows whether it has come and not gone yet (`Client.stands`,
`Client.listens`), and in every run the lines are made up of just those (`lined_of_replay`): nobody
goes away and leaves a place behind, and nobody waits who has lost it.

An event moves one party at most. What it does to the line in front of the stream is said for each
kind of move (`Opens.queues`, `Reads.queues`, `Keeps.queues`, `Calls.queues`), and only calls come
to the other line (`Calls.hears`).
-/

namespace Mqtt

/-- Whether a call has come to the line in front of the stream. -/
def Call.stands : Call → Bool
  | .send _ s | .leave _ s | .request _ _ _ _ (some s) => s.stands
  | .leaving _ entered => entered
  | _ => false

/-- Whether a call has come to the line for messages. -/
def Call.listens : Call → Bool
  | .receive _ entered => entered
  | _ => false

@[simp]
theorem Call.stands_bare (call : Call) : call.bare.stands = call.stands := by
  rcases call with _ | ⟨_, _, _, _, _ | _⟩ | _ | _ | _ <;> rfl

@[simp]
theorem Call.listens_bare (call : Call) : call.bare.listens = call.listens := by
  cases call <;> rfl

namespace Client

variable {c c' : Client} {l l' : Link} {e : Event} {i j : Party} {k k' : Nat} {n : Next}

/-- Whether a party has come to the line in front of the stream. -/
def stands (c : Client) : Party → Bool
  | .reader => (c.sending? .reader).any fun x => x.2.stands
  | .keeper => (c.sending? .keeper).any fun x => x.2.stands
  | .call k => (c.call? k).any Call.stands

/-- Whether a call has come to the line for messages. -/
def listens (c : Client) (k : Nat) : Bool := (c.call? k).any Call.listens

/-- Both lines are made up of those who have come and not gone yet. -/
structure Lined (c : Client) : Prop where
  gate : c.gate.Lines c.stands
  receivers : c.receivers.Lines c.listens

/-! ### Who stands where -/

theorem stands_call {call : Call} (h : c.calls[k]? = some call) :
    c.stands (.call k) = call.stands := by
  show (c.call? k).any Call.stands = _
  rw [call?_eq h]
  exact call.stands_bare

theorem listens_eq {call : Call} (h : c.calls[k]? = some call) : c.listens k = call.listens := by
  rw [listens, call?_eq h]
  exact call.listens_bare

theorem stands_of_call?_eq_none (h : c.call? k = none) : c.stands (.call k) = false := by
  show (c.call? k).any Call.stands = _
  rw [h]
  rfl

theorem listens_of_call?_eq_none (h : c.call? k = none) : c.listens k = false := by
  rw [listens, h]
  rfl

theorem stands_of_insert {call : Call} (h : c'.calls = c.calls.insert k call) :
    c'.stands (.call k) = call.stands := by
  show (c'.call? k).any Call.stands = _
  rw [call?_of_insert h, if_pos rfl]
  exact call.stands_bare

theorem listens_of_insert {call : Call} (h : c'.calls = c.calls.insert k call) :
    c'.listens k = call.listens := by
  rw [listens, call?_of_insert h, if_pos rfl]
  exact call.listens_bare

theorem listens_congr (h : c'.call? k = c.call? k) : c'.listens k = c.listens k := by
  rw [listens, h, listens]

/-- The others stand where they stood. -/
theorem stands_congr (hsending : ∀ j, j ≠ i → c'.sending? j = c.sending? j)
    (hcall : ∀ k, .call k ≠ i → c'.call? k = c.call? k) :
    ∀ j, j ≠ i → c'.stands j = c.stands j := by
  intro j hj
  cases j with
  | reader | keeper => rw [stands, stands, hsending _ hj]
  | call k => rw [stands, stands, hcall k hj]

theorem CallMoved.stands (h : CallMoved k c c') : ∀ j, j ≠ .call k → c'.stands j = c.stands j :=
  stands_congr h.others fun k' hk' => h.call? k' fun heq => hk' (congrArg Party.call heq)

theorem CallMoved.listens (h : CallMoved k c c') : ∀ k', k' ≠ k → c'.listens k' = c.listens k' :=
  fun k' hk' => listens_congr (h.call? k' hk')

/-! ### The line in front of the stream -/

theorem Sends.queues {frame : Except Fault Bytes} {s : Sending} {m : SendMove}
    {r : Sending ⊕ Except Fault Unit} {seen : List ClientObservation}
    (h : Sends c l i frame s m c' l' r seen) :
    Turnstile.Queues c.turnstile c'.turnstile i s.stands
      (r.elim Sending.stands fun _ => false) := by
  cases h with
  | intro hm => exact hm.queues

theorem stands_reader (h : c.stage = .running) : c.stands .reader =
    match c.reader with
    | .answering _ s _ => s.stands
    | _ => false := by
  rw [stands, sending?_reader_of_running h]
  rcases c.reader with _ | _ | _ <;> rfl

theorem stands_keeper : c.stands .keeper =
    match c.keeper with
    | .pinging s => s.stands
    | _ => false := by
  rw [stands, sending?]
  rcases c.keeper with _ | _ | _ <;> rfl

theorem Reads.queues {m : Move} (h : Reads c l m n) (hrunning : c.stage = .running) :
    Turnstile.Queues c.turnstile n.1.turnstile .reader (c.stands .reader) (n.1.stands .reader) := by
  -- The task has no frame in line, before and after.
  have hrest {c' : Client} (hmoved : ReaderMoved c c') (hc : c.reader = .reading)
      (hc' : c'.reader = .reading ∨ c'.reader = .over ∨
        ∃ frame q, c'.reader = .answering frame .starting q) :
      Turnstile.Queues c.turnstile c'.turnstile .reader (c.stands .reader) (c'.stands .reader) := by
    rw [stands_reader hrunning, stands_reader (hmoved.stage.trans hrunning), hc]
    rcases hc' with hc' | hc' | ⟨frame, q, hc'⟩ <;> rw [hc'] <;> exact .stays hmoved.turnstile
  have hanswering {frame : Except Fault Bytes} {s : Sending} {p : Option Publish}
      (hc : c.reader = .answering frame s p) : c.stands .reader = s.stands := by
    rw [stands_reader hrunning, hc]
  cases h with
  | ceases hc _ => exact hrest readerMoved_endReader hc (.inr (.inl rfl))
  | reads hc _ _ => exact hrest ⟨rfl, rfl, rfl, rfl, rfl, fun _ => rfl⟩ hc (.inl hc)
  | undecodable hc _ _ =>
    exact hrest (readerMoved_takeFrame.trans readerMoved_endReader) hc (.inr (.inl rfl))
  | @handles f a p hc _ _ =>
    have hhandles : Handles (c.takeFrame a) p _ := handles_handle p
    refine hrest (readerMoved_takeFrame.trans hhandles.moved) hc ?_
    rcases hhandles.reader with hc' | hc' | ⟨ack, q, -, hc'⟩
    · exact .inl hc'
    · exact .inr (.inl hc')
    · exact .inr (.inr ⟨_, q, hc'⟩)
  | answers hc hsends | answerFails hc hsends =>
    have hqueues := hsends.queues
    obtain ⟨t, rfl⟩ := hsends.client
    exact hqueues.congr (hanswering hc) (stands_reader hrunning)
  | @answered frame s p m c₁ l' seen hc hsends =>
    have hqueues := hsends.queues
    have hafter : ReaderMoved c₁ (c₁.afterAnswer p) := readerMoved_afterAnswer
    have hreader : (c₁.afterAnswer p).reader = .reading ∨ (c₁.afterAnswer p).reader = .over :=
      reader_afterAnswer
    obtain ⟨t, rfl⟩ := hsends.client
    dsimp only
    rw [hafter.turnstile]
    refine hqueues.congr (hanswering hc) ?_
    rw [stands_reader (hafter.stage.trans hrunning)]
    rcases hreader with hreader | hreader <;> rw [hreader] <;> rfl

theorem Keeps.queues {m : Move} (h : Keeps c l m n) :
    Turnstile.Queues c.turnstile n.1.turnstile .keeper (c.stands .keeper) (n.1.stands .keeper) := by
  have hpinging {s : Sending} (hc : c.keeper = .pinging s) : c.stands .keeper = s.stands := by
    rw [stands_keeper, hc]
  have hsleeping {wake : Nat} (hc : c.keeper = .sleeping wake) : c.stands .keeper = false := by
    rw [stands_keeper, hc]
  cases h with
  | ceases hc _ | wakes hc _ =>
    exact (Turnstile.Queues.stays rfl).congr (hsleeping hc) stands_keeper
  | pings hc hsends | pingFails hc hsends =>
    exact hsends.queues.congr (hpinging hc) stands_keeper
  | @pinged s m c₁ _ _ hc hsends =>
    refine hsends.queues.congr (hpinging hc) ?_
    -- Asleep or over, the keeper is in no line.
    rw [stands_keeper, nextPing]
    rcases pingInterval c₁.config with _ | _ <;> rfl

theorem Calls.queues {call : Call} {m : Move} (h : Calls c l k call m n)
    (hcall : c.calls[k]? = some call) : Turnstile.Queues c.turnstile n.1.turnstile (.call k)
      (c.stands (.call k)) (n.1.stands (.call k)) := by
  rw [stands_call hcall]
  -- A call that is gone stands nowhere.
  have hgone {c' : Client} {b : Bool} (hcalls : c'.call? k = none)
      (hqueues : Turnstile.Queues c.turnstile c'.turnstile (.call k) b false) :
      Turnstile.Queues c.turnstile c'.turnstile (.call k) b (c'.stands (.call k)) := by
    rw [stands_of_call?_eq_none hcalls]
    exact hqueues
  have herase {c' c₁ : Client} (hcalls : c'.calls = c₁.calls.erase k) : c'.call? k = none :=
    (call?_of_erase hcalls).trans (if_pos rfl)
  cases h with
  | sends hsends | requests hsends | requested hsends | leaves hsends | left hsends =>
    rw [stands_of_insert rfl]
    exact hsends.queues
  | sent hsends => exact hgone (herase rfl) hsends.queues
  | requestFails hsends =>
    rw [requestFails_eq]
    exact hgone (call?_withdraw.trans (if_pos rfl)) hsends.queues
  | acknowledged =>
    obtain ⟨a, ha, -⟩ := requestReturns_eq (c := c) (l := l) (k := k) _ _ _
    rw [ha]
    exact hgone (call?_withdraw.trans (if_pos rfl)) (.stays rfl)
  | forgotten | cancelled _ =>
    rw [requestFails_eq]
    exact hgone (call?_withdraw.trans (if_pos rfl)) (.stays rfl)
  | waits =>
    rw [stands_of_insert rfl]
    exact .stays rfl
  | comes =>
    -- It has said DISCONNECT, and comes to the line once more to shut the stream.
    rw [stands_of_insert rfl]
    exact .comes rfl
  | receives _ _ | exhausts _ _ _ | expires _ _ => exact hgone (herase rfl) (.stays rfl)
  | shuts _ => exact hgone (herase rfl) (.goes rfl)

theorem gate_of_not_connecting (h : ∀ left, c.stage ≠ .connecting left) : c.gate = c.turnstile := by
  rw [gate]
  split
  · next left hstage => exact absurd hstage (h left)
  · rfl

theorem Opens.queues {m : Move} (h : Opens c l m n) (ho : c.Orderly) :
    Turnstile.Queues c.gate n.1.gate .reader (c.stands .reader) (n.1.stands .reader) := by
  have hconnecting {c : Client} {left : Bytes} (hstage : c.stage = .connecting left) :
      c.gate = ⟨some .reader, []⟩ ∧ c.stands .reader = true := by
    refine ⟨?_, ?_⟩
    · rw [gate, hstage]
    · simp only [stands, sending?, hstage]
      rfl
  have hnone {c : Client} (hsending : c.sending? .reader = none) : c.stands .reader = false := by
    rw [stands, hsending]
    rfl
  -- The opening call goes away, with the turnstile as it is from then on.
  have hgoes {c' : Client} {left : Bytes} (hstage : c.stage = .connecting left)
      (hstage' : ∀ left, c'.stage ≠ .connecting left) (hturnstile : c'.turnstile = c.turnstile)
      (hreader : c'.reader = c.reader) :
      Turnstile.Queues c.gate c'.gate .reader (c.stands .reader) (c'.stands .reader) := by
    have hover := hreader.trans (ho.reader (by simp [hstage]))
    rw [(hconnecting hstage).1, gate_of_not_connecting hstage', hturnstile,
      ho.turnstile (.inl ⟨left, hstage⟩)]
    exact (Turnstile.Queues.goes (by simp [Turnstile.leave, Turnstile.empty])).congr
      (hconnecting hstage).2 (hnone (sending?_reader_of_over hover hstage'))
  have hstays {c' : Client} (hstage : c.stage = .awaiting)
      (hstage' : ∀ left, c'.stage ≠ .connecting left) (hturnstile : c'.turnstile = c.turnstile)
      (hsending : c'.sending? .reader = none) :
      Turnstile.Queues c.gate c'.gate .reader (c.stands .reader) (c'.stands .reader) := by
    have hne (left : Bytes) : c.stage ≠ .connecting left := by simp [hstage]
    have hover := ho.reader (by simp [hstage])
    rw [gate_of_not_connecting hne, gate_of_not_connecting hstage', hturnstile]
    exact (Turnstile.Queues.stays rfl).congr (hnone (sending?_reader_of_over hover hne))
      (hnone hsending)
  have hover {c' : Client} (hstage : c.stage = .awaiting) (hreader : c'.reader = c.reader)
      (hstage' : ∀ left, c'.stage ≠ .connecting left) : c'.sending? .reader = none :=
    sending?_reader_of_over (hreader.trans (ho.reader (by simp [hstage]))) hstage'
  cases h with
  | @connects left taken rest up hstage hw =>
    by_cases hrest : rest = []
    · subst hrest
      exact hgoes hstage (by simp) rfl rfl
    · -- The CONNECT is not written to its end, and the opening call stays inside.
      have hne : rest.isEmpty = false := by simpa using hrest
      have hafter :
          (if rest.isEmpty then Stage.awaiting else .connecting rest) = .connecting rest := by
        rw [hne]
        rfl
      dsimp only
      rw [(hconnecting hstage).1, (hconnecting hafter).1]
      exact (Turnstile.Queues.stays rfl).congr (hconnecting hstage).2 (hconnecting hafter).2
  | fails hfails =>
    cases hfails with
    | broken hstage _ => exact hgoes hstage (by simp [fail]) rfl rfl
    | cancelled hstage _ | ended hstage _ _ | malformed hstage _ =>
      exact hstays hstage (by simp [fail]) rfl (hover hstage rfl (by simp [fail]))
  | reads hstage _ _ =>
    have hne (left : Bytes) : c.stage ≠ .connecting left := by simp [hstage]
    exact hstays hstage hne rfl (hover hstage rfl hne)
  | unwelcome hstage _ _ =>
    exact hstays hstage (by simp [fail]) rfl (hover hstage rfl (by simp [fail]))
  | opens hstage _ _ =>
    exact hstays hstage (by simp [run]) rfl (sending?_reader_of_running rfl)

/-- **What a move does to the line in front of the stream.** -/
theorem step_queues {a : Action} (ho : c.Orderly) (h : c.step l a = some n) :
    Turnstile.Queues c.gate n.1.gate a.actor (c.stands a.actor) (n.1.stands a.actor) := by
  cases step_cases h with
  | opening hopens => exact hopens.queues ho
  | reader hrunning hreads =>
    rw [gate_of_running hrunning, gate_of_running (hreads.stage.trans hrunning)]
    exact hreads.queues hrunning
  | keeper hkeeps =>
    have hrunning := hkeeps.running ho
    rw [gate_of_running hrunning, gate_of_running (hkeeps.stage.trans hrunning)]
    exact hkeeps.queues
  | call hcall hcalls =>
    have hrunning := running_of_call ho hcall
    rw [gate_of_running hrunning, gate_of_running (hcalls.stage.trans hrunning)]
    exact hcalls.queues hcall
  | givesUp hforsaken =>
    obtain ⟨-, hrunning, hreader, -⟩ := of_isForsaken hforsaken
    have hne (left : Bytes) : Stage.closed ≠ .connecting left := nofun
    have hgate : ({ c with stage := .closed } : Client).gate = c.turnstile :=
      gate_of_not_connecting hne
    have hnone : ({ c with stage := .closed } : Client).stands .reader = false := by
      have hover : ({ c with stage := .closed } : Client).reader = .over := hreader
      rw [stands, sending?_reader_of_over hover hne]
      rfl
    rw [gate_of_running hrunning, hgate]
    -- The reading task is over, so it stood nowhere.
    refine (Turnstile.Queues.stays rfl).congr ?_ hnone
    rw [Action.actor, stands_reader hrunning, hreader]

/-- Only the one who moves comes or goes. -/
theorem step_others {a : Action} (ho : c.Orderly) (h : c.step l a = some n) :
    ∀ j, j ≠ a.actor → n.1.stands j = c.stands j := by
  have hlane := stepsAt_of_step ho h
  refine stands_congr hlane.others fun k hk => ?_
  cases step_cases h with
  | opening hopens => exact hopens.call? k
  | reader _ hreads => exact hreads.call? k
  | keeper hkeeps => exact hkeeps.call? k
  | call _ hcalls => exact hcalls.callMoved.call? k fun heq => hk (congrArg Party.call heq)
  | givesUp _ => rfl

theorem Starts.stands {call : ClientCall} (h : Starts c k call c') :
    c'.stands (.call k) = false := by
  cases h with
  | _ => exact (stands_of_insert rfl).trans rfl

theorem Starts.listens {call : ClientCall} (h : Starts c k call c') : c'.listens k = false := by
  cases h with
  | _ => exact (listens_of_insert rfl).trans rfl

theorem quit_queues {s : Sending} :
    Turnstile.Queues c.turnstile (c.quit k s).turnstile (.call k) s.stands false :=
  Outlet.queues_abandon (o := ⟨c.turnstile, .empty 0⟩)

theorem Drops.queues {call : Option Call} (h : Drops c k call c') :
    Turnstile.Queues c.turnstile c'.turnstile (.call k) (call.any Call.stands) false := by
  cases h with
  | sends | leaves | requests => exact quit_queues
  | shuts => exact .goes rfl
  | _ => exact .stays rfl

/-- **What an event does to the line in front of the stream.** -/
theorem Happens.queues (h : Happens c l e n) (ho : c.Orderly) :
    Turnstile.Queues c.gate n.1.gate e.actor (c.stands e.actor) (n.1.stands e.actor) ∧
      ∀ j, j ≠ e.actor → n.1.stands j = c.stands j := by
  have hsame {c' : Client} (hgate : c'.gate = c.gate) (hstands : ∀ j, c'.stands j = c.stands j) :
      Turnstile.Queues c.gate c'.gate e.actor (c.stands e.actor) (c'.stands e.actor) ∧
        ∀ j, j ≠ e.actor → c'.stands j = c.stands j :=
    ⟨(Turnstile.Queues.stays hgate).congr rfl (hstands _), fun j _ => hstands j⟩
  cases h with
  | @begins k call c' hrunning hfresh hstarts =>
    obtain ⟨new, hbegun⟩ := hstarts.begun
    have hnone := call?_eq_none_iff.2 hfresh
    refine ⟨?_, hbegun.callMoved.stands⟩
    rw [gate_of_running hrunning, gate_of_running (hbegun.stage.trans hrunning)]
    exact (Turnstile.Queues.stays hbegun.turnstile).congr (stands_of_call?_eq_none hnone)
      hstarts.stands
  | @abandons k =>
    have hdrops := drops_abandon (c := c) k
    have hqueues := hdrops.queues
    have hbefore : c.stands (.call k) = c.calls[k]?.any Call.stands := by
      rcases hcall : c.calls[k]? with _ | call
      · exact stands_of_call?_eq_none (call?_eq_none_iff.2 hcall)
      · exact stands_call hcall
    have hgone := stands_of_call?_eq_none hdrops.call?_eq_none
    refine ⟨Turnstile.Queues.congr ?_ hbefore hgone, hdrops.callMoved.stands⟩
    by_cases hrunning : c.stage = .running
    · rw [gate_of_running hrunning, gate_of_running (hdrops.callMoved.stage.trans hrunning)]
      exact hqueues
    · -- There is no such call before the session is open.
      have hnone : c.calls[k]? = none := call?_eq_none_iff.1 (ho.calls hrunning k)
      rw [hnone] at hdrops ⊢
      generalize c.abandon k = c' at hdrops ⊢
      cases hdrops
      exact .stays rfl
  | moves hstep => exact ⟨step_queues ho hstep, step_others ho hstep⟩
  | _ => exact hsame rfl fun j => by cases j <;> rfl

/-! ### The line for messages -/

theorem Handles.receivers {p : Packet} (h : Handles c p c') : c'.receivers = c.receivers := by
  cases h with
  | keeps _ =>
    rw [keep]
    split_ifs <;> rfl
  | _ => rfl

theorem receivers_afterAnswer {p : Option Publish} :
    (c.afterAnswer p).receivers = c.receivers := by
  cases p with
  | none => rfl
  | some p =>
    show (c.keep p).receivers = _
    rw [keep]
    split_ifs <;> rfl

theorem Reads.receivers {m : Move} (h : Reads c l m n) : n.1.receivers = c.receivers := by
  cases h with
  | ceases _ _ | reads _ _ _ | undecodable _ _ _ => rfl
  | handles _ _ _ => exact (handles_handle _).receivers
  | answers _ hsends | answerFails _ hsends =>
    obtain ⟨t, rfl⟩ := hsends.client
    rfl
  | answered _ hsends =>
    obtain ⟨t, rfl⟩ := hsends.client
    exact receivers_afterAnswer

theorem Keeps.receivers {m : Move} (h : Keeps c l m n) : n.1.receivers = c.receivers := by
  cases h with
  | ceases _ _ | wakes _ _ => rfl
  | pings _ hsends | pinged _ hsends | pingFails _ hsends =>
    obtain ⟨t, rfl⟩ := hsends.client
    rfl

theorem Opens.receivers {m : Move} (h : Opens c l m n) : n.1.receivers = c.receivers := by
  cases h <;> rfl

theorem Calls.hears {call : Call} {m : Move} (h : Calls c l k call m n)
    (hcall : c.calls[k]? = some call) :
    Turnstile.Queues c.receivers n.1.receivers k (c.listens k) (n.1.listens k) := by
  have hbefore := listens_eq hcall
  have hgone {c' c₁ : Client} (hcalls : c'.calls = c₁.calls.erase k) : c'.listens k = false :=
    listens_of_call?_eq_none ((call?_of_erase hcalls).trans (if_pos rfl))
  have hstays {c' c₁ : Client} {new : Call} {b : Bool}
      (hcalls : c'.calls = c₁.calls.insert k new) (hnew : new.listens = b) : c'.listens k = b :=
    (listens_of_insert hcalls).trans hnew
  -- A call that does not receive leaves this line alone.
  have hapart {c' : Client} (hreceivers : c'.receivers = c.receivers) (hcall : call.listens = false)
      (hafter : c'.listens k = false) :
      Turnstile.Queues c.receivers c'.receivers k (c.listens k) (c'.listens k) :=
    (Turnstile.Queues.stays hreceivers).congr (hbefore.trans hcall) hafter
  cases h with
  | sends hsends | requests hsends | requested hsends | leaves hsends | left hsends =>
    obtain ⟨t, rfl⟩ := hsends.client
    exact hapart rfl rfl (hstays rfl rfl)
  | comes => exact hapart rfl rfl (hstays rfl rfl)
  | sent hsends =>
    obtain ⟨t, rfl⟩ := hsends.client
    exact hapart rfl rfl (hgone rfl)
  | shuts _ => exact hapart rfl rfl (hgone rfl)
  | requestFails hsends =>
    obtain ⟨t, rfl⟩ := hsends.client
    rw [requestFails_eq]
    exact hapart rfl rfl (listens_of_call?_eq_none (call?_withdraw.trans (if_pos rfl)))
  | forgotten | cancelled _ =>
    rw [requestFails_eq]
    exact hapart rfl rfl (listens_of_call?_eq_none (call?_withdraw.trans (if_pos rfl)))
  | acknowledged =>
    obtain ⟨a, ha, -⟩ := requestReturns_eq (c := c) (l := l) (k := k) _ _ _
    rw [ha]
    exact hapart rfl rfl (listens_of_call?_eq_none (call?_withdraw.trans (if_pos rfl)))
  | waits => exact (Turnstile.Queues.comes rfl).congr hbefore (hstays rfl rfl)
  | receives _ _ | exhausts _ _ _ | expires _ _ =>
    exact (Turnstile.Queues.goes rfl).congr hbefore (hgone rfl)

theorem Starts.receivers {call : ClientCall} (h : Starts c k call c') :
    c'.receivers = c.receivers := by
  cases h with
  | subscribe =>
    rw [addFilters_eq]
    rfl
  | _ => rfl

theorem Drops.hears {call : Option Call} (h : Drops c k call c') :
    Turnstile.Queues c.receivers c'.receivers k (call.any Call.listens) false := by
  cases h with
  | receives => exact .goes rfl
  | _ => exact .stays rfl

/-- **What an event does to the line for messages.** -/
theorem Happens.hears (h : Happens c l e n) :
    ∃ k, Turnstile.Queues c.receivers n.1.receivers k (c.listens k) (n.1.listens k) ∧
      ∀ k', k' ≠ k → n.1.listens k' = c.listens k' := by
  have hsame {c' : Client} (hreceivers : c'.receivers = c.receivers)
      (hcall : ∀ k, c'.call? k = c.call? k) :
      ∃ k, Turnstile.Queues c.receivers c'.receivers k (c.listens k) (c'.listens k) ∧
        ∀ k', k' ≠ k → c'.listens k' = c.listens k' :=
    ⟨0, (Turnstile.Queues.stays hreceivers).congr rfl (listens_congr (hcall 0)),
      fun k' _ => listens_congr (hcall k')⟩
  cases h with
  | @begins k call c' hrunning hfresh hstarts =>
    obtain ⟨new, hbegun⟩ := hstarts.begun
    have hnone := call?_eq_none_iff.2 hfresh
    exact ⟨k, (Turnstile.Queues.stays hstarts.receivers).congr (listens_of_call?_eq_none hnone)
      hstarts.listens, hbegun.callMoved.listens⟩
  | @abandons k =>
    have hdrops := drops_abandon (c := c) k
    -- A call that is dropped leaves the line for messages if it stood there.
    have hbefore : c.listens k = c.calls[k]?.any Call.listens := by
      rcases hcall : c.calls[k]? with _ | call
      · exact listens_of_call?_eq_none (call?_eq_none_iff.2 hcall)
      · exact listens_eq hcall
    exact ⟨k, hdrops.hears.congr hbefore (listens_of_call?_eq_none hdrops.call?_eq_none),
      hdrops.callMoved.listens⟩
  | moves hstep =>
    cases step_cases hstep with
    | opening hopens => exact hsame hopens.receivers hopens.call?
    | reader _ hreads => exact hsame hreads.receivers hreads.call?
    | keeper hkeeps => exact hsame hkeeps.receivers hkeeps.call?
    | call hcall hcalls => exact ⟨_, hcalls.hears hcall, hcalls.callMoved.listens⟩
    | givesUp _ => exact hsame rfl fun _ => rfl
  | _ => exact hsame rfl fun _ => rfl

/-! ### Every run -/

theorem Begins.lined (h : Begins c l) : c.Lined := by
  cases h with
  | intro hconnect =>
    obtain ⟨bs, hbytes, rfl⟩ := connect_eq_ok hconnect
    refine ⟨⟨nofun, List.nodup_singleton _, fun i => ?_⟩, Turnstile.lines_empty fun k => ?_⟩
    · show i ∈ [.reader] ↔ _
      rw [List.mem_singleton]
      cases i with
      | reader => exact iff_of_true rfl rfl
      | keeper => exact iff_of_false nofun nofun
      | call k =>
        rw [stands_of_call?_eq_none call?_fresh]
        exact iff_of_false nofun nofun
    · exact listens_of_call?_eq_none call?_fresh

/-- **Every event keeps both lines right.** -/
theorem Lined.next (h : c.Lined) (ho : c.Orderly) (hhappens : Happens c l e n) : n.1.Lined := by
  obtain ⟨hqueues, hothers⟩ := hhappens.queues ho
  obtain ⟨k, hhears, hquiet⟩ := hhappens.hears
  exact ⟨h.gate.step hqueues hothers, h.receivers.step hhears hquiet⟩

theorem lined_of_replay {es : List Event} {seen : List ClientObservation} (hb : Begins c l)
    (h : c.replay l es = some (c', l', seen)) : c'.Lined := by
  refine (replay_invariant (P := fun c _ => c.Wired ∧ c.Lined) ?_ ⟨hb.wired, hb.lined⟩ h).2
  intro c l e n hevent hlined
  exact ⟨hlined.1.next hevent, hlined.2.next hlined.1.orderly (happens_of_event? hevent)⟩

end Client
end Mqtt
