import Mqtt.Proofs.Client.Lines
import Mqtt.Proofs.Client.Waiting
/-!
# Clients that have ended

Once the token of a client is cancelled, whoever sends can give up, wherever its frame is, and
whoever waits for an acknowledgement can go. Those who cannot are the calls that wait in line to
shut the stream, or for a message; but then somebody is in front of them who can move. So when
nothing can move any more, nothing is left (`ended_of_quiescent`), whatever the calls were waiting
for and however late they came.

Two things are kept from the moment on at which the session is open: the reading task ends by
cancelling the token and closing the inbox (`Closes`), and a packet id is taken for nobody but the
request that was given it (`Owned`).
-/

namespace Mqtt
namespace Client

variable {c c' c₁ c₂ : Client} {l l₁ l₂ : Link} {e : Event} {es₁ es₂ : List Event} {k : Nat}
  {n : Next}
  {seen seen₁ seen₂ : List ClientObservation}

/-- Nothing is left of a client but what the program holds of it. -/
structure Ended (c : Client) : Prop where
  running : c.isRunning = false
  reader : c.reader = .over
  keeper : c.keeper = .over
  calls : c.calls.isEmpty = true
  ids : c.ids.taken.isEmpty = true

/-! ### Packet ids -/

/-- A packet id is taken for nobody but the request that was given it. -/
def Owned (c : Client) : Prop :=
  ∀ (id : UInt16) k, c.ids.taken[id]? = some k → ∃ r, c.request? k = some r ∧ r.id = id

/-- No id is taken, and no request changes. -/
theorem Owned.mono (h : c.Owned)
    (hids : ∀ (id : UInt16) k, c'.ids.taken[id]? = some k → c.ids.taken[id]? = some k)
    (hcall : ∀ k, c'.call? k = c.call? k) : c'.Owned := by
  intro id k hk
  rw [request?_congr hcall]
  exact h id k (hids id k hk)

/-- A call that is no request goes away. -/
theorem Owned.of_erase (h : c.Owned) (hids : c'.ids = c.ids)
    (hcall : ∀ k', c'.call? k' = if k' = k then none else c.call? k')
    (hnone : c.request? k = none) :
    c'.Owned := by
  intro id k' hk'
  rw [hids] at hk'
  obtain ⟨r, hr, hid⟩ := h id k' hk'
  refine ⟨r, ?_, hid⟩
  rw [request?, hcall, if_neg, ← request?, hr]
  rintro rfl
  rw [hnone] at hr
  cases hr

/-- A request goes away, with its id. -/
theorem Owned.of_release {id : UInt16} {r : Request} (h : c.Owned) (hr : c.request? k = some r)
    (hid : r.id = id) (hids : c'.ids.taken = c.ids.taken.erase id)
    (hcall : ∀ k', c'.call? k' = if k' = k then none else c.call? k') : c'.Owned := by
  intro id' k' hk'
  rw [hids, Std.TreeMap.getElem?_erase] at hk'
  split_ifs at hk' with heq
  obtain ⟨r', hr', hid'⟩ := h id' k' hk'
  refine ⟨r', ?_, hid'⟩
  rw [request?, hcall, if_neg, ← request?, hr']
  -- The id belongs to one request, so another one keeps its own.
  rintro rfl
  obtain rfl := Option.some.inj (hr.symm.trans hr')
  exact heq (by simp [← hid, ← hid'])

/-- A request begins under an id that was free. -/
theorem Owned.of_begin {ids : PacketIds} {id : UInt16} {purpose : Purpose} {p : Packet}
    (h : c.Owned) (hids : c.ids.reserve k = (some id, ids)) (hafter : c'.ids = ids)
    (hcalls : c'.calls = c.calls) (hnone : c.call? k = none) :
    (c'.startRequest k purpose id p).Owned := by
  obtain ⟨-, -, htaken⟩ := PacketIds.reserveWithin_eq_some hids
  intro id' k' hk'
  have hids' : (c'.startRequest k purpose id p).ids.taken = c.ids.taken.insert id k := by
    rw [← htaken, ← hafter]
    rfl
  have hcall : (c'.startRequest k purpose id p).call? k' =
      if k' = k then some (.request purpose id (c'.frameOf p) .waiting (some .starting))
      else c.call? k' := by
    rw [call?_of_insert rfl, call?, call?, hcalls]
    rfl
  rw [hids', Std.TreeMap.getElem?_insert] at hk'
  rw [request?, hcall]
  split_ifs at hk' with heq
  · -- The new id belongs to the new request.
    obtain rfl := Option.some.inj hk'
    rw [if_pos rfl]
    exact ⟨_, rfl, by simpa using heq⟩
  · -- An id that was taken belongs to a request that was there, and this call was not.
    obtain ⟨r, hr, hid⟩ := h id' k' hk'
    rw [if_neg]
    · exact ⟨r, hr, hid⟩
    · rintro rfl
      rw [request?, hnone] at hr
      cases hr

theorem Owned.starts {call : ClientCall} (h : c.Owned) (hstarts : Starts c k call c')
    (hnone : c.call? k = none) : c'.Owned := by
  have hplain {new : Call} : (c.setCall k new).Owned := by
    intro id k' hk'
    obtain ⟨r, hr, hid⟩ := h id k' hk'
    refine ⟨r, ?_, hid⟩
    rw [request?, call?_of_insert rfl, if_neg, ← request?, hr]
    rintro rfl
    rw [request?, hnone] at hr
    cases hr
  cases hstarts with
  | publish _ | ping | disconnect | receive => exact hplain
  | publishAcknowledged _ hids | unsubscribe _ hids => exact h.of_begin hids rfl rfl hnone
  | @subscribe wanted id ids _ _ hids =>
    refine h.of_begin hids ?_ ?_ hnone
    · rw [addFilters_eq]
      rfl
    · rw [addFilters_eq]
      rfl

theorem Owned.drops {call : Option Call} (h : c.Owned) (hdrops : Drops c k call c')
    (hcall : c.calls[k]? = call) : c'.Owned := by
  have hrequest : c.request? k = call.bind Call.request? := by
    rcases call with _ | call
    · rw [request?, call?, hcall]
      rfl
    · exact request?_eq hcall
  cases hdrops with
  | requests | waits => exact h.of_release hrequest rfl rfl fun k' => call?_release
  | _ => exact h.of_erase rfl (fun k' => call?_of_erase rfl) hrequest

theorem Owned.keep {p : Publish} (h : c.Owned) : (c.keep p).Owned := by
  refine h.mono (fun id k hk => ?_) readerMoved_keep.call?
  revert hk
  rw [Client.keep]
  split_ifs
  · exact fun hk => hk
  · simp [endReader]
  · exact fun hk => hk

theorem Owned.endReader (h : c.Owned) : c.endReader.Owned :=
  h.mono (fun id k hk => by simp [Client.endReader] at hk) fun _ => call?_endReader

theorem Owned.handles {p : Packet} (ho : c.Owned) (h : Handles c p c') : c'.Owned := by
  cases h with
  | keeps _ => exact ho.keep
  | disconnects => exact ho.endReader
  | @completes id p _ =>
    refine ho.mono (fun id' k hk => ?_) fun _ => call?_complete
    rw [show (c.complete id p).readOn.ids.taken = c.ids.taken.erase id from rfl,
      Std.TreeMap.getElem?_erase] at hk
    split_ifs at hk
    exact hk
  | _ => exact ho

theorem Owned.reads {m : Move} (ho : c.Owned) (h : Reads c l m n) : n.1.Owned := by
  cases h with
  | ceases _ _ => exact ho.endReader
  | undecodable _ _ _ => exact Owned.endReader ho
  | reads _ _ _ => exact ho
  | @handles f a _ _ _ _ => exact Owned.handles (c := c.takeFrame a) ho (handles_handle _)
  | answers _ hsends =>
    obtain ⟨t, rfl⟩ := hsends.client
    exact ho
  | answerFails _ hsends =>
    obtain ⟨t, rfl⟩ := hsends.client
    exact Owned.endReader ho
  | @answered _ _ p _ _ _ _ _ hsends =>
    obtain ⟨t, rfl⟩ := hsends.client
    cases p with
    | none => exact ho
    | some p => exact Owned.keep ho

theorem Owned.keeps {m : Move} (ho : c.Owned) (h : Keeps c l m n) : n.1.Owned := by
  cases h with
  | ceases _ _ | wakes _ _ => exact ho
  | pings _ hsends | pinged _ hsends | pingFails _ hsends =>
    obtain ⟨t, rfl⟩ := hsends.client
    exact ho

theorem Owned.calls {call : Call} {m : Move} (ho : c.Owned) (h : Calls c l k call m n)
    (hcall : c.calls[k]? = some call) : n.1.Owned := by
  have hrequest := request?_eq hcall
  -- A call goes on, with the id that it has.
  have hgoes {c' : Client} {new : Call} (hids : c'.ids = c.ids)
      (hcalls : c'.calls = c.calls.insert k new)
      (hsame : new.request?.map Request.id = call.request?.map Request.id) :
      c'.Owned := by
    intro id k' hk'
    rw [hids] at hk'
    obtain ⟨r, hr, hid⟩ := ho id k' hk'
    rw [request?, call?_of_insert hcalls]
    split_ifs with heq
    · subst heq
      rw [← hrequest, hr] at hsame
      obtain ⟨r', hr', hid'⟩ := Option.map_eq_some_iff.1 hsame
      exact ⟨r', (Call.request?_bare new).trans hr', hid'.trans hid⟩
    · exact ⟨r, hr, hid⟩
  have hgone {c' : Client} (hids : c'.ids = c.ids) (hcalls : c'.calls = c.calls.erase k)
      (hnone : call.request? = none) : c'.Owned :=
    ho.of_erase hids (fun _ => call?_of_erase hcalls) (hrequest.trans hnone)
  have hwithdraw {c₁ : Client} {purpose : Purpose} {id : UInt16} {frame : Except Fault Bytes}
      {slot : Slot} {state : Option Sending} {fs : List String} (hids : c₁.ids = c.ids)
      (hcalls : c₁.calls = c.calls) (heq : call = .request purpose id frame slot state) :
      (c₁.withdraw k id fs).Owned := by
    subst heq
    refine ho.of_release hrequest rfl (by rw [← hids]; rfl) fun k' => ?_
    rw [call?_withdraw, call?, call?, hcalls]
  cases h with
  | sends hsends | requests hsends | requested hsends | leaves hsends | left hsends =>
    obtain ⟨t, rfl⟩ := hsends.client
    exact hgoes rfl rfl rfl
  | waits | comes => exact hgoes rfl rfl rfl
  | sent hsends =>
    obtain ⟨t, rfl⟩ := hsends.client
    exact hgone rfl rfl rfl
  | receives _ _ | exhausts _ _ _ | expires _ _ | shuts _ => exact hgone rfl rfl rfl
  | requestFails hsends =>
    obtain ⟨t, rfl⟩ := hsends.client
    rw [requestFails_eq]
    exact hwithdraw rfl rfl rfl
  | forgotten | cancelled _ =>
    rw [requestFails_eq]
    exact hwithdraw rfl rfl rfl
  | acknowledged =>
    obtain ⟨a, ha, -⟩ := requestReturns_eq (c := c) (l := l) (k := k) _ _ _
    rw [ha]
    exact hwithdraw rfl rfl rfl

/-- **Every event leaves packet ids to those who were given them.** -/
theorem Owned.next (h : c.Owned) (hhappens : Happens c l e n) : n.1.Owned := by
  cases hhappens with
  | begins _ hfresh hstarts => exact h.starts hstarts (call?_eq_none_iff.2 hfresh)
  | abandons => exact h.drops (drops_abandon _) rfl
  | moves hstep =>
    cases step_cases hstep with
    | opening hopens =>
      refine h.mono (fun id k hk => ?_) hopens.call?
      cases hopens <;> exact hk
    | reader _ hreads => exact h.reads hreads
    | keeper hkeeps => exact h.keeps hkeeps
    | call hcall hcalls => exact h.calls hcalls hcall
    | givesUp _ => exact h
  | _ => exact h

/-! ### The reading task -/

/-- The reading task has cancelled the token and closed the inbox, if it has ended. -/
def Closes (c : Client) : Prop :=
  c.reader = .over → c.cancelled = true ∧ c.inboxOpen = false

theorem closes_endReader : c.endReader.Closes := fun _ => ⟨rfl, rfl⟩

theorem closes_of_reading (h : c.reader = .reading) : c.Closes := by
  intro hover
  rw [h] at hover
  cases hover

theorem closes_of_answering {frame : Except Fault Bytes} {s : Sending} {p : Option Publish}
    (h : c.reader = .answering frame s p) : c.Closes := by
  intro hover
  rw [h] at hover
  cases hover

theorem closes_keep {p : Publish} : (c.keep p).Closes := by
  rw [keep]
  split_ifs
  · exact closes_of_reading rfl
  · exact closes_endReader
  · exact closes_of_reading rfl

theorem Handles.closes {p : Packet} (h : Handles c p c') : c'.Closes := by
  cases h with
  | acknowledges _ | releases => exact closes_of_answering rfl
  | keeps _ => exact closes_keep
  | disconnects => exact closes_endReader
  | completes _ | ignores _ => exact closes_of_reading rfl

theorem Reads.closes {m : Move} (h : Reads c l m n) : n.1.Closes := by
  cases h with
  | ceases _ _ | undecodable _ _ _ | answerFails _ _ => exact closes_endReader
  | reads hc _ _ => exact closes_of_reading hc
  | handles _ _ _ => exact (handles_handle _).closes
  | answers _ _ => exact closes_of_answering rfl
  | @answered _ _ p _ _ _ _ _ _ =>
    cases p with
    | none => exact closes_of_reading rfl
    | some p => exact closes_keep

theorem Keeps.inboxOpen {m : Move} (h : Keeps c l m n) : n.1.inboxOpen = c.inboxOpen := by
  cases h with
  | ceases _ _ | wakes _ _ => rfl
  | pings _ hsends | pinged _ hsends | pingFails _ hsends =>
    obtain ⟨t, rfl⟩ := hsends.client
    rfl

theorem Calls.inboxOpen {call : Call} {m : Move} (h : Calls c l k call m n) :
    n.1.inboxOpen = c.inboxOpen := by
  cases h with
  | sends hsends | requests hsends | requested hsends | leaves hsends | left hsends | sent hsends =>
    obtain ⟨t, rfl⟩ := hsends.client
    rfl
  | requestFails hsends =>
    obtain ⟨t, rfl⟩ := hsends.client
    rw [requestFails_eq]
    rfl
  | forgotten | cancelled _ =>
    rw [requestFails_eq]
    rfl
  | acknowledged =>
    obtain ⟨a, ha, -⟩ := requestReturns_eq (c := c) (l := l) (k := k) _ _ _
    rw [ha]
    rfl
  | _ => rfl

theorem Starts.inboxOpen {call : ClientCall} (h : Starts c k call c') :
    c'.inboxOpen = c.inboxOpen := by
  cases h with
  | subscribe =>
    rw [addFilters_eq]
    rfl
  | _ => rfl

theorem Drops.inboxOpen {call : Option Call} (h : Drops c k call c') :
    c'.inboxOpen = c.inboxOpen := by
  cases h <;> rfl

theorem Keeps.reader {m : Move} (h : Keeps c l m n) : n.1.reader = c.reader := by
  cases h with
  | ceases _ _ | wakes _ _ => rfl
  | pings _ hsends | pinged _ hsends | pingFails _ hsends =>
    obtain ⟨t, rfl⟩ := hsends.client
    rfl

/-- The session is being opened. -/
theorem Opens.stage {m : Move} (h : Opens c l m n) :
    (∃ left, c.stage = .connecting left) ∨ c.stage = .awaiting := by
  cases h with
  | connects hstage _ => exact .inl ⟨_, hstage⟩
  | fails hfails =>
    cases hfails with
    | broken hstage _ => exact .inl ⟨_, hstage⟩
    | cancelled hstage _ | ended hstage _ _ | malformed hstage _ => exact .inr hstage
  | reads hstage _ _ | unwelcome hstage _ _ | opens hstage _ _ => exact .inr hstage

/-- The session has been opened. -/
def WasOpened (c : Client) : Prop := c.stage = .running ∨ c.stage = .closed

/-- Once the session has been opened, the reading task ends in no other way. -/
theorem Happens.closes (h : Happens c l e n) (hopened : c.WasOpened) (hcloses : c.Closes) :
    n.1.WasOpened ∧ n.1.Closes := by
  have hsame {c' : Client} (hstage : c'.stage = c.stage) (hreader : c'.reader = c.reader)
      (hcancelled : c.cancelled = true → c'.cancelled = true)
      (hinbox : c'.inboxOpen = c.inboxOpen) : c'.WasOpened ∧ c'.Closes := by
    refine ⟨?_, fun hover => ?_⟩
    · rw [WasOpened, hstage]
      exact hopened
    · obtain ⟨hc, hclosed⟩ := hcloses (hreader.symm.trans hover)
      exact ⟨hcancelled hc, hinbox.trans hclosed⟩
  have hstays := h.stays.cancelled
  cases h with
  | begins _ _ hstarts =>
    obtain ⟨new, hbegun⟩ := hstarts.begun
    exact hsame hbegun.stage hbegun.reader hstays hstarts.inboxOpen
  | @abandons k =>
    have hdrops := drops_abandon (c := c) k
    have hmoved := hdrops.callMoved
    exact hsame hmoved.stage hmoved.reader hstays hdrops.inboxOpen
  | moves hstep =>
    cases step_cases hstep with
    | opening hopens =>
      -- The session has been opened, so nothing opens it.
      rcases hopened with hstage | hstage <;> rcases hopens.stage with ⟨left, h⟩ | h <;>
        · rw [hstage] at h
          cases h
    | reader hrunning hreads => exact ⟨.inl (hreads.stage.trans hrunning), hreads.closes⟩
    | keeper hkeeps => exact hsame hkeeps.stage hkeeps.reader hstays hkeeps.inboxOpen
    | call _ hcalls => exact hsame hcalls.stage hcalls.callMoved.reader hstays hcalls.inboxOpen
    | givesUp _ => exact ⟨.inr rfl, hcloses⟩
  | _ => exact hsame rfl rfl hstays rfl

/-- The reading task begins when the session is opened. -/
theorem Happens.opens (h : Happens c l e n) (ho : c.Orderly) (hbefore : c.stage ≠ .running)
    (hafter : n.1.stage = .running) : n.1.Closes := by
  cases h with
  | begins hrunning _ _ => exact absurd hrunning hbefore
  | abandons => exact absurd ((drops_abandon _).callMoved.stage.symm.trans hafter) hbefore
  | moves hstep =>
    cases step_cases hstep with
    | opening hopens =>
      cases hopens with
      | @connects left taken rest up _ _ =>
        dsimp only at hafter
        -- With the CONNECT written the client waits for its answer.
        split_ifs at hafter
      | fails _ | unwelcome _ _ _ => cases hafter
      | reads _ _ _ => exact absurd hafter hbefore
      | opens _ _ _ => exact closes_of_reading rfl
    | reader hrunning _ => exact absurd hrunning hbefore
    | keeper hkeeps => exact absurd (hkeeps.running ho) hbefore
    | call hcall _ => exact absurd (running_of_call ho hcall) hbefore
    | givesUp _ => cases hafter
  | _ => exact absurd hafter hbefore

/-! ### What can still be done -/

/-- Whoever sends can give up once the token is cancelled, wherever its frame is. -/
theorem exists_sendStep_giveUp (l : Link) (i : Party) (frame : Except Fault Bytes) (s : Sending)
    (hcancelled : c.cancelled = true) :
    ∃ c' l' f seen, c.sendStep l i frame s .giveUp = some (c', l', .inr (.error f), seen) := by
  rcases s with _ | _ | left <;> simp [sendStep, Outlet.step, Outlet.finish, hcancelled]

variable (hq : c.Quiescent l) (hcancelled : c.cancelled = true)

include hq hcancelled

theorem Quiescent.reader (hrunning : c.stage = .running) : c.reader = .over := by
  rcases hreader : c.reader with _ | ⟨frame, s, p⟩ | _
  · have hmove := hq (.party .reader .cancel)
    simp [step, hrunning, readerStep, hreader, hcancelled] at hmove
  · obtain ⟨c', l', f, seen, hsend⟩ :=
      exists_sendStep_giveUp l .reader frame s hcancelled
    have hmove := hq (.party .reader (.send .giveUp))
    simp [step, hrunning, readerStep, hreader, hsend] at hmove
  · rfl

theorem Quiescent.keeper : c.keeper = .over := by
  rcases hkeeper : c.keeper with wake | s | _
  · have hmove := hq (.party .keeper .cancel)
    simp [step, keeperStep, hkeeper, hcancelled] at hmove
  · obtain ⟨c', l', f, seen, hsend⟩ :=
      exists_sendStep_giveUp l .keeper (c.frameOf .pingReq) s hcancelled
    have hmove := hq (.party .keeper (.send .giveUp))
    simp [step, keeperStep, hkeeper, hsend] at hmove
  · rfl

/-- The only calls that cannot go are those in line for a message or in line to shut the stream. -/
theorem Quiescent.call {call : Call} (hcall : c.calls[k]? = some call) :
    (∃ deadline, call = .receive deadline true) ∨ ∃ r, call = .leaving r true := by
  have hsend (frame : Except Fault Bytes) (s : Sending) :=
    exists_sendStep_giveUp l (.call k) frame s hcancelled
  rcases call with ⟨frame, s⟩ | ⟨purpose, id, frame, slot, _ | s⟩ | ⟨deadline, _ | _⟩ |
    ⟨frame, s⟩ | ⟨r, _ | _⟩
  · obtain ⟨c', l', f, seen, hsend⟩ := hsend frame s
    have hmove := hq (.party (.call k) (.send .giveUp))
    simp [step, callStep, hcall, hsend] at hmove
  · have hmove := hq (.party (.call k) .cancel)
    simp [step, callStep, hcall, hcancelled] at hmove
  · obtain ⟨c', l', f, seen, hsend⟩ := hsend frame s
    have hmove := hq (.party (.call k) (.send .giveUp))
    simp [step, callStep, hcall, hsend] at hmove
  · have hmove := hq (.party (.call k) .enter)
    simp [step, callStep, hcall] at hmove
  · exact .inl ⟨deadline, rfl⟩
  · obtain ⟨c', l', f, seen, hsend⟩ := hsend frame s
    have hmove := hq (.party (.call k) (.send .giveUp))
    simp [step, callStep, hcall, hsend] at hmove
  · have hmove := hq (.party (.call k) .enter)
    simp [step, callStep, hcall] at hmove
  · exact .inr ⟨r, rfl⟩

/-- Whoever is inside, in front of the stream, can go. -/
theorem Quiescent.not_leaving (hl : c.Lined) (hrunning : c.stage = .running)
    {r : Except Fault Unit} :
    c.calls[k]? ≠ some (.leaving r true) := by
  intro hcall
  obtain ⟨i, hinside, hi⟩ := hl.gate.exists_inside (stands_call hcall)
  rw [gate_of_running hrunning] at hinside
  cases i with
  | reader =>
    rw [stands_reader hrunning, hq.reader hcancelled hrunning] at hi
    cases hi
  | keeper =>
    rw [stands_keeper, hq.keeper hcancelled] at hi
    cases hi
  | call k' =>
    rcases hcall' : c.calls[k']? with _ | call
    · rw [stands_of_call?_eq_none (call?_eq_none_iff.2 hcall')] at hi
      cases hi
    · rcases hq.call hcancelled hcall' with ⟨deadline, rfl⟩ | ⟨r', rfl⟩
      · rw [stands_call hcall'] at hi
        cases hi
      · have hmove := hq (.party (.call k') .shut)
        simp [step, callStep, hcall', Turnstile.holds, hinside] at hmove

omit hcancelled in
/-- Whoever is inside, in front of the inbox, can go once no more messages come. -/
theorem Quiescent.not_receiving (hl : c.Lined) (hclosed : c.inboxOpen = false)
    {deadline : Option Nat} {entered : Bool} : c.calls[k]? ≠ some (.receive deadline entered) := by
  intro hcall
  cases entered with
  | false =>
    -- It could come to the line.
    have hmove := hq (.party (.call k) .enter)
    simp [step, callStep, hcall] at hmove
  | true =>
    obtain ⟨k', hinside, hk'⟩ := hl.receivers.exists_inside (listens_eq hcall)
    rcases hcall' : c.calls[k']? with _ | call
    · rw [listens_of_call?_eq_none (call?_eq_none_iff.2 hcall')] at hk'
      cases hk'
    rw [listens_eq hcall'] at hk'
    rcases call with _ | _ | ⟨deadline', _ | _⟩ | _ | _ <;> cases hk'
    -- Whoever is inside takes a message, or learns that there will be none.
    have hmove := hq (.party (.call k') .take)
    rcases hinbox : c.inbox with _ | ⟨m, rest⟩ <;>
      simp [step, callStep, hcall', Turnstile.holds, hinside, hinbox, hclosed] at hmove

/-- No call is left. -/
theorem Quiescent.calls (hl : c.Lined) (hcloses : c.Closes) (hrunning : c.stage = .running)
    (k : Nat) :
    c.call? k = none := by
  rcases hcall : c.calls[k]? with _ | call
  · exact call?_eq_none_iff.2 hcall
  · obtain ⟨-, hclosed⟩ := hcloses (hq.reader hcancelled hrunning)
    rcases hq.call hcancelled hcall with ⟨deadline, rfl⟩ | ⟨r, rfl⟩
    · exact absurd hcall (hq.not_receiving hl hclosed)
    · exact absurd hcall (hq.not_leaving hcancelled hl hrunning)

omit hq hcancelled

/-! ### Every run -/

/-- What every run keeps of a client, from its beginning on. -/
structure Kept (c : Client) : Prop where
  wired : c.Wired
  lined : c.Lined
  owned : c.Owned
  closes : c.stage = .running → c.Closes

theorem Begins.kept (h : Begins c l) : c.Kept where
  wired := h.wired
  lined := h.lined
  owned := by
    cases h with
    | intro hconnect =>
      obtain ⟨bs, -, rfl⟩ := connect_eq_ok hconnect
      intro id k hk
      simp [fresh, PacketIds.empty] at hk
  closes := by
    cases h with
    | intro hconnect =>
      obtain ⟨bs, -, rfl⟩ := connect_eq_ok hconnect
      intro hrunning
      cases hrunning

theorem Kept.next (h : c.Kept) (hevent : c.event? l e = some n) : n.1.Kept := by
  have hhappens := happens_of_event? hevent
  refine ⟨h.wired.next hevent, h.lined.next h.wired.orderly hhappens, h.owned.next hhappens,
    fun hafter => ?_⟩
  by_cases hrunning : c.stage = .running
  · exact (hhappens.closes (.inl hrunning) (h.closes hrunning)).2
  · exact hhappens.opens h.wired.orderly hrunning hafter

theorem kept_of_replay {es : List Event} (hk : c.Kept)
    (h : c.replay l es = some (c₁, l₁, seen)) : c₁.Kept :=
  replay_invariant (P := fun c _ => c.Kept) (fun _ _ _ _ hevent hk => hk.next hevent) hk h

theorem closes_of_replay {es : List Event} (hopened : c.WasOpened) (hcloses : c.Closes)
    (h : c.replay l es = some (c₁, l₁, seen)) : c₁.WasOpened ∧ c₁.Closes :=
  replay_invariant (P := fun c _ => c.WasOpened ∧ c.Closes)
    (fun _ _ _ _ hevent hk => (happens_of_event? hevent).closes hk.1 hk.2) ⟨hopened, hcloses⟩ h

/-- **A client that has ended has ended altogether when nothing can move any more.** From the moment
on at which the token of a client whose session is open is cancelled, or its reading task has ended,
whatever happens: in every state in which nothing can move, the client is not running, both tasks
have ended, no call is outstanding, whether it began before or after, and no packet id is taken. -/
theorem ended_of_quiescent (hb : Begins c l) (h₁ : c.replay l es₁ = some (c₁, l₁, seen₁))
    (hopen : c₁.isOpen = true) (hend : c₁.cancelled = true ∨ c₁.reader = .over)
    (h₂ : c₁.replay l₁ es₂ = some (c₂, l₂, seen₂)) (hquiescent : c₂.Quiescent l₂) : c₂.Ended := by
  have hrunning := isOpen_iff.1 hopen
  have hkept₁ := kept_of_replay hb.kept h₁
  have hkept₂ := kept_of_replay hkept₁ h₂
  have hcancelled : c₂.cancelled = true :=
    (stays_of_replay h₂).cancelled (hend.elim id fun hover => (hkept₁.closes hrunning hover).1)
  obtain ⟨hopened, hcloses⟩ := closes_of_replay (.inl hrunning) (hkept₁.closes hrunning) h₂
  -- The stream may have been given up by now, but then nothing was left before.
  obtain ⟨hreader, hkeeper, hcalls⟩ :
      c₂.reader = .over ∧ c₂.keeper = .over ∧ ∀ k, c₂.call? k = none := by
    rcases hopened with hrunning₂ | hclosed
    · exact ⟨hquiescent.reader hcancelled hrunning₂, hquiescent.keeper hcancelled,
        hquiescent.calls hcancelled hkept₂.lined hcloses hrunning₂⟩
    · have hne : c₂.stage ≠ .running := by
        rw [hclosed]
        nofun
      have ho := hkept₂.wired.orderly
      exact ⟨ho.reader hne, ho.keeper hne, ho.calls hne⟩
  refine ⟨by rw [isRunning, hcancelled]; rfl, hreader, hkeeper, ?_, ?_⟩
  · refine Std.TreeMap.isEmpty_iff_forall_not_mem.2 fun k hk => ?_
    rw [Std.TreeMap.mem_iff_isSome_getElem?, Option.map_eq_none_iff.1 (hcalls k)] at hk
    cases hk
  · refine Std.TreeMap.isEmpty_iff_forall_not_mem.2 fun id hid => ?_
    rw [Std.TreeMap.mem_iff_isSome_getElem?] at hid
    -- Every id belongs to a request, and no call is left.
    obtain ⟨k, hk⟩ := Option.isSome_iff_exists.1 hid
    obtain ⟨r, hr, -⟩ := hkept₂.owned id k hk
    rw [request?, hcalls k] at hr
    cases hr

/-- Every move that there is. -/
def allMoves : List Move :=
  [.receive, .dispatch, .cancel, .send .enter, .send .layOut, .send .push, .send .giveUp, .wake,
    .take, .expire, .enter, .shut]

theorem mem_allMoves (m : Move) : m ∈ allMoves := by
  cases m with
  | send m => cases m <;> decide
  | _ => decide

/-- Only the tasks and the calls that are there can move. -/
theorem quiescent_iff : c.Quiescent l ↔
    (∀ m ∈ allMoves, (c.step l (.party .reader m)).isNone = true ∧
      (c.step l (.party .keeper m)).isNone = true) ∧
    (∀ k ∈ c.calls.keys, ∀ m ∈ allMoves, (c.callStep l k m).isNone = true) ∧
    (c.step l .giveUp).isNone = true := by
  simp only [Option.isNone_iff_eq_none]
  constructor
  · intro h
    exact ⟨fun m _ => ⟨h _, h _⟩, fun k _ m _ => h (.party (.call k) m), h _⟩
  · rintro ⟨htasks, hcalls, hgiveUp⟩ a
    rcases a with ⟨_ | _ | k, m⟩ | _
    · exact (htasks m (mem_allMoves m)).1
    · exact (htasks m (mem_allMoves m)).2
    · by_cases hk : k ∈ c.calls
      · exact hcalls k (Std.TreeMap.mem_keys.2 hk) m (mem_allMoves m)
      · show c.callStep l k m = none
        rw [callStep, Std.TreeMap.getElem?_eq_none hk]
        rfl
    · exact hgiveUp

instance : Decidable (c.Quiescent l) := decidable_of_iff _ quiescent_iff.symm

/-- A client whose broker does not read any more waits for everything that there is to wait for: an
acknowledgement, a message, room in the stream, and the line in front of it. -/
def waiting : List Event :=
  let sends (k : Nat) (ms : List SendMove) : List Event :=
    ms.map fun m => .move (.party (.call k) (.send m))
  [.move (.party .reader (.send .push)), .input (.peerWrites [0x20, 2, 0, 0]),
    .move (.party .reader .receive), .move (.party .reader .dispatch),
    .input (.calls 0 (.subscribe [⟨"t", .atMostOnce⟩]))] ++ sends 0 [.enter, .layOut, .push] ++
    [.input (.calls 1 (.receive none)), .move (.party (.call 1) .enter),
      .input (.calls 2 (.receive (some 10))), .move (.party (.call 2) .enter),
      .input (.calls 3 (.publish "t" [1, 2, 3, 4, 5, 6, 7, 8] false))] ++
    sends 3 [.enter, .layOut, .push] ++ [.input (.calls 4 .disconnect)] ++ sends 4 [.enter]

/-- The token is cancelled, a call begins after that, and everybody goes. -/
def leaving : List Event :=
  let moves (k : Nat) (ms : List Move) : List Event := ms.map fun m => .move (.party (.call k) m)
  [.move (.party .reader .cancel), .move (.party .keeper .cancel),
    .input (.calls 5 (.publishAcknowledged "t" []))] ++ moves 0 [.cancel] ++ moves 1 [.take] ++
    moves 2 [.take] ++ moves 3 [.send .giveUp] ++ moves 4 [.send .giveUp, .enter, .shut] ++
    moves 5 [.send .giveUp]

/-- Five calls were outstanding, a sixth one has come, and none is left. -/
theorem ended_waiting : ∃ c l c₁ l₁ seen₁ c₂ l₂ seen₂, Begins c l ∧
    c.replay l (waiting ++ [.input .cancels]) = some (c₁, l₁, seen₁) ∧ c₁.isOpen = true ∧
    c₁.cancelled = true ∧ c₁.calls.keys = [0, 1, 2, 3, 4] ∧
    c₁.replay l₁ leaving = some (c₂, l₂, seen₂) ∧ c₂.Quiescent l₂ ∧ c₂.Ended := by
  have hend : (connect (.ofAddr "" "c") 0).toOption.bind (fun c =>
      (c.replay ⟨.empty 32, .empty 32⟩ (waiting ++ [.input .cancels])).bind fun n₁ =>
        (n₁.1.replay n₁.2.1 leaving).map fun n₂ =>
          (decide (n₁.1.isOpen = true ∧ n₁.1.cancelled = true ∧ n₁.1.calls.keys = [0, 1, 2, 3, 4]),
            decide (n₂.1.Quiescent n₂.2.1))) = some (true, true) := by
    decide +kernel
  obtain ⟨c, hconnect, hend⟩ := Option.bind_eq_some_iff.1 hend
  obtain ⟨⟨c₁, l₁, seen₁⟩, h₁, hend⟩ := Option.bind_eq_some_iff.1 hend
  obtain ⟨⟨c₂, l₂, seen₂⟩, h₂, hend⟩ := Option.map_eq_some_iff.1 hend
  simp only [Prod.mk.injEq, decide_eq_true_eq] at hend
  obtain ⟨⟨hopen, hcancelled, hcalls⟩, hquiescent⟩ := hend
  have hb : Begins c ⟨.empty 32, .empty 32⟩ := begins_of_toOption hconnect
  exact ⟨c, _, c₁, l₁, seen₁, c₂, l₂, seen₂, hb, h₁, hopen, hcancelled, hcalls, h₂, hquiescent,
    ended_of_quiescent hb h₁ hopen (.inl hcancelled) h₂ hquiescent⟩

end Client
end Mqtt
