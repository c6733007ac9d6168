import Mqtt.Proofs.Client.Journal
import Mqtt.Proofs.Client.Requests
/-!
# One packet after the other

A party of a client has one packet to send at a time: it writes the frame of that to the end, or
finds that the packet cannot be encoded, or goes away, before it begins with the next one
(`InTurn`). The journal of every run says so of every party (`turns_of_replay`). So no frame is
written that no packet was begun for, and no packet makes two frames.

The argument is that a frame comes with the packet that is noted and no other way (`Happens.turns`),
said for each kind of move.
-/

namespace Mqtt
namespace Client

variable {c c' c₁ c₂ : Client} {l l' l₁ l₂ : Link} {e : Event} {es : List Event} {i : Party}
  {k : Nat} {n : Next} {seen : List ClientObservation} {log : List ClientDeed} {v : Version}

/-- What a party does to send its packets, one after the other, and the packet that it is sending at
the end. -/
inductive InTurn (v : Version) (i : Party) : List ClientDeed → Option Packet → Prop
  | nil : InTurn v i [] none
  | begins {log : List ClientDeed} {p : Packet} : InTurn v i log none →
    InTurn v i (log ++ [.begins i p]) (some p)
  /-- What is written is the whole encoding of the packet. -/
  | completes {log : List ClientDeed} {p : Packet} {bs : Bytes} : InTurn v i log (some p) →
    p.toBytes v = .ok bs → InTurn v i (log ++ [.completes i bs]) none
  | fails {log : List ClientDeed} {p : Packet} {f : Fault} : InTurn v i log (some p) →
    p.toBytes v = .error f → InTurn v i (log ++ [.fails i f]) none
  | quits {log : List ClientDeed} {p : Packet} : InTurn v i log (some p) →
    InTurn v i (log ++ [.quits i]) none

/-- **Every packet that is begun makes one frame**, in this order, where none is left and every one
can be encoded. -/
theorem InTurn.written {o : Option Packet} (h : InTurn v i log o) (hquits : .quits i ∉ log)
    (hfails : ∀ f, .fails i f ∉ log) :
    (begunOf log).map (Packet.toBytes v) =
      (framesOf log).map .ok ++ (o.map (Packet.toBytes v)).toList := by
  induction h with
  | nil => rfl
  | begins _ ih =>
    have := ih (fun h => hquits (List.mem_append_left _ h))
      fun f h => hfails f (List.mem_append_left _ h)
    rw [begunOf_append, framesOf_append, List.map_append, List.map_append, this]
    simp [begunOf, framesOf, ClientDeed.begun?, ClientDeed.frame?]
  | completes _ hbytes ih =>
    have := ih (fun h => hquits (List.mem_append_left _ h))
      fun f h => hfails f (List.mem_append_left _ h)
    rw [begunOf_append, framesOf_append, List.map_append, List.map_append, this]
    simp [begunOf, framesOf, ClientDeed.begun?, ClientDeed.frame?, hbytes]
  | fails _ _ _ => exact absurd (List.mem_append_right _ List.mem_cons_self) (hfails _)
  | quits _ _ => exact absurd (List.mem_append_right _ List.mem_cons_self) hquits

/-- The packet that is being sent was begun. -/
theorem InTurn.begins_mem {p : Packet} (h : InTurn v i log (some p)) : .begins i p ∈ log := by
  cases h with
  | begins _ => exact List.mem_append_right _ List.mem_cons_self

/-- A frame that is written, or cannot be, is that of a packet that was begun. -/
theorem InTurn.exists_of_mem {o : Option Packet} {d : ClientDeed} {r : Except Fault Bytes}
    (h : InTurn v i log o) (hd : d ∈ log) (hr : d.result? = some r) :
    ∃ p, .begins i p ∈ log ∧ p.toBytes v = r := by
  have hmore {log : List ClientDeed} {last : ClientDeed}
      (h : ∃ p, .begins i p ∈ log ∧ p.toBytes v = r) :
      ∃ p, .begins i p ∈ log ++ [last] ∧ p.toBytes v = r :=
    h.imp fun p => And.imp_left (List.mem_append_left _)
  induction h with
  | nil => cases hd
  | begins _ ih | quits _ ih =>
    rcases List.mem_append.1 hd with hd | hd
    · exact hmore (ih hd)
    · cases List.mem_singleton.1 hd
      cases hr
  | completes h hbytes ih | fails h hbytes ih =>
    rcases List.mem_append.1 hd with hd | hd
    · exact hmore (ih hd)
    · cases List.mem_singleton.1 hd
      cases hr
      exact ⟨_, List.mem_append_left _ h.begins_mem, hbytes⟩

/-! ### What an event does to a frame -/

/-- How an event finds and leaves the frame of the one who acts. -/
inductive Turns (c : Client) (e : Event) (c' : Client) : Prop
  /-- A packet is begun. -/
  | begins {p : Packet} : c.begun? e c' = some p → c.sending? e.actor = none →
    c'.sending? e.actor = some (c.frameOf p, .starting) → Turns c e c'
  /-- There is no frame but the one that was there before. -/
  | goesOn : c.begun? e c' = none → (∀ frame s', c'.sending? e.actor = some (frame, s') →
    ∃ s, c.sending? e.actor = some (frame, s)) → Turns c e c'

theorem Turns.of_none (hbegun : c.begun? e c' = none) (h : c'.sending? e.actor = none) :
    Turns c e c' :=
  .goesOn hbegun fun frame s' hs => by
    rw [h] at hs
    cases hs

theorem Turns.of_same (hbegun : c.begun? e c' = none)
    (h : c'.sending? e.actor = c.sending? e.actor) : Turns c e c' :=
  .goesOn hbegun fun _ s' hs => ⟨s', h ▸ hs⟩

theorem Starts.turns {call : ClientCall} (h : Starts c k call c') (hfresh : c.calls[k]? = none) :
    Turns c (.input (.calls k call)) c' := by
  have hbefore := sending?_of_call?_eq_none (call?_eq_none_iff.2 hfresh)
  -- What is noted is the packet that the call has begun with.
  have hbegins {c₁ : Client} {new : Call} {p : Packet} (hcalls : c'.calls = c₁.calls.insert k new)
      (hp : call.packet? ((new.request?.map Request.id).getD 0) = some p)
      (hnew : new.sending? = some (c.frameOf p, .starting)) :
      Turns c (.input (.calls k call)) c' := by
    have hrequest : c'.request? k = new.request? := by
      rw [request?_of_insert hcalls rfl, Function.update_self]
    refine .begins ?_ hbefore (sending?_of_insert hcalls hnew)
    show (if c'.calls.contains k then
      call.packet? (((c'.request? k).map Request.id).getD 0) else none) = _
    rw [hrequest, hcalls, Std.TreeMap.contains_insert_self, if_pos rfl, hp]
  cases h with
  | publish _ | ping | disconnect | publishAcknowledged _ _ | unsubscribe _ _ =>
    exact hbegins rfl rfl rfl
  | @subscribe wanted id ids _ _ _ =>
    refine hbegins rfl rfl ?_
    rw [addFilters_eq]
    rfl
  | receive =>
    refine .of_none ?_ (sending?_of_insert rfl rfl)
    show (if _ then none else none) = none
    split_ifs <;> rfl

theorem Opens.turns {m : Move} (h : Opens c l m n) (ho : c.Orderly) :
    Turns c (.move (.party .reader m)) n.1 := by
  -- A packet is taken only once the session is open.
  have hbegun {c' : Client} (hstage : c.stage ≠ .running) :
      c.begun? (.move (.party .reader m)) c' = none := by
    unfold begun?
    split
    · next heq => cases heq
    · rw [packet?_of_not_running hstage]
      rfl
    · next heq => cases heq
    · rfl
  have hnone {c' : Client} (hstage : c.stage ≠ .running) (hreader : c'.reader = c.reader)
      (hstage' : ∀ left, c'.stage ≠ .connecting left) :
      Turns c (.move (.party .reader m)) c' :=
    .of_none (hbegun hstage) (sending?_reader_of_over (hreader.trans (ho.reader hstage)) hstage')
  cases h with
  | @connects left taken rest up hstage hw =>
    have hne : c.stage ≠ .running := by simp [hstage]
    by_cases hrest : rest = []
    · subst hrest
      exact hnone hne rfl (by simp)
    · have hempty : rest.isEmpty = false := by simpa using hrest
      refine .goesOn (hbegun hne) fun frame s' hs => ⟨.pushing left, ?_⟩
      -- It is still at the CONNECT, with less of it left.
      simp only [Event.actor, Action.actor, sending?, hempty, frameOf] at hs
      cases hs
      simp only [Event.actor, Action.actor, sending?, hstage]
      rfl
  | fails hfails =>
    cases hfails with
    | broken hstage _ | cancelled hstage _ | ended hstage _ _ | malformed hstage _ =>
      exact hnone (by simp [hstage]) rfl (by simp [fail])
  | reads hstage _ _ => exact hnone (by simp [hstage]) rfl (by simp [takeBytes, hstage])
  | unwelcome hstage _ _ => exact hnone (by simp [hstage]) rfl (by simp [fail])
  | opens hstage _ _ =>
    exact .of_none (hbegun (by simp [hstage])) (sending?_reader_of_running rfl)

/-- The reading task answers just the packets that ask for an answer. -/
theorem Handles.turns {p : Packet} (h : Handles c p c') (hrunning : c.stage = .running) :
    c'.sending? .reader = p.receipt?.map fun ack => (c.frameOf ack, .starting) := by
  rw [sending?_reader_of_running (h.moved.stage.trans hrunning)]
  cases h with
  | acknowledges hack =>
    rw [hack.receipt?_eq]
    rfl
  | @keeps p hack =>
    rw [Packet.receipt?_publish_eq_none hack]
    have hreader : (c.keep p).reader = .reading ∨ (c.keep p).reader = .over := reader_keep
    rcases hreader with hreader | hreader <;> rw [hreader] <;> rfl
  | releases => rfl
  | completes hanswers => cases hanswers <;> rfl
  | disconnects => rfl
  | @ignores p hkind =>
    cases p with
    | publish _ | pubRel _ => simp [Packet.kind] at hkind
    | _ => rfl

theorem Reads.turns {m : Move} (h : Reads c l m n) (hrunning : c.stage = .running) :
    Turns c (.move (.party .reader m)) n.1 := by
  have hbegun {c' : Client} (hm : m ≠ .dispatch ∨ c.packet? = none) :
      c.begun? (.move (.party .reader m)) c' = none := by
    rcases hm with hm | hm
    · cases m with
      | dispatch => exact absurd rfl hm
      | _ => rfl
    · cases m with
      | dispatch => exact (congrArg (Option.bind · _) hm).trans rfl
      | _ => rfl
  have hnone {c' : Client} (hm : m ≠ .dispatch ∨ c.packet? = none)
      (hstage : c'.stage = c.stage) (hreader : c'.reader = .reading ∨ c'.reader = .over) :
      Turns c (.move (.party .reader m)) c' := by
    exact .of_none (hbegun hm) (sending?_reader_eq_none (hstage.trans hrunning) hreader)
  cases h with
  | ceases hc hceases =>
    cases hceases with
    | cancelled _ | ended _ _ => exact hnone (.inl nofun) rfl (.inr rfl)
    | malformed hnext => exact hnone (.inr (packet?_of_malformed hnext)) rfl (.inr rfl)
  | reads hc _ _ => exact hnone (.inl nofun) rfl (.inl hc)
  | undecodable hc hnext hdecode =>
    refine hnone (.inr ?_) rfl (.inr rfl)
    rw [packet?_of_reading hrunning hc hnext, hdecode]
    rfl
  | @handles f a p hc hnext hdecode =>
    have hhandles : Handles (c.takeFrame a) p _ := handles_handle p
    have hafter := hhandles.turns hrunning
    have hbegun : c.begun? (.move (.party .reader .dispatch)) ((c.takeFrame a).handle p) =
        p.receipt? := by
      show c.packet?.bind _ = _
      rw [packet?_of_reading hrunning hc hnext, hdecode]
      rfl
    -- A packet that asks for an answer has one begun in the same move.
    rcases hreceipt : p.receipt? with _ | ack
    · rw [hreceipt] at hafter hbegun
      exact .of_none hbegun hafter
    · rw [hreceipt] at hafter hbegun
      refine .begins hbegun ?_ hafter
      exact sending?_reader_eq_none hrunning (.inl hc)
  | @answers frame s s' p m _ _ _ hc hsends =>
    obtain ⟨t, rfl⟩ := hsends.client
    refine .goesOn (hbegun (.inl nofun)) fun frame' s'' hs => ⟨s, ?_⟩
    -- It stays with its answer, and moves on with it.
    have hafter := sending?_of_answering
      (c := { c with turnstile := t, reader := .answering frame s' p })
      hrunning rfl
    cases hafter.symm.trans hs
    exact sending?_of_answering hrunning hc
  | answerFails hc hsends =>
    obtain ⟨t, rfl⟩ := hsends.client
    exact hnone (.inl nofun) rfl (.inr rfl)
  | answered hc hsends =>
    obtain ⟨t, rfl⟩ := hsends.client
    exact hnone (.inl nofun) readerMoved_afterAnswer.stage reader_afterAnswer

theorem Keeps.turns {m : Move} (h : Keeps c l m n) : Turns c (.move (.party .keeper m)) n.1 := by
  cases h with
  | ceases _ _ => exact .of_none rfl rfl
  | wakes hc _ =>
    refine .begins rfl ?_ (sending?_of_pinging rfl)
    simp only [Event.actor, Action.actor, sending?, hc]
  | @pings s s' m _ _ _ hc hsends =>
    obtain ⟨t, rfl⟩ := hsends.client
    refine .goesOn rfl fun frame s'' hs => ⟨s, ?_⟩
    cases hs
    exact sending?_of_pinging hc
  | @pinged s m c₁ _ _ hc hsends =>
    refine .of_none rfl ?_
    show ({ c₁ with keeper := c₁.nextPing } : Client).sending? .keeper = none
    rw [sending?, nextPing]
    rcases pingInterval c₁.config with _ | _ <;> rfl
  | pingFails _ _ => exact .of_none rfl rfl

theorem Calls.turns {call : Call} {m : Move} (h : Calls c l k call m n)
    (hcall : c.calls[k]? = some call) : Turns c (.move (.party (.call k) m)) n.1 := by
  rcases h.own with hnone | ⟨call', hcall', hgoes⟩
  · exact .of_none rfl (sending?_of_call?_eq_none hnone)
  · refine .goesOn rfl fun frame s' hs => ?_
    replace hs : (n.1.call? k).bind Call.sending? = some (frame, s') := hs
    rw [hcall', Option.bind_some, Call.sending?_bare] at hs
    show ∃ s, c.sending? (.call k) = _
    rw [sending?_call_eq hcall]
    generalize streamOf n.2.2 = bs at hgoes
    cases hgoes with
    | sends _ | requests _ | leaves _ =>
      cases hs
      exact ⟨_, rfl⟩
    | _ => cases hs

/-- **A frame comes with the packet that is noted**, and no other way. -/
theorem Happens.turns (h : Happens c l e n) (ho : c.Orderly) : Turns c e n.1 := by
  cases h with
  | begins _ hfresh hstarts => exact hstarts.turns hfresh
  | @refuses k call a _ hfresh _ =>
    refine .of_same ?_ rfl
    show (if c.calls.contains k then _ else none) = none
    rw [Std.TreeMap.contains_eq_isSome_getElem?, hfresh]
    rfl
  | @abandons k =>
    have hnone := (drops_abandon (c := c) k).call?_eq_none
    exact .of_none rfl (sending?_of_call?_eq_none hnone)
  | moves hstep =>
    cases step_cases hstep with
    | opening hopens => exact hopens.turns ho
    | reader hrunning hreads => exact hreads.turns hrunning
    | keeper hkeeps => exact hkeeps.turns
    | call hcall hcalls => exact hcalls.turns hcall
    | givesUp hforsaken =>
      obtain ⟨-, -, hreader, -⟩ := of_isForsaken hforsaken
      have hover : ({ c with stage := .closed } : Client).reader = .over := hreader
      exact .of_none rfl (sending?_reader_of_over hover nofun)
  | _ => exact .of_same rfl rfl

/-! ### Every run -/

/-- What an event does to the frame of the one who acts is noted in turn. -/
theorem Turns.inTurn {o : Option Packet} (h : Turns c e n.1) (hv : c.config.version = v)
    (hturn : InTurn v e.actor log o)
    (ho : (c.sending? e.actor).map Prod.fst = o.map (Packet.toBytes v)) :
    ∃ o, InTurn v e.actor (log ++ (c.beginnings e n.1 ++ c.endings e n)) o ∧
      (n.1.sending? e.actor).map Prod.fst = o.map (Packet.toBytes v) := by
  cases h with
  | @begins p hbegun hbefore hafter =>
    rw [hbefore] at ho
    obtain rfl := Option.map_eq_none_iff.1 ho.symm
    refine ⟨some p, ?_, ?_⟩
    · rw [endings_eq_nil (.inl hbefore), List.append_nil, beginnings, hbegun]
      exact .begins hturn
    · rw [hafter, ← hv]
      rfl
  | goesOn hbegun hgoes =>
    rw [beginnings, hbegun]
    rcases hafter : n.1.sending? e.actor with _ | ⟨frame, s'⟩
    · refine ⟨none, ?_, rfl⟩
      rcases hbefore : c.sending? e.actor with _ | ⟨frame, s⟩
      · rw [hbefore] at ho
        obtain rfl := Option.map_eq_none_iff.1 ho.symm
        rw [endings_eq_nil (.inl hbefore)]
        simpa using hturn
      · -- The frame is that of the packet begun last, and its sending is over.
        rw [hbefore] at ho
        obtain ⟨p, rfl, hp⟩ := Option.map_eq_some_iff.1 ho.symm
        obtain ⟨d, hd, hends⟩ := endings_of_none hbefore hafter
        rw [hd]
        cases hends with
        | completes _ => exact .completes hturn hp
        | fails _ => exact .fails hturn hp
        | quits => exact .quits hturn
    · obtain ⟨s, hbefore⟩ := hgoes frame s' hafter
      refine ⟨o, ?_, ?_⟩
      · rw [endings_eq_nil (.inr ⟨_, hafter⟩)]
        simpa using hturn
      · rw [← ho, hbefore]
        rfl

/-- **The journal of a run**: every party sends its packets in turn, and the frame that it is
sending is that of the packet begun last. -/
theorem turns_of_replay (hb : Begins c l) (h : c.replay l es = some (c', l', seen)) (i : Party) :
    ∃ o, InTurn c.config.version i (doings i (c.journal l es)) o ∧
      (c'.sending? i).map Prod.fst = o.map (Packet.toBytes c.config.version) := by
  revert i
  refine replay_induction (P := fun es c' _ _ => ∀ i, ∃ o,
    InTurn c.config.version i (doings i (c.journal l es)) o ∧
      (c'.sending? i).map Prod.fst = o.map (Packet.toBytes c.config.version)) ?_ ?_ h
  · cases hb with
    | @intro config now _ _ _ hconnect =>
      obtain ⟨bs, hbytes, rfl⟩ := connect_eq_ok hconnect
      intro i
      have hsending : (fresh config bs now).sending? i = _ := sending_fresh hbytes
      rw [hsending, doings_journal_nil]
      split_ifs with hi
      · subst hi
        exact ⟨some (.connect config.connect), .begins .nil, congrArg some hbytes.symm⟩
      · exact ⟨none, .nil, rfl⟩
  intro es e c₁ l₁ seen₁ c₂ l₂ more hrun hevent ih i
  have hhappens := happens_of_event? hevent
  have ho := (wired_of_replay hb.wired hrun).orderly
  have hconfig : c₁.config = c.config := (stays_of_replay hrun).config
  obtain ⟨o, hturn, ho'⟩ := ih i
  rw [journal_concat hrun hevent, doings_append, doings_deeds]
  by_cases hi : i = e.actor
  · subst hi
    rw [if_pos rfl]
    exact (hhappens.turns ho).inTurn (n := (c₂, l₂, more)) (congrArg _ hconfig) hturn ho'
  · -- Who does not act has its frame as before, and nothing is noted of it.
    obtain ⟨lm, hlane, -⟩ := hhappens.lane ho
    have hsame : c₂.sending? i = c₁.sending? i := hlane.others i hi
    rw [if_neg hi, List.append_nil, hsame]
    exact ⟨o, hturn, ho'⟩

end Client
end Mqtt
