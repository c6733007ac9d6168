import Mqtt.Proofs.Client.Lane
import Mqtt.Proofs.Packet.Filters
/-!
# The requests of a client

What one move does to the requests under way and to the active filters (`Deals`), and which packet
stands behind each frame that is being sent (`Speaks`). What becomes of the filters when a call
begins or returns is kept in notes (`Note`): a filter is active exactly if the last note on it says
so (`Note.active_iff`).
-/

namespace Mqtt

/-- What becomes of filters when a call begins or returns. -/
inductive Note where
  /-- A call of subscribe has begun with these filters. -/
  | takes (filters : List String)
  /-- These filters have been made inactive. -/
  | gives (filters : List String)
  /-- A call of unsubscribe with these filters has failed. -/
  | fails (filters : List String)
deriving DecidableEq

/-- Whether a filter is active after a note, by whether it was before. -/
def Note.settle (f : String) (active : Bool) : Note → Bool
  | takes filters => active || filters.contains f
  | gives filters => active && !filters.contains f
  | fails _ => active

/-- Whether a filter is active after these notes. -/
def Note.active (f : String) (notes : List Note) : Bool := notes.foldl (Note.settle f) false

theorem Note.active_append {f : String} (notes more : List Note) :
    active f (notes ++ more) = more.foldl (settle f) (active f notes) :=
  List.foldl_append

/-- The note is of a filter that becomes active, or is so already. -/
def Note.Takes (f : String) (n : Note) : Prop := ∃ filters, n = .takes filters ∧ f ∈ filters

/-- The note is of a filter that is made inactive. -/
def Note.Gives (f : String) (n : Note) : Prop := ∃ filters, n = .gives filters ∧ f ∈ filters

theorem Note.settle_iff {f : String} {active : Bool} {n : Note} :
    settle f active n = true ↔ n.Takes f ∨ active = true ∧ ¬n.Gives f := by
  cases n <;> simp [settle, Takes, Gives, or_comm]

/-- **A filter is active if a subscribe has begun with it**, and nothing has made it inactive
since. -/
theorem Note.active_iff {f : String} {notes : List Note} : active f notes = true ↔
    ∃ before n after, notes = before ++ n :: after ∧ n.Takes f ∧ ∀ m ∈ after, ¬m.Gives f := by
  have hfold : notes.foldl (settle f) false = true ↔ _ :=
    foldl_eq_true_iff fun _ n => settle_iff (f := f) (n := n)
  rw [active, hfold]
  simp

/-- What the end of a request comes to. -/
def Purpose.notes : Purpose → CallAnswer → List Note
  | .unsubscribe gone, .failed _ => [.fails gone]
  | purpose, a => [.gives (purpose.gives a)]

/-- The packet of a request. -/
def Purpose.Says (id : UInt16) : Purpose → Packet → Prop
  | .publish, p => ∃ m, p = .publish m
  | .subscribe wanted _, p =>
    p = .subscribe id wanted ∧ ∀ w ∈ wanted, Topic.validateFilter w.filter = .ok ()
  | .unsubscribe gone, p => p = .unsubscribe id gone

theorem Purpose.eq_unsubscribe {id id' : UInt16} {purpose : Purpose} {gone : List String}
    (h : purpose.Says id (.unsubscribe id' gone)) : purpose = .unsubscribe gone := by
  cases purpose with
  | publish =>
    obtain ⟨m, hm⟩ := h
    cases hm
  | subscribe wanted added => cases h.1
  | unsubscribe gone =>
    cases h
    rfl

/-- The frame of a call is that of a packet it may send. -/
def Call.Honest (frameOf : Packet → Except Fault Bytes) : Call → Prop
  | .send frame _ | .leave frame _ => ∃ p, p.isPlain = true ∧ frame = frameOf p
  | .request purpose id frame _ _ => ∃ p, purpose.Says id p ∧ frame = frameOf p
  | _ => True

namespace Client

variable {c c' : Client} {l : Link} {i : Party} {k : Nat} {n : Next}

/-- What is noted of something that is seen. -/
def notesOf (c : Client) : ClientObservation → List Note
  | .answered k a =>
    match c.request? k with
    | some r => r.purpose.notes a
    | none => []
  | _ => []

/-- What is noted of all that is seen in a move. -/
def notes (c : Client) (seen : List ClientObservation) : List Note := seen.flatMap c.notesOf

@[simp]
theorem notes_append (seen more : List ClientObservation) :
    c.notes (seen ++ more) = c.notes seen ++ c.notes more := by
  rw [notes, List.flatMap_append]
  rfl

theorem notes_wrote (bs : Bytes) : c.notes (wrote i bs) = [] := by
  rw [wrote]
  split_ifs <;> rfl

theorem notes_answered {r : Request} {a : CallAnswer} (h : c.request? k = some r) :
    c.notes [.answered k a] = r.purpose.notes a := by
  simp [notes, notesOf, h]

theorem notes_answered_of_none {a : CallAnswer} (h : c.request? k = none) :
    c.notes [.answered k a] = [] := by
  simp [notes, notesOf, h]

theorem Sends.notes {c' : Client} {l' : Link} {frame : Except Fault Bytes} {s : Sending}
    {m : SendMove} {r : Sending ⊕ Except Fault Unit} {seen : List ClientObservation}
    (h : Sends c l i frame s m c' l' r seen) : c.notes seen = [] := by
  cases h with
  | intro _ => exact notes_wrote _

/-! ### The answers that are seen -/

/-- The first answer of a call. -/
def answer? (k : Nat) (seen : List ClientObservation) : Option CallAnswer :=
  seen.findSome? fun
    | .answered j a => if j = k then some a else none
    | _ => none

@[simp]
theorem answer?_append (seen more : List ClientObservation) :
    answer? k (seen ++ more) = (answer? k seen).or (answer? k more) := List.findSome?_append

theorem answer?_answered (j : Nat) (a : CallAnswer) :
    answer? k [.answered j a] = if k = j then some a else none := by
  by_cases h : j = k
  · simp [answer?, h]
  · simp [answer?, h, Ne.symm h]

theorem answer?_wrote (bs : Bytes) : answer? k (wrote i bs) = none := by
  rw [wrote]
  split_ifs <;> rfl

theorem Sends.answer? {c' : Client} {l' : Link} {frame : Except Fault Bytes} {s : Sending}
    {m : SendMove} {r : Sending ⊕ Except Fault Unit} {seen : List ClientObservation}
    (h : Sends c l i frame s m c' l' r seen) (k : Nat) : answer? k seen = none := by
  cases h with
  | intro _ => exact answer?_wrote _

/-- An answer of a request is noted. -/
theorem answer?_eq_none {r : Request} {seen : List ClientObservation} (h : c.request? k = some r)
    (hnotes : c.notes seen = []) : answer? k seen = none := by
  refine List.findSome?_eq_none_iff.2 fun o ho => ?_
  rcases o with _ | ⟨j, a⟩ | _
  · rfl
  · refine if_neg fun hj => ?_
    subst hj
    have hnone := List.flatMap_eq_nil_iff.1 hnotes _ ho
    rw [notesOf, h] at hnone
    rcases hpurpose : r.purpose with _ | _ | _ <;> cases a <;>
      simp [hpurpose, Purpose.notes] at hnone
  · rfl

/-! ### What a move does to the requests -/

/-- What a move does to the requests and to the active filters. -/
inductive Deals (c : Client) (l : Link) (n : Next) : Party → Prop
  /-- Nothing. -/
  | rests {i : Party} : n.1.request? = c.request? → n.1.filters = c.filters →
    c.notes n.2.2 = [] → (∀ k, i = .call k → c.request? k = none) → Deals c l n i
  /-- The frame of a request moves on. -/
  | goesOn {k : Nat} {r : Request} {s s' : Sending} : c.request? k = some r →
    r.state = some s →
    n.1.request? = Function.update c.request? k (some { r with state := some s' }) →
    n.1.filters = c.filters → c.notes n.2.2 = [] → Deals c l n (.call k)
  /-- The frame of a request is all in the stream. -/
  | completes {k : Nat} {r : Request} {left : Bytes} : c.request? k = some r →
    r.state = some (.pushing left) → streamOf n.2.2 = left →
    n.1.request? = Function.update c.request? k (some { r with state := none }) →
    n.1.filters = c.filters → c.notes n.2.2 = [] → Deals c l n (.call k)
  /-- The call of a request returns, perhaps without having sent it. -/
  | returns {k : Nat} {r : Request} {a : CallAnswer} : c.request? k = some r →
    streamOf n.2.2 = [] →
    (r.state = none ∨ (∃ f, a = .failed f) ∧
      ((∃ f, r.frame = .error f) ∨ l.up.closed = true ∨ c.cancelled = true)) →
    r.purpose.ComesTo a → n.1.request? = Function.update c.request? k none →
    (∀ f, f ∈ n.1.filters ↔ f ∈ c.filters ∧ f ∉ r.purpose.gives a) →
    c.notes n.2.2 = r.purpose.notes a →
    (∀ j, answer? j n.2.2 = if j = k then some a else none) → Deals c l n (.call k)

/-- What a sending that is over has come to. -/
theorem Sends.over {c' : Client} {l' : Link} {frame : Except Fault Bytes} {s : Sending}
    {m : SendMove} {r : Except Fault Unit} {seen : List ClientObservation}
    (h : Sends c l i frame s m c' l' (.inr r) seen) :
    (r = .ok () ∧ s = .pushing (streamOf seen)) ∨
      ((∃ f, r = .error f) ∧ streamOf seen = [] ∧
        ((∃ f, frame = .error f) ∨ l.up.closed = true ∨ c.cancelled = true)) := by
  generalize hr : (Sum.inr r : Sending ⊕ Except Fault Unit) = r' at h
  cases h with
  | intro hm =>
    rw [streamOf_wrote]
    cases hm with
    | enter | layOut _ _ | part _ _ => cases hr
    | fault _ hf =>
      cases hr
      exact .inr ⟨⟨_, rfl⟩, rfl, .inl ⟨_, hf⟩⟩
    | broken hclosed =>
      cases hr
      exact .inr ⟨⟨_, rfl⟩, rfl, .inr (.inl hclosed)⟩
    | whole hw =>
      -- The last part: all that was left is taken.
      cases hr
      have htaken := Pipe.append_of_write hw
      rw [List.append_nil] at htaken
      exact .inl ⟨rfl, congrArg _ htaken.symm⟩
    -- Giving up takes a cancelled token, wherever the frame stands.
    | giveUpOutside hc | giveUpInLine hc | giveUpPushing hc =>
      cases hr
      exact .inr ⟨⟨_, rfl⟩, rfl, .inr (.inr hc)⟩

theorem request?_of_insert {call : Call} {r : Option Request}
    (h : c'.calls = c.calls.insert k call) (hr : call.request? = r) :
    c'.request? = Function.update c.request? k r := by
  funext k'
  rw [request?, call?_of_insert h]
  by_cases hk : k' = k
  · subst hk
    rw [if_pos rfl, Function.update_self, ← hr]
    exact call.request?_bare
  · rw [if_neg hk, Function.update_of_ne hk]
    rfl

/-- A call that is gone asks for nothing. -/
theorem request?_of_gone (h : ∀ k', c'.call? k' = if k' = k then none else c.call? k') :
    c'.request? = Function.update c.request? k none := by
  funext k'
  rw [request?, h]
  by_cases hk : k' = k
  · subst hk
    rw [if_pos rfl, Function.update_self]
    rfl
  · rw [if_neg hk, Function.update_of_ne hk]
    rfl

theorem request?_of_erase (h : c'.calls = c.calls.erase k) :
    c'.request? = Function.update c.request? k none :=
  request?_of_gone fun _ => call?_of_erase h

theorem request?_withdraw {id : UInt16} {fs : List String} :
    (c.withdraw k id fs).request? = Function.update c.request? k none :=
  request?_of_gone fun _ => call?_withdraw

/-- A call that is no request stays none. -/
theorem update_of_none (h : c.request? k = none) :
    Function.update c.request? k none = c.request? := by
  rw [← h, Function.update_eq_self]

theorem Reads.deals {m : Move} (h : Reads c l m n) : Deals c l n .reader := by
  have hmoved {c' : Client} {seen : List ClientObservation} {l' : Link} (h : ReaderMoved c c')
      (hnotes : c.notes seen = []) : Deals c l (c', l', seen) .reader :=
    .rests (request?_congr h.call?) h.filters hnotes nofun
  cases h with
  | ceases _ _ => exact hmoved readerMoved_endReader rfl
  | reads _ _ _ => exact .rests rfl rfl rfl nofun
  | undecodable _ _ _ => exact hmoved (readerMoved_takeFrame.trans readerMoved_endReader) rfl
  | handles _ _ _ => exact hmoved (readerMoved_takeFrame.trans (handles_handle _).moved) rfl
  | answers _ hsends =>
    have hnotes := hsends.notes
    obtain ⟨t, rfl⟩ := hsends.client
    exact .rests rfl rfl hnotes nofun
  | answerFails _ hsends =>
    have hnotes := hsends.notes
    obtain ⟨t, rfl⟩ := hsends.client
    exact .rests (request?_congr readerMoved_endReader.call?) rfl hnotes nofun
  | @answered _ _ p _ _ _ _ _ hsends =>
    have hnotes := hsends.notes
    obtain ⟨t, rfl⟩ := hsends.client
    have hmoved : ReaderMoved { c with turnstile := t }
      (({ c with turnstile := t } : Client).afterAnswer p) := readerMoved_afterAnswer
    exact .rests (request?_congr hmoved.call?) hmoved.filters hnotes nofun

theorem Keeps.deals {m : Move} (h : Keeps c l m n) : Deals c l n .keeper := by
  cases h with
  | ceases _ _ | wakes _ _ => exact .rests rfl rfl rfl nofun
  | pings _ hsends | pinged _ hsends | pingFails _ hsends =>
    have hnotes := hsends.notes
    obtain ⟨t, rfl⟩ := hsends.client
    exact .rests rfl rfl hnotes nofun

theorem Opens.deals {m : Move} (h : Opens c l m n) : Deals c l n .reader := by
  cases h with
  | connects _ _ | fails _ | reads _ _ _ | unwelcome _ _ _ | opens _ _ _ =>
    exact .rests rfl rfl rfl nofun

theorem Calls.deals {call : Call} {m : Move} (h : Calls c l k call m n)
    (hcall : c.calls[k]? = some call) : Deals c l n (.call k) := by
  have hrequest := request?_eq hcall
  -- A call that asks for nothing.
  have hrest {c' : Client} {seen : List ClientObservation} {l' : Link}
      (hnone : call.request? = none) (hafter : c'.request? = Function.update c.request? k none)
      (hfilters : c'.filters = c.filters) (hnotes : c.notes seen = []) :
      Deals c l (c', l', seen) (.call k) := by
    rw [hnone] at hrequest
    refine .rests (hafter.trans (update_of_none hrequest)) hfilters hnotes ?_
    rintro _ ⟨⟩
    exact hrequest
  cases h with
  | sends hsends | leaves hsends | left hsends =>
    have hnotes := hsends.notes
    obtain ⟨t, rfl⟩ := hsends.client
    exact hrest rfl (request?_of_insert rfl rfl) rfl hnotes
  | sent hsends =>
    have hnotes := hsends.notes
    obtain ⟨t, rfl⟩ := hsends.client
    refine hrest rfl (request?_of_erase rfl) rfl ?_
    rw [notes_append, hnotes, notes_answered_of_none hrequest]
    rfl
  | requests hsends =>
    have hnotes := hsends.notes
    obtain ⟨t, rfl⟩ := hsends.client
    exact .goesOn hrequest rfl (request?_of_insert rfl rfl) rfl hnotes
  | requested hsends =>
    have hnotes := hsends.notes
    rcases hsends.over with ⟨-, hs⟩ | ⟨⟨f, hf⟩, -⟩
    · subst hs
      obtain ⟨t, rfl⟩ := hsends.client
      exact .completes hrequest rfl rfl (request?_of_insert rfl rfl) rfl hnotes
    · cases hf
  | requestFails hsends =>
    have hnotes := hsends.notes
    have hanswer := hsends.answer?
    rcases hsends.over with ⟨hr, -⟩ | ⟨-, hstream, hwhy⟩
    · cases hr
    · obtain ⟨t, rfl⟩ := hsends.client
      rw [requestFails_eq]
      refine .returns hrequest ?_ (.inr ⟨⟨_, rfl⟩, hwhy⟩) .failed request?_withdraw
        (fun f => mem_withdraw) ?_ fun j => ?_
      · rw [streamOf_append, hstream]
        rfl
      · rw [notes_append, hnotes]
        exact notes_answered hrequest
      · rw [answer?_append, hanswer, answer?_answered]
        rfl
  | acknowledged =>
    obtain ⟨a, ha, hfits⟩ := requestReturns_eq (c := c) (l := l) (k := k) _ _ _
    rw [ha]
    exact .returns hrequest rfl (.inl rfl) hfits request?_withdraw (fun f => mem_withdraw)
      (notes_answered hrequest) fun j => answer?_answered _ _
  | forgotten | cancelled _ =>
    rw [requestFails_eq]
    exact .returns hrequest rfl (.inl rfl) .failed request?_withdraw
      (fun f => mem_withdraw) (notes_answered hrequest) fun j => answer?_answered _ _
  | waits | comes => exact hrest rfl (request?_of_insert rfl rfl) rfl rfl
  | receives _ _ | exhausts _ _ _ | expires _ _ | shuts _ =>
    exact hrest rfl (request?_of_erase rfl) rfl (notes_answered_of_none hrequest)

/-- **What every move does to the requests.** -/
theorem step_deals {a : Action} (h : c.step l a = some n) : Deals c l n a.actor := by
  cases step_cases h with
  | opening hopens => exact hopens.deals
  | reader _ hreads => exact hreads.deals
  | keeper hkeeps => exact hkeeps.deals
  | call hcall hcalls => exact hcalls.deals hcall
  | givesUp _ => exact .rests rfl rfl rfl nofun

/-! ### The packets behind the frames -/

/-- Every frame that is being sent is that of a packet that its party may send. -/
structure Speaks (c : Client) : Prop where
  reader : ∀ frame s p, c.reader = .answering frame s p →
    ∃ ack, ack.isPlain = true ∧ frame = c.frameOf ack
  call : ∀ k call, c.call? k = some call → call.Honest c.frameOf

/-- The packet that a party may be sending. -/
def Says (c : Client) : Party → Packet → Prop
  | .reader, p =>
    p.isPlain = true ∨ (∃ left, c.stage = .connecting left) ∧ p = .connect c.config.connect
  | .keeper, p => p = .pingReq
  | .call k, p =>
    match c.request? k with
    | some r => r.purpose.Says r.id p
    | none => p.isPlain = true

/-- A request sends its frame until that is all in the stream. -/
theorem sending?_eq {r : Request} (h : c.request? k = some r) :
    c.sending? (.call k) = r.state.map fun s => (r.frame, s) := by
  obtain ⟨call, hcall, hr⟩ := Option.bind_eq_some_iff.1 h
  show (c.call? k).bind Call.sending? = _
  rw [hcall]
  rcases call with _ | ⟨_, _, _, _, _ | _⟩ | _ | _ | _ <;> cases hr <;> rfl

theorem sending?_of_request {r : Request} {s : Sending} (h : c.request? k = some r)
    (hs : r.state = some s) : c.sending? (.call k) = some (r.frame, s) := by
  rw [sending?_eq h, hs]
  rfl

theorem sending?_of_request_none {r : Request} (h : c.request? k = some r)
    (hs : r.state = none) : c.sending? (.call k) = none := by
  rw [sending?_eq h, hs]
  rfl

theorem answering_of_sending? {frame : Except Fault Bytes} {s : Sending}
    (hstage : ∀ left, c.stage ≠ .connecting left) (h : c.sending? .reader = some (frame, s)) :
    ∃ p, c.reader = .answering frame s p := by
  rcases hs : c.stage with left | _ | _ | _
  · exact absurd hs (hstage left)
  all_goals
    rw [sending?, hs] at h
    rcases hreader : c.reader with _ | ⟨_, _, p⟩ | _
    · rw [hreader] at h
      cases h
    · rw [hreader] at h
      cases h
      exact ⟨p, rfl⟩
    · rw [hreader] at h
      cases h

/-- **Behind every frame that is being sent stands a packet.** -/
theorem Speaks.exists_packet (hs : c.Speaks) {frame : Except Fault Bytes} {s : Sending}
    (h : c.sending? i = some (frame, s)) : ∃ p, frame = c.frameOf p ∧ c.Says i p := by
  cases i with
  | reader =>
    -- The reading task stands for the opening call until the session is open.
    by_cases hstage : ∃ left, c.stage = .connecting left
    · obtain ⟨left, hleft⟩ := id hstage
      simp only [sending?, hleft] at h
      cases h
      exact ⟨_, rfl, .inr ⟨hstage, rfl⟩⟩
    · obtain ⟨p, hreader⟩ := answering_of_sending? (fun left hleft => hstage ⟨left, hleft⟩) h
      obtain ⟨ack, hplain, hframe⟩ := hs.reader _ _ _ hreader
      exact ⟨ack, hframe, .inl hplain⟩
  | keeper =>
    rw [sending?] at h
    split at h
    · cases h
      exact ⟨_, rfl, rfl⟩
    · cases h
  | call k =>
    obtain ⟨call, hcall, hsending⟩ := Option.bind_eq_some_iff.1 h
    have hhonest := hs.call k call hcall
    have hrequest : c.request? k = call.request? := by
      rw [request?, hcall]
      rfl
    -- Three sorts of calls have frames: a plain packet, a request, and the DISCONNECT.
    rcases call with ⟨_, _⟩ | ⟨purpose, id, _, _, _ | _⟩ | _ | ⟨_, _⟩ | _
    · obtain ⟨p, hplain, hframe⟩ := hhonest
      cases hsending
      refine ⟨p, hframe, ?_⟩
      rw [Says, hrequest]
      exact hplain
    · cases hsending
    · obtain ⟨p, hpacket, hframe⟩ := hhonest
      cases hsending
      refine ⟨p, hframe, ?_⟩
      rw [Says, hrequest]
      exact hpacket
    · cases hsending
    · obtain ⟨p, hplain, hframe⟩ := hhonest
      cases hsending
      refine ⟨p, hframe, ?_⟩
      rw [Says, hrequest]
      exact hplain
    · cases hsending

theorem frameOf_congr (h : c'.config = c.config) : c'.frameOf = c.frameOf := by
  funext p
  simp only [frameOf, h]

/-- The reading task moves on. -/
theorem Speaks.of_readerMoved (hs : c.Speaks) (h : ReaderMoved c c')
    (hreader : ∀ frame s p, c'.reader = .answering frame s p →
      ∃ ack, ack.isPlain = true ∧ frame = c.frameOf ack) : c'.Speaks where
  reader frame s p hr := by
    rw [frameOf_congr h.config]
    exact hreader frame s p hr
  call k call hcall := by
    rw [h.call?] at hcall
    rw [frameOf_congr h.config]
    exact hs.call k call hcall

theorem Speaks.of_over (hs : c.Speaks) (h : ReaderMoved c c')
    (hreader : c'.reader = .reading ∨ c'.reader = .over) : c'.Speaks := by
  refine hs.of_readerMoved h fun frame s p hr => ?_
  rcases hreader with hreader | hreader <;> · rw [hreader] at hr; cases hr

theorem Reads.speaks {m : Move} (hs : c.Speaks) (h : Reads c l m n) : n.1.Speaks := by
  cases h with
  | ceases hc _ => exact hs.of_over readerMoved_endReader (.inr rfl)
  | reads _ _ _ => exact ⟨hs.reader, hs.call⟩
  | undecodable _ _ _ =>
    exact hs.of_over (readerMoved_takeFrame.trans readerMoved_endReader) (.inr rfl)
  | @handles f a p _ _ _ =>
    have hhandles : Handles (c.takeFrame a) p _ := handles_handle p
    have hmoved := readerMoved_takeFrame.trans hhandles.moved
    -- A packet asks for an answer, or it does not, or it ends the task.
    rcases hhandles.reader with hc | hc | ⟨ack, q, hplain, hc⟩
    · exact hs.of_over hmoved (.inl hc)
    · exact hs.of_over hmoved (.inr hc)
    · refine hs.of_readerMoved hmoved ?_
      intro frame s q hr
      rw [hc] at hr
      cases hr
      exact ⟨ack, hplain, rfl⟩
  | answers hc hsends =>
    obtain ⟨t, rfl⟩ := hsends.client
    refine ⟨fun frame s p hr => ?_, hs.call⟩
    cases hr
    exact hs.reader _ _ _ hc
  | answerFails _ hsends =>
    obtain ⟨t, rfl⟩ := hsends.client
    have hs' : ({ c with turnstile := t } : Client).Speaks := ⟨hs.reader, hs.call⟩
    exact hs'.of_over readerMoved_endReader (.inr rfl)
  | answered _ hsends =>
    obtain ⟨t, rfl⟩ := hsends.client
    have hs' : ({ c with turnstile := t } : Client).Speaks := ⟨hs.reader, hs.call⟩
    exact hs'.of_over readerMoved_afterAnswer reader_afterAnswer

theorem Keeps.speaks {m : Move} (hs : c.Speaks) (h : Keeps c l m n) : n.1.Speaks := by
  cases h with
  | ceases _ _ | wakes _ _ => exact ⟨hs.reader, hs.call⟩
  | pings _ hsends | pinged _ hsends | pingFails _ hsends =>
    obtain ⟨t, rfl⟩ := hsends.client
    exact ⟨hs.reader, hs.call⟩

theorem Opens.speaks {m : Move} (hs : c.Speaks) (h : Opens c l m n) : n.1.Speaks := by
  cases h with
  | connects _ _ | fails _ | reads _ _ _ | unwelcome _ _ _ => exact ⟨hs.reader, hs.call⟩
  | opens _ _ _ =>
    refine ⟨fun frame s p hr => ?_, hs.call⟩
    cases hr

/-- A call is put in the place of one that had the same frame. -/
theorem Speaks.of_insert {new : Call} (hs : c.Speaks) (hcalls : c'.calls = c.calls.insert k new)
    (hreader : c'.reader = c.reader) (hconfig : c'.config = c.config)
    (hnew : new.bare.Honest c.frameOf) : c'.Speaks := by
  have hframe := frameOf_congr hconfig
  refine ⟨fun frame s p hr => ?_, fun k' call hcall => ?_⟩
  · rw [hframe]
    exact hs.reader frame s p (hreader ▸ hr)
  · rw [hframe]
    rw [call?_of_insert hcalls] at hcall
    split_ifs at hcall with hk
    · cases hcall
      exact hnew
    · exact hs.call k' call hcall

/-- A call goes away. -/
theorem Speaks.of_gone (hs : c.Speaks)
    (hcalls : ∀ k', c'.call? k' = if k' = k then none else c.call? k')
    (hreader : c'.reader = c.reader) (hconfig : c'.config = c.config) : c'.Speaks := by
  have hframe := frameOf_congr hconfig
  refine ⟨fun frame s p hr => ?_, fun k' call hcall => ?_⟩
  · rw [hframe]
    exact hs.reader frame s p (hreader ▸ hr)
  · rw [hframe]
    rw [hcalls] at hcall
    split_ifs at hcall
    exact hs.call k' call hcall

theorem Calls.speaks {call : Call} {m : Move} (hs : c.Speaks) (h : Calls c l k call m n)
    (hcall : c.calls[k]? = some call) : n.1.Speaks := by
  have hhonest : call.bare.Honest c.frameOf := hs.call k _ (call?_eq hcall)
  cases h with
  | sends hsends | leaves hsends | requests hsends | requested hsends =>
    obtain ⟨t, rfl⟩ := hsends.client
    exact hs.of_insert rfl rfl rfl hhonest
  | left hsends =>
    obtain ⟨t, rfl⟩ := hsends.client
    exact hs.of_insert rfl rfl rfl trivial
  | sent hsends =>
    obtain ⟨t, rfl⟩ := hsends.client
    exact hs.of_gone (fun _ => call?_of_erase rfl) rfl rfl
  | requestFails hsends =>
    obtain ⟨t, rfl⟩ := hsends.client
    -- A request goes away; its answer says nothing about frames.
    rw [requestFails_eq]
    exact hs.of_gone (fun _ => call?_withdraw) rfl rfl
  | acknowledged =>
    obtain ⟨a, ha, -⟩ := requestReturns_eq (c := c) (l := l) (k := k) _ _ _
    rw [ha]
    exact hs.of_gone (fun _ => call?_withdraw) rfl rfl
  | forgotten | cancelled _ =>
    rw [requestFails_eq]
    exact hs.of_gone (fun _ => call?_withdraw) rfl rfl
  | waits | comes => exact hs.of_insert rfl rfl rfl trivial
  | receives _ _ | exhausts _ _ _ | expires _ _ | shuts _ =>
    exact hs.of_gone (fun _ => call?_of_erase rfl) rfl rfl

/-- **Every move keeps the frames those of packets.** -/
theorem Speaks.step {a : Action} (hs : c.Speaks) (h : c.step l a = some n) : n.1.Speaks := by
  cases step_cases h with
  | opening hopens => exact hopens.speaks hs
  | reader _ hreads => exact hreads.speaks hs
  | keeper hkeeps => exact hkeeps.speaks hs
  | call hcall hcalls => exact hcalls.speaks hs hcall
  | givesUp _ => exact ⟨hs.reader, hs.call⟩

theorem Speaks.starts {call : ClientCall} (hs : c.Speaks) (h : Starts c k call c') :
    c'.Speaks := by
  cases h with
  | publish _ | ping | disconnect => exact hs.of_insert rfl rfl rfl ⟨_, rfl, rfl⟩
  | publishAcknowledged _ _ => exact hs.of_insert rfl rfl rfl ⟨_, ⟨_, rfl⟩, rfl⟩
  | unsubscribe _ _ => exact hs.of_insert rfl rfl rfl ⟨_, rfl, rfl⟩
  | @subscribe wanted id ids _ hvalid _ =>
    rw [addFilters_eq]
    exact hs.of_insert rfl rfl rfl ⟨_, ⟨rfl, hvalid⟩, rfl⟩
  | receive => exact hs.of_insert rfl rfl rfl trivial

end Client
end Mqtt
