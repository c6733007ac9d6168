import Mqtt.Proofs.Client.Intake
import Mqtt.Proofs.Client.Turns
/-!
# The messages that a client keeps

The reading task is done with a message at once, if that asks for no answer, and otherwise when the
answer is in the stream. Only then does it look at the filters that are active, and keep the message
if one of them wants it. What every event does with messages is said by `Digests`, and what comes of
that in a run by `Sorts`: messages are dealt with in the order in which they come, and those that
were wanted are received in this order, each once, or are in the inbox.

A call receives the oldest message there is (`Happens.receives`). A client whose reading task has
ended and whose inbox is empty stays so (`Exhausted`).
-/

namespace Mqtt
namespace Client

variable {c c' c₁ c₂ : Client} {l l' l₁ l₂ : Link} {e : Event} {es : List Event} {i : Party}
  {k : Nat}
  {n : Next} {seen : List ClientObservation} {log : List ClientDeed} {v : Version} {p : Publish}

/-- The messages among some packets. -/
def publishesOf (ps : List Packet) : List Publish :=
  ps.filterMap fun
    | .publish p => some p
    | _ => none

/-- The messages that some filter wants that was active when the reading task was done with them. -/
def wanted (ws : List (Publish × List String)) : List Message :=
  (ws.filter fun w => w.2.any fun f => Topic.matchedBy w.1.topic f).map fun w => w.1.message

/-- The message that the reading task is answering, if any. -/
def pending (c : Client) : List Publish :=
  match c.reader with
  | .answering _ _ p => p.toList
  | _ => []

theorem publishesOf_append (ps more : List Packet) :
    publishesOf (ps ++ more) = publishesOf ps ++ publishesOf more :=
  List.filterMap_append

theorem wanted_append (ws more : List (Publish × List String)) :
    wanted (ws ++ more) = wanted ws ++ wanted more := by
  rw [wanted, List.filter_append, List.map_append]
  rfl

theorem pending_of_reading (h : c.reader = .reading) : c.pending = [] := by rw [pending, h]

theorem pending_of_over (h : c.reader = .over) : c.pending = [] := by rw [pending, h]

theorem pending_of_answering {frame : Except Fault Bytes} {s : Sending} {o : Option Publish}
    (h : c.reader = .answering frame s o) : c.pending = o.toList := by rw [pending, h]

/-! ### What the reading task does with messages -/

/-- The reading task has ended. -/
def Finished (c : Client) : Prop := c.reader = .over ∧ c.WasOpened

/-- The reading task leaves the answer that it is sending, and nothing of it comes into the
stream. -/
def Leaves (c : Client) (e : Event) (n : Next) : Prop :=
  e.actor = .reader ∧ (∃ frame s, c.sending? .reader = some (frame, s)) ∧
    n.1.sending? .reader = none ∧ streamOf n.2.2 = []

/-- What an event does with messages: the reading task takes these packets and is done with these
messages, and those that are kept are received or are in the inbox. -/
inductive Digests (c : Client) (e : Event) (n : Next) (ps : List Packet) (kept : List Message) :
    List (Publish × List String) → Prop
  /-- It is done with none. -/
  | holds : c.pending ++ publishesOf ps = n.1.pending → kept = c.inbox → Digests c e n ps kept []
  /-- A message is kept if some filter wants it. -/
  | weighs {p : Publish} : c.pending ++ publishesOf ps = [p] → n.1.pending = [] →
    kept = c.inbox ++ wanted [(p, c.filters)] → Digests c e n ps kept [(p, c.filters)]
  /-- Nothing is kept for a program that is gone. -/
  | refuses {p : Publish} : c.pending ++ publishesOf ps = [p] → n.1.Finished → n.1.dropped = true →
    kept = c.inbox → Digests c e n ps kept [(p, c.filters)]
  /-- A message is not answered to the end. -/
  | loses : Leaves c e n → n.1.Finished → kept = c.inbox → Digests c e n ps kept []

theorem digests_keep {ps : List Packet} {c₀ : Client} (hrunning : c.stage = .running)
    (hinbox : c.inbox = c₀.inbox) (hfilters : c.filters = c₀.filters)
    (hone : c₀.pending ++ publishesOf ps = [p]) :
    Digests c₀ e (c.keep p, l, seen) ps (c.keep p).inbox [(p, c₀.filters)] := by
  have hwanted : wanted [(p, c₀.filters)] = if c.isSubscribed p.topic then [p.message] else [] := by
    rw [wanted, List.filter_singleton, ← hfilters]
    show List.map _ (bif c.isSubscribed p.topic then _ else _) = _
    rcases c.isSubscribed p.topic with _ | _ <;> rfl
  rw [keep]
  by_cases hsubscribed : c.isSubscribed p.topic = true
  · simp only [hsubscribed, Bool.not_true, if_true] at hwanted ⊢
    simp only [Bool.false_eq_true, if_false]
    split_ifs with hdropped
    · exact .refuses hone ⟨rfl, .inl hrunning⟩ hdropped hinbox
    · refine .weighs hone rfl ?_
      rw [hwanted, ← hinbox]
      rfl
  · have hnot : c.isSubscribed p.topic = false := by simpa using hsubscribed
    simp only [hnot, Bool.not_false, if_true, Bool.false_eq_true, if_false] at hwanted ⊢
    refine .weighs hone rfl ?_
    rw [hwanted, List.append_nil]
    exact hinbox

/-- The reading task has sent its answer, or has not. -/
theorem weighings_send {frame : Except Fault Bytes} {s : Sending} {o : Option Publish}
    {m : SendMove}
    (h : c.reader = .answering frame s o) :
    weighed (c.weighings (.move (.party .reader (.send m))) n) =
      if c.lane.completed n.1.lane .reader (streamOf n.2.2) = [] then []
      else o.toList.map fun p => (p, c.filters) := by
  rw [weighings, h]
  rcases o with _ | p
  · split_ifs <;> rfl
  · dsimp only
    split_ifs <;> rfl

theorem Sends.streamOf_of_error {frame : Except Fault Bytes} {s : Sending} {m : SendMove}
    {f : Fault}
    (h : Sends c l i frame s m c' l' (.inr (.error f)) seen) : streamOf seen = [] := by
  generalize hr : (Sum.inr (.error f) : Sending ⊕ Except Fault Unit) = r at h
  cases h with
  | intro hm =>
    rw [streamOf_wrote]
    cases hm with
    | enter | layOut _ _ | part _ _ | whole _ => cases hr
    | _ => rfl

/-- A message that asks for no answer is done with at once. -/
theorem weighings_dispatch {p : Packet} (h : c.packet? = some p) :
    weighed (c.weighings (.move (.party .reader .dispatch)) n) =
      if p.receipt?.isSome then [] else (publishesOf [p]).map fun p => (p, c.filters) := by
  rw [weighings, h]
  cases p with
  | publish p =>
    dsimp only
    split_ifs <;> rfl
  | pubRel _ => rfl
  | _ => rfl

/-- The reading task takes a packet. -/
theorem Handles.digests {a : Assembler} {p : Packet} (h : Handles (c.takeFrame a) p c')
    (hrunning : c.stage = .running) (hreader : c.reader = .reading) (hpacket : c.packet? = some p) :
    Digests c e (c', l, seen) (c.packets (.move (.party .reader .dispatch))) c'.inbox
      (weighed (c.weighings (.move (.party .reader .dispatch)) n)) := by
  have hpending := pending_of_reading hreader
  rw [packets, weighings_dispatch hpacket, hpacket]
  cases h with
  | acknowledges hack =>
    rw [hack.receipt?_eq]
    exact .holds (by rw [hpending]; rfl) rfl
  | keeps hack =>
    rw [Packet.receipt?_publish_eq_none hack]
    exact digests_keep hrunning rfl rfl (by rw [hpending]; rfl)
  | releases | disconnects => exact .holds (by rw [hpending]; rfl) rfl
  | completes hanswers => cases hanswers <;> exact .holds (by rw [hpending]; rfl) rfl
  | ignores hkind =>
    cases p with
    | publish _ | pubRel _ => simp [Packet.kind] at hkind
    | _ => exact .holds (by rw [hpending]; rfl) rfl

/-- **What the reading task does with messages.** -/
theorem Reads.digests {m : Move} (h : Reads c l m n) (hrunning : c.stage = .running)
    (hw : c.Wired) :
    Digests c (.move (.party .reader m)) n (c.packets (.move (.party .reader m))) n.1.inbox
      (weighed (c.weighings (.move (.party .reader m)) n)) := by
  have hstage := h.stage.trans hrunning
  cases h with
  | ceases hreader hceases =>
    have hpending := pending_of_reading hreader
    cases hceases with
    | cancelled _ | ended _ _ => exact .holds (by rw [hpending]; rfl) rfl
    | malformed hnext =>
      rw [packets, weighings, packet?_of_malformed hnext]
      exact .holds (by rw [hpending]; rfl) rfl
  | reads hreader _ _ =>
    have hpending := pending_of_reading hreader
    exact .holds (by rw [hpending]; exact hpending.symm) rfl
  | undecodable hreader hnext hdecode =>
    have hpending := pending_of_reading hreader
    have hpacket : c.packet? = none := by
      rw [packet?_of_reading hrunning hreader hnext, hdecode]
      rfl
    rw [packets, weighings, hpacket]
    exact .holds (by rw [hpending]; rfl) rfl
  | handles hreader hnext hdecode =>
    refine (handles_handle _).digests hrunning hreader ?_
    rw [packet?_of_reading hrunning hreader hnext, hdecode]
    rfl
  | @answers frame s s' p m _ _ _ hreader hsends =>
    obtain ⟨t, rfl⟩ := hsends.client
    rw [weighings_send hreader, Lane.completed_of_sending, if_pos rfl]
    · refine .holds ?_ rfl
      rw [pending_of_answering hreader]
      exact List.append_nil _
    · exact sending?_of_answering hstage rfl
  | answerFails hreader hsends =>
    have hseen := hsends.streamOf_of_error
    rw [weighings_send hreader, hseen, Lane.completed_nil, if_pos rfl]
    obtain ⟨t, rfl⟩ := hsends.client
    exact .loses ⟨rfl, ⟨_, _, sending?_of_answering hrunning hreader⟩,
      sending?_reader_eq_none hstage (.inr rfl), hseen⟩ ⟨rfl, .inl hrunning⟩ rfl
  | @answered frame s o m _ _ seen hreader hsends =>
    -- What was left of the answer is in the stream now.
    obtain rfl := hsends.whole
    have hi : c.lane.Pushes .reader frame (streamOf seen) := sending?_of_answering hrunning hreader
    obtain ⟨hleft, part, rfl⟩ := hw.exclusive.part _ _ _ hi
    obtain ⟨t, rfl⟩ := hsends.client
    have hgone : ({ c with turnstile := t }.afterAnswer o).lane.sending .reader = none :=
      sending?_reader_eq_none hstage reader_afterAnswer
    rw [weighings_send hreader, Lane.completed_of_pushes hi hgone hleft,
      if_neg (List.cons_ne_nil _ _)]
    have hpending := pending_of_answering hreader
    cases o with
    | none => exact .holds (by rw [hpending]; rfl) rfl
    | some p => exact digests_keep hrunning rfl rfl (by rw [hpending]; rfl)

/-! ### What every event does with messages -/

theorem Reads.received {m : Move} (h : Reads c l m n) : received n.2.2 = [] := by
  cases h with
  | answers _ hsends | answerFails _ hsends | answered _ hsends => exact hsends.received
  | _ => rfl

theorem Reads.reader_ne_over {m : Move} (h : Reads c l m n) : c.reader ≠ .over := by
  cases h with
  | ceases hreader _ | reads hreader _ _ | undecodable hreader _ _ | handles hreader _ _
  | answers hreader _ | answerFails hreader _ | answered hreader _ =>
    rw [hreader]
    nofun

/-- Before the session is open, there are no messages. -/
theorem Opens.digests {m : Move} (h : Opens c l m n) (ho : c.Orderly) :
    Digests c (.move (.party .reader m)) n (c.packets (.move (.party .reader m)))
      (Client.received n.2.2 ++ n.1.inbox)
      (weighed (c.weighings (.move (.party .reader m)) n)) := by
  have hne : c.stage ≠ .running := fun hrunning => h.not_wasOpened (.inl hrunning)
  have hover := ho.reader hne
  have hpacket := packet?_of_not_running hne
  have hweighings : c.weighings (.move (.party .reader m)) n = [] := by
    unfold weighings
    split
    · rw [hpacket]
    · rw [hover]
    · rfl
  have hbefore := pending_of_over hover
  have hafter : n.1.pending = [] := by
    cases h with
    | opens _ _ _ => rfl
    | _ => exact pending_of_over hover
  rw [packets_eq_nil (.inr hpacket), hweighings]
  refine .holds ?_ ?_
  · rw [hbefore, hafter]
    rfl
  · cases h <;> rfl

theorem Attends.digests (h : Attends c l e n) (hw : c.Wired) :
    Digests c e n (c.packets e) (received n.2.2 ++ n.1.inbox) (weighed (c.weighings e n)) := by
  cases h with
  | opening hopens => exact hopens.digests hw.orderly
  | reading hrunning hreads =>
    rw [hreads.received]
    exact hreads.digests hrunning hw
  | arrives _ => exact .holds (List.append_nil _) rfl
  | apart hne _ hspares =>
    have hweighings : c.weighings e n = [] := by
      unfold weighings
      split
      · exact absurd rfl (hne _)
      · exact absurd rfl (hne _)
      · rfl
    rw [packets_eq_nil (.inl (hne _)), hweighings]
    refine .holds ?_ hspares.inbox
    rw [pending, pending, hspares.reader]
    exact List.append_nil _

theorem Attends.finished (h : Attends c l e n) (hfinished : c.Finished) : n.1.Finished := by
  cases h with
  | opening hopens => exact absurd hfinished.2 hopens.not_wasOpened
  | reading _ hreads => exact absurd hfinished.1 hreads.reader_ne_over
  | arrives _ => exact hfinished
  | apart _ _ hspares =>
    refine ⟨hspares.reader.trans hfinished.1, ?_⟩
    rcases hspares.stage with hstage | ⟨hstage, -⟩
    · rw [WasOpened, hstage]
      exact hfinished.2
    · exact .inr hstage

/-- A reading task that has ended takes nothing. -/
theorem Finished.packets (h : c.Finished) : c.packets e = [] := by
  refine packets_eq_nil (.inr ?_)
  rcases h.2 with hstage | hstage <;> simp [packet?, frame?, h.1, hstage]

theorem inboxOpen_keep : (c.keep p).inboxOpen = c.inboxOpen ∨ (c.keep p).reader = .over := by
  rw [keep]
  split_ifs
  · exact .inl rfl
  · exact .inr rfl
  · exact .inl rfl

/-- Nobody closes the inbox but a reading task that ends. -/
theorem Reads.inboxOpen {m : Move} (h : Reads c l m n) :
    n.1.inboxOpen = c.inboxOpen ∨ n.1.reader = .over := by
  cases h with
  | ceases _ _ | undecodable _ _ _ | answerFails _ _ => exact .inr rfl
  | reads _ _ _ => exact .inl rfl
  | @handles f a p _ _ _ =>
    have hhandles : Handles (c.takeFrame a) p _ := handles_handle p
    generalize (c.takeFrame a).handle p = c' at hhandles
    cases hhandles with
    | keeps _ => exact inboxOpen_keep
    | disconnects => exact .inr rfl
    | _ => exact .inl rfl
  | answers _ hsends =>
    obtain ⟨t, rfl⟩ := hsends.client
    exact .inl rfl
  | @answered _ _ p _ _ _ _ _ hsends =>
    obtain ⟨t, rfl⟩ := hsends.client
    cases p with
    | none => exact .inl rfl
    | some p => exact inboxOpen_keep

theorem Attends.inboxOpen (h : Attends c l e n) :
    n.1.inboxOpen = c.inboxOpen ∨ n.1.Finished := by
  cases h with
  | opening hopens => cases hopens <;> exact .inl rfl
  | reading hrunning hreads =>
    exact hreads.inboxOpen.imp_right fun hover => ⟨hover, .inl (hreads.stage.trans hrunning)⟩
  | arrives _ => exact .inl rfl
  | apart _ _ hspares => exact .inl hspares.inboxOpen

/-! ### Every run -/

/-- What a client has done with the messages that it has taken. -/
structure Sorts (c : Client) (log : List ClientDeed) (seen : List ClientObservation) : Prop where
  /-- Messages are dealt with in the order in which they come. What is left when the reading task
  ends is the one that it was answering. -/
  order : (weighed log).map Prod.fst ++ c.pending = publishesOf (packetsOf c.config.version log) ∨
    c.Finished ∧ (weighed log).map Prod.fst <+: publishesOf (packetsOf c.config.version log)
  /-- Those that were wanted have been received or are in the inbox. -/
  inbox : received seen ++ c.inbox = wanted (weighed log) ∨
    c.Finished ∧ c.dropped = true ∧ received seen ++ c.inbox <+: wanted (weighed log)
  shut : c.inboxOpen = false → c.Finished

theorem Begins.sorts (h : Begins c l) : c.Sorts (c.journal l []) [] := by
  cases h with
  | intro hconnect =>
    obtain ⟨bs, -, rfl⟩ := connect_eq_ok hconnect
    exact ⟨.inl rfl, .inl rfl, nofun⟩

section Digests

variable {ps : List Packet} {kept had : List Message} {ws done : List (Publish × List String)}
  {ms : List Publish} (h : Digests c e n ps kept ws)

include h

/-- Messages are dealt with in order, and none is left out unless its answer is. -/
theorem Digests.order (hbefore : done.map Prod.fst ++ c.pending = ms) :
    (done ++ ws).map Prod.fst ++ n.1.pending = ms ++ publishesOf ps ∨
      Leaves c e n ∧ n.1.Finished ∧ (done ++ ws).map Prod.fst <+: ms ++ publishesOf ps := by
  rw [← hbefore, List.map_append, List.append_assoc, List.append_assoc]
  cases h with
  | holds hpending _ => exact .inl (congrArg _ hpending.symm)
  | weighs hone hpending _ => exact .inl (by rw [hone, hpending]; rfl)
  | refuses hone hended _ _ => exact .inl (by rw [hone, pending_of_over hended.1]; rfl)
  | loses hleaves hended _ =>
    refine .inr ⟨hleaves, hended, ?_⟩
    rw [List.map_nil, List.append_nil]
    exact List.prefix_append _ _

/-- What is wanted is kept, unless the program is gone. -/
theorem Digests.inbox (hbefore : had ++ c.inbox = wanted done) :
    had ++ kept = wanted (done ++ ws) ∨
      n.1.Finished ∧ n.1.dropped = true ∧ had ++ kept <+: wanted (done ++ ws) := by
  rw [wanted_append, ← hbefore, List.append_assoc]
  cases h with
  | holds _ hkept | loses _ _ hkept => exact .inl (by rw [hkept, wanted]; simp)
  | weighs _ _ hkept => exact .inl (congrArg _ hkept)
  | refuses _ hended hdropped hkept =>
    refine .inr ⟨hended, hdropped, ?_⟩
    rw [hkept, ← List.append_assoc]
    exact List.prefix_append _ _

/-- A reading task that has ended is done with no more messages. -/
theorem Digests.eq_nil_of_finished (hended : c.Finished) (hps : ps = []) :
    ws = [] ∧ kept = c.inbox := by
  have hnone : c.pending ++ publishesOf ps = [] := by rw [pending_of_over hended.1, hps]; rfl
  cases h with
  | holds _ hkept | loses _ _ hkept => exact ⟨rfl, hkept⟩
  | weighs hone _ _ | refuses hone _ _ _ => cases hnone.symm.trans hone

end Digests

theorem Attends.dropped (h : Attends c l e n) (hfinished : c.Finished)
    (hdropped : c.dropped = true) :
    n.1.dropped = true := by
  cases h with
  | opening hopens => exact absurd hfinished.2 hopens.not_wasOpened
  | reading _ hreads => exact absurd hfinished.1 hreads.reader_ne_over
  | arrives _ => exact hdropped
  | apart _ _ hspares => exact hspares.dropped hdropped

/-- **Every event keeps it so.** -/
theorem Sorts.next (h : c.Sorts log seen) (hg : c.Greeted (taken log)) (hw : c.Wired)
    (hhappens : Happens c l e n) : n.1.Sorts (log ++ c.deeds l e n) (seen ++ n.2.2) := by
  have hattends := hhappens.attends
  have hdigests := hattends.digests hw
  have hpackets := packetsOf_concat (l := l) (e := e) (n := n) hg rfl
  refine ⟨?_, ?_, fun hclosed => ?_⟩
  · rw [hhappens.stays.config, hpackets, publishesOf_append, weighed_append, weighed_deeds]
    rcases h.order with hbefore | ⟨hended, hbefore⟩
    · exact (hdigests.order hbefore).imp_right And.right
    · obtain ⟨hnil, -⟩ := hdigests.eq_nil_of_finished hended hended.packets
      rw [hnil, List.append_nil]
      exact .inr ⟨hattends.finished hended, hbefore.trans (List.prefix_append _ _)⟩
  · rw [received_append, List.append_assoc, weighed_append, weighed_deeds]
    rcases h.inbox with hbefore | ⟨hended, hdropped, hbefore⟩
    · exact hdigests.inbox hbefore
    · obtain ⟨hnil, hkept⟩ := hdigests.eq_nil_of_finished hended hended.packets
      rw [hnil, List.append_nil, hkept]
      exact .inr ⟨hattends.finished hended, hattends.dropped hended hdropped, hbefore⟩
  · rcases hattends.inboxOpen with hsame | hended
    · exact hattends.finished (h.shut (hsame.symm.trans hclosed))
    · exact hended

theorem sorts_of_replay (hb : Begins c l) (h : c.replay l es = some (c', l', seen)) :
    c'.Sorts (c.journal l es) seen := by
  refine replay_induction (P := fun es c' _ seen => c'.Sorts (c.journal l es) seen) hb.sorts ?_ h
  intro es e c₁ l₁ seen₁ c₂ l₂ more hrun hevent ih
  rw [journal_concat hrun hevent]
  exact ih.next (greeted_of_replay hb hrun) (wired_of_replay hb.wired hrun)
    (happens_of_event? hevent)

/-! ### What calls receive -/

/-- What a call that receives comes to. -/
inductive Receives (c : Client) (k : Nat) (deadline : Option Nat) : CallAnswer → Prop
  /-- The oldest message. -/
  | message {m : Message} {rest : List Message} : c.inbox = m :: rest →
    Receives c k deadline (.message (some m))
  /-- Every message has been received, and no more will come. -/
  | closed : c.inbox = [] → c.inboxOpen = false → Receives c k deadline (.failed .connectionClosed)
  /-- It took too long, and there was nothing to take. -/
  | expired {d : Nat} : deadline = some d → d ≤ c.now → c.canTake k = false →
    Receives c k deadline (.message none)

variable {a : CallAnswer} {j : Nat}

theorem not_answered_wrote {bs : Bytes} : .answered k a ∉ wrote i bs := by
  rw [wrote]
  split_ifs <;> simp

theorem Sends.not_answered {frame : Except Fault Bytes} {s : Sending} {m : SendMove}
    {r : Sending ⊕ Except Fault Unit} (h : Sends c l i frame s m c' l' r seen) :
    .answered k a ∉ seen := by
  cases h with
  | intro _ => exact not_answered_wrote

/-- A call answers for itself. -/
theorem Calls.eq_of_answered {call : Call} {m : Move} (h : Calls c l k call m n)
    (ha : .answered j a ∈ n.2.2) : j = k := by
  -- What is seen in the move of a call is its bytes, and at most one answer, which is its own.
  have hone {b : CallAnswer} {seen : List ClientObservation} (hseen : .answered j a ∉ seen)
      (h : .answered j a ∈ seen ++ [.answered k b]) : j = k := by
    have := List.mem_singleton.1 ((List.mem_append.1 h).resolve_left hseen)
    cases this
    rfl
  cases h with
  | sends hsends | requests hsends | requested hsends | leaves hsends | left hsends =>
    exact absurd ha hsends.not_answered
  | sent hsends | requestFails hsends => exact hone hsends.not_answered ha
  | forgotten | cancelled _ => exact hone List.not_mem_nil ha
  | acknowledged =>
    obtain ⟨b, hb, -⟩ := requestReturns_eq (c := c) (l := l) (k := k) _ _ _
    rw [hb] at ha
    exact hone List.not_mem_nil ha
  | waits | comes => cases ha
  | receives _ _ | exhausts _ _ _ | expires _ _ | shuts _ => exact hone List.not_mem_nil ha

/-- **What a call that receives comes to.** -/
theorem Happens.receives (h : Happens c l e n) {deadline : Option Nat} {entered : Bool}
    (hcall : c.calls[k]? = some (.receive deadline entered)) (ha : .answered k a ∈ n.2.2) :
    Receives c k deadline a := by
  cases h with
  | refuses _ hfresh _ =>
    -- A call that is refused was not there before.
    cases List.mem_singleton.1 ha
    cases hfresh.symm.trans hcall
  | moves hstep =>
    cases step_cases hstep with
    | opening hopens =>
      cases hopens <;> simp [fail, run] at ha
    | reader _ hreads =>
      cases hreads with
      | answers _ hsends | answerFails _ hsends | answered _ hsends =>
        exact absurd ha hsends.not_answered
      | _ => cases ha
    | keeper hkeeps =>
      cases hkeeps with
      | pings _ hsends | pinged _ hsends | pingFails _ hsends =>
        exact absurd ha hsends.not_answered
      | _ => cases ha
    | call hcall' hcalls =>
      -- Only the call itself answers, so it is this one that moves.
      obtain rfl := hcalls.eq_of_answered ha
      cases hcall.symm.trans hcall'
      cases hcalls with
      | waits => cases ha
      | receives _ hinbox =>
        cases List.mem_singleton.1 ha
        exact .message hinbox
      | exhausts _ hinbox hclosed =>
        cases List.mem_singleton.1 ha
        exact .closed hinbox hclosed
      | expires hlate hnot =>
        cases List.mem_singleton.1 ha
        exact .expired rfl hlate hnot
    | givesUp _ => cases ha
  | _ => cases ha

/-- Every message has been received, and no more will come. -/
def Exhausted (c : Client) : Prop := c.Finished ∧ c.inboxOpen = false ∧ c.inbox = []

/-- A call can only fail then. One that has a deadline may come to that while another one is in
front of it. -/
theorem Exhausted.receives (h : c.Exhausted) {deadline : Option Nat}
    (hreceives : Receives c k deadline a) : a = .failed .connectionClosed ∨
      a = .message none ∧ deadline ≠ none ∧ c.receivers.holds k = false := by
  obtain ⟨-, hclosed, hnone⟩ := h
  cases hreceives with
  | message hinbox => cases hnone.symm.trans hinbox
  | closed _ _ => exact .inl rfl
  | expired hdeadline _ hnot =>
    refine .inr ⟨rfl, by rw [hdeadline]; nofun, ?_⟩
    simpa [canTake, hclosed] using hnot

/-- That stays so, and nothing is received any more. -/
theorem Attends.exhausted (h : Attends c l e n) (hexhausted : c.Exhausted) :
    n.1.Exhausted ∧ received n.2.2 = [] := by
  obtain ⟨hfinished, hclosed, hinbox⟩ := hexhausted
  cases h with
  | opening hopens => exact absurd hfinished.2 hopens.not_wasOpened
  | reading _ hreads => exact absurd hfinished.1 hreads.reader_ne_over
  | arrives _ => exact ⟨⟨hfinished, hclosed, hinbox⟩, rfl⟩
  | apart hne harrivals hspares =>
    -- What was in the inbox is what has been received and what is left: nothing.
    have hkept := hspares.inbox
    rw [hinbox] at hkept
    obtain ⟨hreceived, hinbox⟩ := List.append_eq_nil_iff.1 hkept
    exact ⟨⟨(Attends.apart hne harrivals hspares).finished hfinished,
      hspares.inboxOpen.trans hclosed, hinbox⟩, hreceived⟩

theorem exhausted_of_replay (hexhausted : c.Exhausted) (h : c.replay l es = some (c', l', seen)) :
    c'.Exhausted ∧ received seen = [] := by
  refine replay_induction (P := fun _ c' _ seen => c'.Exhausted ∧ received seen = [])
    ⟨hexhausted, rfl⟩ ?_ h
  intro es e c₁ l₁ seen₁ c₂ l₂ more _ hevent ⟨hexhausted₁, hreceived⟩
  obtain ⟨hexhausted₂, hnone⟩ := (happens_of_event? hevent).attends.exhausted hexhausted₁
  exact ⟨hexhausted₂, by rw [received_append, hreceived, hnone]; rfl⟩

end Client
end Mqtt
