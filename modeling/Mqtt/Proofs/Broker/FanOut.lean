import Mqtt.Proofs.Broker.Arrivals
import Mqtt.Proofs.Broker.Rounds
/-!
# How messages go out

In a run in which nothing ends, every message goes once to every session that wants it
(`forwarded_of_replay`). A session takes its messages in the order in which they came; for each it
looks once at every session that is registered when it begins, itself among them, and writes one
copy of the frame for those that want it then; and only after that is the host given the message.

What is noted as written is what the streams have taken, frame after frame, with the part behind
them that has been pushed of the frame that is being pushed.
-/

namespace Mqtt

/-- The copy that a session gets in a round. -/
def Round.copy? (d : ConnId) (r : Round) : Option Bytes :=
  if (d, true) ∈ r.looks then some r.frame.bytes else none

namespace Broker

variable {b b' b₁ : Broker} {c d : ConnId} {t : Task} {m : Move} {e : Event} {es : List Event}
  {seen more : List Observation} {log log' part : List Deed}

/-! ### Frames in the streams -/

/-- A task that does not go on with a frame writes nothing. -/
theorem nil_of_step {ι : Type} [DecidableEq ι] {l l' : Lane ι} {i : ι} {p : Pipe}
    {cancelled : Bool} {lm : LaneMove} {bs : Bytes} (h : Lane.Step p cancelled i lm l l' bs)
    (hlm : ∀ m, lm ≠ .send m) : bs = [] := by
  have hown := h.own
  generalize l.sending i = x, l'.sending i = y, l'.turnstile = t' at hown
  cases hown with
  | send _ => exact absurd rfl (hlm _)
  | _ => rfl

/-- The frame that the move of a task completes in a stream. -/
theorem framesInto_completions : framesInto d (b.completions b' t seen) =
    (b.lane d).completed (b'.lane d) t (streamOf d seen) := by
  rcases hdelivery : b.delivery? t with _ | delivery
  · rw [completions, hdelivery, Lane.completed, sending_of_none hdelivery]
    rfl
  · rw [completions, hdelivery, framesInto, List.filterMap_map]
    by_cases hd : delivery.target = d
    · subst hd
      simp [Deed.frame?, Function.comp_def]
    · have hnone : (b.lane d).completed (b'.lane d) t (streamOf d seen) = [] := by
        rw [Lane.completed, sending_of_delivery hdelivery, if_neg hd]
      rw [hnone]
      simp [Deed.frame?, hd]

theorem framesInto_deeds : framesInto d (b.deeds (.move (.task t m)) b' seen) =
    (b.lane d).completed (b'.lane d) t (streamOf d seen) := by
  rw [← framesInto_completions]
  exact filterMap_deeds_task (fun _ _ _ => rfl) (fun _ _ => rfl) (fun _ _ _ => rfl) fun _ _ _ => rfl

/-- Only the moves of tasks complete frames. -/
theorem framesInto_deeds_of_ne (h : ∀ t m, e ≠ .move (.task t m)) :
    framesInto d (b.deeds e b' seen) = [] := by
  refine filterMap_deeds_eq_nil fun deed hnotes => ?_
  cases hnotes with
  | writes _ => exact absurd rfl (h _ _)
  | _ => rfl

/-- What is noted as written is what the task that acts at the stream has completed. -/
theorem framesInto_of_step {p : Pipe} {cancelled : Bool} {lm : LaneMove}
    (hstep : Lane.Step p cancelled t lm (b.lane d) (b'.lane d) (streamOf d seen))
    (hmove : ∀ mv, lm.move? = some mv → e = .move (.task t mv)) :
    framesInto d (b.deeds e b' seen) =
      (b.lane d).completed (b'.lane d) t (streamOf d seen) := by
  by_cases hlm : ∃ m, lm = .send m
  · obtain ⟨m, rfl⟩ := hlm
    rw [hmove _ rfl, framesInto_deeds]
  · rw [nil_of_step hstep fun m h => hlm ⟨m, h⟩, Lane.completed_nil]
    by_cases he : ∃ t' m, e = .move (.task t' m)
    · obtain ⟨t', m, rfl⟩ := he
      rw [framesInto_deeds, nil_of_step hstep fun m h => hlm ⟨m, h⟩, Lane.completed_nil]
    · exact framesInto_deeds_of_ne fun t' m h => he ⟨t', m, h⟩

/-- In a run in which nothing ends, no task stops forwarding. -/
theorem Calm.step_stop (h : b.Calm) : b.step (.task t .stop) = none := by
  by_contra hne
  obtain ⟨⟨b', seen⟩, hstep⟩ := Option.ne_none_iff_exists'.1 hne
  have hstopped {t : Task} {stopped : Bool} {o : FanOut} {b₁ : Broker} {r : FanOut ⊕ Nat}
      {seen : List Observation} (hf : Forwards b t stopped o .stop b₁ r seen) :
      stopped = true := by
    cases hf with
    | stops _ hs => exact hs
  cases step_cases hstep with
  | conn hk hserves =>
    cases hserves with
    | refuses _ hrefuses => cases hrefuses
    | ends _ _ hends => cases hends
    | forwards _ hs hf | forwarded _ hs hf =>
      -- The token of a session that publishes.
      have := hstopped hf
      rw [h.isCancelled (session?_eq_some.2 ⟨_, hk, hs⟩)] at this
      cases this
  | host _ hcalls =>
    cases hcalls with
    | publishes hf | published hf =>
      -- The token of the broker, for a message of the host.
      have := hstopped hf
      rw [h.shutdown] at this
      cases this

/-- **The stream of a session has taken what is noted as written**, and the part that has been
pushed of the frame that is being pushed, if the session lives, no write into its stream fails, and
no task stops in the middle of a frame. -/
theorem carries_of_never {maxPacketSize now : Nat}
    (h : (start maxPacketSize now).replay es = some (b, seen)) (hlives : Lives d b)
    (hwrites : (start maxPacketSize now).Never es (FailsWrite d))
    (hnever : (start maxPacketSize now).Never es (Interrupts d)) :
    (b.lane d).Carries (framesInto d ((start maxPacketSize now).history es)) (streamOf d seen) := by
  refine replay_induction (P := fun es b seen => Lives d b →
    (start maxPacketSize now).Never es (FailsWrite d) →
    (start maxPacketSize now).Never es (Interrupts d) →
    (b.lane d).Carries (framesInto d ((start maxPacketSize now).history es)) (streamOf d seen))
    ?_ ?_ h hlives hwrites hnever
  · intro _ _ _
    refine Lane.carries_nil fun t frame left hp => ?_
    cases t <;> cases hp
  · intro es e b₁ seen₁ b₂ more hrun hnext ih hlives hwrites hnever
    obtain ⟨hw, hexclusive⟩ := exclusive_of_replay hrun
    -- A session that lives now has lived all along, so the assumptions hold of the run before.
    have hlives₁ := hlives.of_evolves (next?_evolves hw.greets hnext)
    have hfront := List.prefix_append es [e]
    obtain ⟨t, lm, p, cancelled, hstep, hmove, hmeets⟩ := next?_stepsAt hw hnext d
    rw [history_concat hrun hnext, framesInto, List.filterMap_append, streamOf_append]
    show (b₂.lane d).Carries (framesInto d _ ++ framesInto d _) _
    rw [framesInto_of_step hstep hmove]
    refine (ih hlives₁ (hwrites.upTo hfront) (hnever.upTo hfront)).step (hexclusive d) hstep
      fun htears => ?_
    -- What is left of a frame is torn only by a task that stops in the middle of it.
    exact hnever es e b₁ seen₁ (List.prefix_refl _) hrun (interrupts_of_tears (hexclusive d) hlives₁
      (hwrites es e b₁ seen₁ (List.prefix_refl _) hrun) hstep hmove hmeets htears)

/-- In a run in which nothing ends, no write fails. -/
theorem Calm.never_failsWrite {maxPacketSize now : Nat}
    (h : (start maxPacketSize now).replay es = some (b, seen)) (hcalm : b.Calm) :
    (start maxPacketSize now).Never es (FailsWrite d) := by
  rintro es₁ e b₁ seen₁ hp hrun ⟨t, delivery, left, k, -, hdelivery, rfl, -, hk, hclosed⟩
  have hcalm₁ := hcalm.of_evolves (replay_evolves_since (greets_start _ _) h
    ((List.prefix_append _ _).trans hp) hrun)
  have hsession := (exclusive_of_replay hrun).1.targets t delivery hdelivery
  rw [session?, hk] at hsession
  rw [hcalm₁.stream _ k hk hsession] at hclosed
  cases hclosed

/-- In a run in which nothing ends, no task stops in the middle of a frame. -/
theorem Calm.never_interrupts {maxPacketSize now : Nat}
    (h : (start maxPacketSize now).replay es = some (b, seen)) (hcalm : b.Calm) :
    (start maxPacketSize now).Never es (Interrupts d) := by
  rintro es₁ e b₁ seen₁ hp hrun ⟨t, delivery, part, left, rfl, -⟩
  have hcalm₁ := hcalm.of_evolves (replay_evolves_since (greets_start _ _) h
    ((List.prefix_append _ _).trans hp) hrun)
  obtain ⟨b₂, more, hnext⟩ := Machine.exists_next?_of_prefix h hp hrun
  exact absurd (hcalm₁.step_stop.symm.trans hnext) nofun

/-- The streams have taken what is noted as written. -/
theorem carries_of_replay {maxPacketSize now : Nat}
    (h : (start maxPacketSize now).replay es = some (b, seen)) (hcalm : b.Calm) (d : ConnId) :
    (b.lane d).Carries (framesInto d ((start maxPacketSize now).history es)) (streamOf d seen) :=
  carries_of_never h (fun _ => hcalm.isCancelled) (Calm.never_failsWrite h hcalm)
    (Calm.never_interrupts h hcalm)

/-! ### What a round comes to -/

variable {f : Frame} {p : Publish} {registered : List ConnId} {looks : List (ConnId × Bool)}
  {r : Round} {rounds : List Round}

theorem copies_append : copies c d (log ++ log') = copies c d log ++ copies c d log' :=
  List.filterMap_append

theorem copies_look {look : ConnId × Bool} :
    copies c d (Round.look c f look) = if look = (d, true) then [f.bytes] else [] := by
  rcases look with ⟨d', _ | _⟩
  · simp [copies, Round.look, Deed.copy?]
  · by_cases hd : d' = d <;> simp [copies, Round.look, List.filterMap_cons, Deed.copy?, hd]

/-- Whoever is looked at once gets one copy if it wants the message, and none otherwise. -/
theorem copies_looks (h : (looks.map Prod.fst).Nodup) :
    copies c d (looks.flatMap (Round.look c f)) = if (d, true) ∈ looks then [f.bytes] else [] := by
  induction looks with
  | nil => rfl
  | cons look looks ih =>
    rw [List.map_cons, List.nodup_cons] at h
    rw [List.flatMap_cons, copies_append, copies_look, ih h.2]
    by_cases hlook : look = (d, true)
    · subst hlook
      have hd : (d, true) ∉ looks := fun hmem => h.1 (List.mem_map_of_mem hmem)
      simp [hd]
    · simp [hlook, Ne.symm hlook]

/-- **A round writes one copy for every session that wants the message**, and none for the
others. -/
theorem copies_round (h : r.Sound c) : copies c d (r.deeds c) = (r.copy? d).toList := by
  rw [Round.deeds, Round.begun, copies_append]
  show copies c d (r.looks.flatMap (Round.look c r.frame)) ++ [] = _
  rw [copies_looks h.nodup, List.append_nil, Round.copy?]
  split_ifs <;> rfl

theorem copies_rounds (h : ∀ r ∈ rounds, r.Sound c) :
    copies c d (rounds.flatMap (Round.deeds c)) = rounds.filterMap (Round.copy? d) := by
  rw [List.filterMap_eq_flatMap_toList]
  induction rounds with
  | nil => rfl
  | cons r rounds ih =>
    rw [List.forall_mem_cons] at h
    rw [List.flatMap_cons, List.flatMap_cons, copies_append, copies_round h.1, ih h.2]

/-- The looks of a round are about the sessions and the streams only. -/
theorem filterMap_looks {α : Type} {g : Deed → Option α}
    (hreaches : ∀ d wanted, g (.reaches c d wanted) = none)
    (hwrites : ∀ d bs, g (.writes (.conn c) d bs true) = none) :
    (looks.flatMap (Round.look c f)).filterMap g = [] := by
  refine filterMap_eq_nil fun deed hdeed => ?_
  obtain ⟨⟨d, wanted⟩, -, hdeed⟩ := List.mem_flatMap.1 hdeed
  cases wanted with
  | false =>
    rw [List.mem_singleton.1 hdeed]
    exact hreaches d false
  | true =>
    rcases List.mem_pair.1 hdeed with rfl | rfl
    · exact hreaches d true
    · exact hwrites d _

/-- A round takes one message. -/
theorem messagesOf_rounds :
    messagesOf c (rounds.flatMap (Round.deeds c)) = rounds.map fun r => (r.frame, r.packet) := by
  have hround (r : Round) : messagesOf c (r.deeds c) = [(r.frame, r.packet)] := by
    rw [Round.deeds, Round.begun, messagesOf, List.filterMap_append, List.filterMap_cons,
      List.filterMap_cons, filterMap_looks (fun _ _ => rfl) fun _ _ => rfl]
    simp [Deed.taken?]
  rw [messagesOf, List.filterMap_flatMap, List.map_eq_flatMap]
  exact congrArg (rounds.flatMap ·) (funext hround)

/-- A round gives the host one message. -/
theorem handed_rounds : (rounds.flatMap (Round.deeds c)).filterMap (Deed.handed? c) =
    rounds.map fun r => (r.clientId, r.packet.message) := by
  have hround (r : Round) :
      (r.deeds c).filterMap (Deed.handed? c) = [(r.clientId, r.packet.message)] := by
    rw [Round.deeds, Round.begun, List.filterMap_append, List.filterMap_cons, List.filterMap_cons,
      filterMap_looks (fun _ _ => rfl) fun _ _ => rfl]
    simp [Deed.handed?]
  rw [List.filterMap_flatMap, List.map_eq_flatMap]
  exact congrArg (rounds.flatMap ·) (funext hround)

/-! ### What the host is given -/

theorem handed_handings : (handings seen).filterMap (Deed.handed? c) = handed c seen := by
  rw [handings, handed, List.filterMap_filterMap]
  congr 1
  funext o
  cases o <;> rfl

theorem handed_deeds : (b.deeds e b' seen).filterMap (Deed.handed? c) = handed c seen := by
  unfold deeds
  rw [List.filterMap_append, handed_handings]
  split
  · rw [filterMap_arrivals fun _ => rfl]
    rfl
  · simp only [List.filterMap_append]
    rw [filterMap_takings fun _ _ => rfl, filterMap_completions fun _ _ _ => rfl,
      filterMap_beginnings fun _ => rfl, filterMap_reachings fun _ _ => rfl]
    rfl
  · rw [filterMap_completions fun _ _ _ => rfl]
    rfl
  · rfl

/-- The host is given what is noted. -/
theorem handed_of_replay (h : b.replay es = some (b', seen)) :
    (b.history es).filterMap (Deed.handed? c) = handed c seen := by
  refine replay_induction
    (P := fun es _ seen => (b.history es).filterMap (Deed.handed? c) = handed c seen) rfl ?_ h
  intro es e b₁ seen₁ b₂ more hrun hnext ih
  rw [history_concat hrun hnext, List.filterMap_append, ih, handed_deeds]
  exact List.filterMap_append.symm

/-! ### A whole run -/

/-- What is noted of the messages of a session is in what it has done to forward them. -/
theorem filterMap_forwardings {α : Type} {g : Deed → Option α}
    (hg : ∀ deed, deed.publisher? ≠ some c → g deed = none) :
    (forwardings c log).filterMap g = log.filterMap g := by
  rw [forwardings, List.filterMap_filter]
  congr 1
  funext deed
  by_cases hdeed : deed.publisher? = some c
  · simp [hdeed]
  · simp [hdeed, hg deed hdeed]

/-- How a session has forwarded its messages: these in full, and behind them what belongs to the one
that it is at. -/
structure Forwarded (c : ConnId) (b : Broker) (log : List Deed) (seen : List Observation)
    (rounds : List Round) (part : List Deed) : Prop where
  sound : ∀ r ∈ rounds, r.Sound c
  stage : Stage c (b.phase? c) part
  /-- One round after the other: each ends before the next one begins. -/
  notes : forwardings c log = rounds.flatMap (Round.deeds c) ++ part
  /-- The messages are those that the session has taken, in the same order. -/
  messages : messagesOf c log = rounds.map (fun r => (r.frame, r.packet)) ++ messagesOf c part
  /-- Into each stream goes one copy of each message that was wanted there, in the same order. -/
  copies : ∀ d, copies c d log = rounds.filterMap (Round.copy? d) ++ copies c d part
  /-- The host has been given each message once, in the same order. -/
  handed : handed c seen = rounds.map fun r => (r.clientId, r.packet.message)

theorem messagesOf_forwardings : messagesOf c (forwardings c log) = messagesOf c log := by
  refine filterMap_forwardings fun deed hdeed => ?_
  cases deed with
  | takes c' f p =>
    refine if_neg ?_
    rintro rfl
    exact hdeed rfl
  | _ => rfl

theorem copies_forwardings : copies c d (forwardings c log) = copies c d log := by
  refine filterMap_forwardings fun deed hdeed => ?_
  cases deed with
  | writes t d' bs forwarded =>
    cases t with
    | host n => rfl
    | conn c' =>
      cases forwarded with
      | false => rfl
      | true =>
        refine if_neg ?_
        rintro ⟨rfl, -⟩
        exact hdeed rfl
  | _ => rfl

theorem handed_forwardings :
    (forwardings c log).filterMap (Deed.handed? c) = log.filterMap (Deed.handed? c) := by
  refine filterMap_forwardings fun deed hdeed => ?_
  cases deed with
  | hands c' clientId m =>
    refine if_neg ?_
    rintro rfl
    exact hdeed rfl
  | _ => rfl

/-- As long as a message is on its way, the host is not given it. -/
theorem Stage.handed {x : Option Phase} (h : Stage c x part) :
    part.filterMap (Deed.handed? c) = [] := by
  cases h with
  | rests _ | answers _ _ => rfl
  | @forwards f p registered looks o _ =>
    rw [List.filterMap_append, Round.begun, List.filterMap_cons, List.filterMap_cons,
      filterMap_looks (fun _ _ => rfl) fun _ _ => rfl]
    rcases o.current with _ | d <;> rfl

theorem InRounds.forwarded (h : InRounds c b log)
    (hhanded : log.filterMap (Deed.handed? c) = handed c seen) :
    ∃ rounds part, Forwarded c b log seen rounds part := by
  obtain ⟨rounds, part, hsound, hstage, hlog⟩ := h
  refine ⟨rounds, part, hsound, hstage, hlog, ?_, fun d => ?_, ?_⟩
  · rw [← messagesOf_forwardings, hlog, messagesOf_append, messagesOf_rounds]
  · rw [← copies_forwardings, hlog, copies_append, copies_rounds hsound]
  · rw [← hhanded, ← handed_forwardings, hlog, List.filterMap_append, hstage.handed,
      handed_rounds, List.append_nil]

/-- Two clients connect, the first one subscribes, and the second one sends a message. It goes to
the first client and not to the second one, and then to the host. -/
def forwardedMessage : List Event :=
  let connect : Bytes := [0x10, 13, 0, 4, 0x4d, 0x51, 0x54, 0x54, 4, 2, 0, 60, 0, 1, 0x73]
  [.input (.opens "s" 64), .input (.peerWrites 0 connect)] ++ answering 0 ++
    [.input (.peerWrites 0 [0x82, 6, 0, 1, 0, 1, 0x74, 0])] ++ answering 0 ++
    [.input (.opens "p" 64), .input (.peerWrites 1 connect)] ++ answering 1 ++
    [.input (.peerWrites 1 [0x30, 8, 0, 1, 0x74, 1, 2, 3, 4, 5])] ++
    [.receive, .dispatch, .reach, .send .enter, .send .layOut, .send .push, .reach, .reach].map
      fun m => .move (.task (.conn 1) m)

end Broker
end Mqtt
