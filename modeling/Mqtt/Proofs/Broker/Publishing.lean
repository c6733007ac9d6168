import Mqtt.Proofs.Broker.Routing
import Mqtt.Proofs.Packet.RoundTrip
/-!
# Messages of the host

A message that the host publishes is written as a packet, read again as a frame, and laid out again
for each session that wants it. So the same bytes are made three times over, and four bounds have to
agree: a topic that is accepted fits behind its two-byte length, so a body that is too long is the
only fault left (`publishFrame_eq`); a body that is not too long reads as one frame; and that frame
is laid out as it was read.

What a stream takes of the message is another matter. `putBy` says that whoever is counted has got
the bytes of the frame from the call, and no others. That they stand in one piece in the stream
follows from the end of the stream: behind whatever has been torn before, it is what has been pushed
of the frame that is being pushed (`trails_of_replay`).
-/

namespace Mqtt

/-! ### The bytes of a message -/

/-- An accepted topic fits behind its two-byte length. -/
theorem Topic.utf8ByteSize_le_of_validate {topic : String} (h : Topic.validate topic = .ok ()) :
    topic.utf8ByteSize ≤ Bytes.fieldLimit := by
  by_contra hlong
  have hlong : 65535 < topic.utf8ByteSize := Nat.not_le.1 hlong
  unfold validate checkText at h
  split_ifs at h <;> nomatch h

/-- What is wrong with a topic is not that a packet does not read as a frame. -/
theorem Topic.validate_ne_unframed (topic : String) :
    Topic.validate topic ≠ violate .unframedPublish := by
  intro h
  unfold validate checkText at h
  split_ifs at h <;> nomatch h

namespace Packet

variable {v : Version} {topic : String} {payload : Bytes}

/-- Of a packet that would be well-formed with a shorter body, that body is told. -/
theorem toBytes_of_tooLarge {p : Packet} (hsound : p.Sound)
    (hfields : ∀ bs ∈ p.fields, bs.length ≤ Bytes.fieldLimit)
    (hlong : RemainingLength.limit < (p.body v).length) :
    p.toBytes v = .error (.violation (.bodyTooLarge p.kind (p.body v).length)) := by
  obtain ⟨slot, hslot, hw₁⟩ := written_reserve .empty
  obtain ⟨w₂, hrun, hw₂⟩ := (encode_writes v p).appends ⟨hsound, hfields⟩
    ((Writer.empty.makeRoom slotSize).commit slotSize)
  have hsize : w₂.size - Writer.empty.size - slotSize = (p.body v).length := by
    rw [Writer.size_eq_length, Writer.size_eq_length, hw₂, hw₁]
    simp only [List.length_append, hslot]
    omega
  rw [toBytes, run_writeFrame, hrun]
  dsimp only
  rw [hsize, if_pos hlong]

/-- What is written of a well-formed packet reads as its frame. -/
theorem parse_bytes_frame {p : Packet} (h : p.WellFormed v) :
    Frame.parse (p.frame v).bytes = .ok (some (p.frame v, (p.frame v).bytes.length)) := by
  have := Frame.parse_bytes_append (f := p.frame v) h.size []
  rwa [List.append_nil] at this

theorem length_body_plain :
    ((publish (.plain topic payload)).body v).length =
      2 + topic.utf8ByteSize + payload.length := by
  simp only [body, Publish.body, Publish.plain, Bytes.ofOption, Option.elim, Bytes.field,
    List.length_append, Bytes.length_ofUInt16, Bytes.length_ofText, List.length_nil, Nat.add_zero]

theorem fields_plain (h : Topic.validate topic = .ok ()) :
    ∀ bs ∈ (publish (.plain topic payload)).fields, bs.length ≤ Bytes.fieldLimit := by
  intro bs hbs
  rw [List.mem_singleton.1 hbs]
  exact Topic.utf8ByteSize_le_of_validate h

theorem wellFormed_plain (h : Topic.validate topic = .ok ())
    (hn : 2 + topic.utf8ByteSize + payload.length ≤ RemainingLength.limit) :
    (publish (.plain topic payload)).WellFormed v where
  sound := rfl
  fields := fields_plain h
  size := by
    rw [length_body_plain]
    exact hn

/-- A message has the same bytes in every version. -/
theorem toBytes_plain (h : Topic.validate topic = .ok ())
    (hn : 2 + topic.utf8ByteSize + payload.length ≤ RemainingLength.limit) :
    (publish (.plain topic payload)).toBytes v =
      .ok ((publish (.plain topic payload)).frame .v311).bytes :=
  toBytes_eq_ok.2 ⟨wellFormed_plain h hn, rfl⟩

end Packet

namespace Broker

variable {b b' b₀ b₁ : Broker} {c : ConnId} {t : Task} {m : Move} {e : Event}
  {es es₁ : List Event} {seen seen₁ more : List Observation} {o : FanOut} {f : Frame}
  {topic : String} {payload : Bytes}

/-- **A message has a frame unless its topic is refused or its body is too long.** -/
theorem publishFrame_eq (topic : String) (payload : Bytes) :
    publishFrame topic payload =
      match Topic.validate topic with
      | .error e => .error e
      | .ok () =>
        let n := 2 + topic.utf8ByteSize + payload.length
        if RemainingLength.limit < n then violate (.bodyTooLarge .publish n)
        else .ok ((Packet.publish (.plain topic payload)).frame .v311) := by
  unfold publishFrame
  rcases htopic : Topic.validate topic with e | ⟨⟩
  · rfl
  · show ((Packet.publish (.plain topic payload)).toBytes .v311 >>= _) = _
    dsimp only
    by_cases hn : RemainingLength.limit < 2 + topic.utf8ByteSize + payload.length
    · -- The frame is laid out before its length is checked, and only the length can be wrong.
      have hbytes := Packet.toBytes_of_tooLarge (v := .v311)
        (p := .publish (.plain topic payload)) rfl (Packet.fields_plain htopic)
        (by rw [Packet.length_body_plain]; exact hn)
      rw [hbytes, if_pos hn, Packet.length_body_plain]
      rfl
    · have hsize := Nat.not_lt.1 hn
      rw [Packet.toBytes_plain htopic hsize, if_neg hn]
      -- The bytes are parsed again, which gives back the frame that they were laid out from.
      show (Frame.parse ((Packet.publish (.plain topic payload)).frame .v311).bytes >>= _) = _
      rw [Packet.parse_bytes_frame (Packet.wellFormed_plain htopic hsize)]
      rfl

/-! ### The end of a stream -/

/-- **At every moment of a run**, what has been pushed of a frame is the end of the stream. -/
theorem trails_of_replay {maxPacketSize now : Nat}
    (h : (start maxPacketSize now).replay es = some (b, seen)) (c : ConnId) :
    (b.lane c).Trails (streamOf c seen) := by
  refine replay_induction (P := fun _ b seen => (b.lane c).Trails (streamOf c seen)) ?_ ?_ h
  · intro t part left hp
    have hnone : ((start maxPacketSize now).lane c).sending t = none := by cases t <;> rfl
    rw [Lane.Pushes, hnone] at hp
    cases hp
  · intro es e b₁ seen₁ b₂ more hrun hnext ih
    obtain ⟨hw, hexclusive⟩ := exclusive_of_replay hrun
    obtain ⟨t, lm, p, cancelled, hstep, -, -⟩ := next?_stepsAt hw hnext c
    rw [streamOf_append]
    exact ih.step (hexclusive c) hstep

/-- A write that succeeds ends the stream with the frame. -/
theorem suffix_of_delivers {d : Delivery} {bs put : Bytes} (hd : b.delivery? t = some d)
    (htrails : (b.lane d.target).Trails (streamOf d.target seen)) (hput : d.HasPut put)
    (hhas : ∀ put, d.HasPut put → d.frame = .ok (put ++ bs)) :
    ∃ frame, d.frame = .ok frame ∧ frame <:+ streamOf d.target seen ++ bs := by
  refine ⟨put ++ bs, hhas put hput, List.suffix_append_self_iff.2 ?_⟩
  rw [Delivery.HasPut] at hput
  split at hput
  · rw [hput]
    exact List.nil_suffix
  · rw [hput]
    exact List.nil_suffix
  · next left hstate => exact htrails t put left (pushes_iff.2 ⟨d, hd, rfl, hput, hstate⟩)

theorem delivery?_of_fanOut? {d : Delivery} (ho : b.fanOut? t = some o)
    (hcurrent : o.current = some d) : b.delivery? t = some d := by
  rw [delivery?, work?_of_fanOut? ho]
  exact hcurrent

/-- **Whoever is counted has got the frame in one piece**, whatever else stands in its stream. -/
theorem infix_of_outcomes {maxPacketSize now : Nat} {es₀ : List Event} {seen₀ : List Observation}
    (h₀ : (start maxPacketSize now).replay es₀ = some (b₀, seen₀))
    (hbegins : b₀.fanOut? t = some (b₀.fanOut topic f)) (h : b₀.replay es = some (b, seen))
    (hforwards : b₀.Always es fun b _ => b.isForwarding t = true) :
    ∀ c, (c, .ok ()) ∈ b₀.outcomes t es →
      ∃ frame, f.toBytes = .ok frame ∧ frame <:+: streamOf c (seen₀ ++ seen) := by
  refine replay_induction (P := fun es _ seen =>
    (b₀.Always es fun b _ => b.isForwarding t = true) → ∀ c, (c, .ok ()) ∈ b₀.outcomes t es →
      ∃ frame, f.toBytes = .ok frame ∧ frame <:+: streamOf c (seen₀ ++ seen)) ?_ ?_ h hforwards
  · exact fun _ _ => nofun
  intro es e b₁ seen₁ b₂ more hrun hnext ih hforwards c hc
  have hforwards₁ := hforwards.upTo (List.prefix_append es [e])
  rw [outcomes, collect_concat hrun hnext, List.mem_append] at hc
  rw [← List.append_assoc, streamOf_append]
  rcases hc with hc | hc
  · obtain ⟨frame, hframe, hinfix⟩ := ih hforwards₁ c hc
    exact ⟨frame, hframe, hinfix.trans (List.prefix_append _ _).isInfix⟩
  · -- The write has just ended.
    obtain ⟨o, m, ho, rfl, hx⟩ := noted_eq_some.1 (Option.mem_toList.1 hc)
    obtain ⟨o', ho', hrouted⟩ := routed_of_always (exclusive_of_replay h₀).1.greets
      (registered_of_replay h₀).nodup hbegins hrun hforwards₁
    obtain rfl := Option.some.inj (ho.symm.trans ho')
    obtain ⟨-, r, -, bs, -, hprogress, -, hstream, -⟩ := progress_of_step ho hnext
    rw [hx] at hprogress
    generalize b₁.lookOf o m = look, o.attempt? m = attempt at hprogress
    cases hprogress with
    | @delivers d _ hcurrent hhas =>
      obtain ⟨hframe, hput⟩ := hrouted.current d hcurrent
      have hrun₁ : (start maxPacketSize now).replay (es₀ ++ es) = some (b₁, seen₀ ++ seen₁) :=
        Machine.replay_append h₀ hrun
      obtain ⟨frame, hd, hsuffix⟩ := suffix_of_delivers (delivery?_of_fanOut? ho hcurrent)
        (trails_of_replay hrun₁ d.target) hput hhas
      have htaken : streamOf d.target more = bs := by
        rw [hstream, FanOut.at?, hcurrent]
        exact if_pos rfl
      rw [htaken]
      exact ⟨frame, hframe.symm.trans hd, hsuffix.isInfix⟩

/-! ### The answers of a call -/

/-- While a message goes its way, nothing is seen but what the streams take. -/
theorem Forwards.not_answered {stopped : Bool} {r : FanOut ⊕ Nat}
    (h : Forwards b t stopped o m b' r seen) (k : Nat) (a : HostAnswer) :
    .answered k a ∉ seen := by
  have hsends {d : Delivery} {m : SendMove} {b₁ : Broker} {r : Sending ⊕ Except Fault Unit}
      {seen : List Observation} (h : Sends b t d m b₁ r seen) : .answered k a ∉ seen := by
    cases h with
    | intro _ _ _ _ =>
      unfold wrote
      split <;> simp
  cases h with
  | exhausts _ _ | passes _ _ _ | reaches _ _ _ | stops _ _ => exact List.not_mem_nil
  | goesOn _ h | delivers _ h | fails _ h => exact hsends h

/-- A call that publishes answers when it is done, and with the number of the writes that have
succeeded. -/
theorem answers_of_publish {call : Nat} (ho : b.fanOut? (.host call) = some o)
    (h : b.step (.task (.host call) m) = some (b', more)) :
    (∀ k a, .answered k a ∈ more → k = call ∧ a = .delivered o.delivered ∧
        b'.isForwarding (.host call) = false) ∧
      (b'.isForwarding (.host call) = false →
        .answered call (.delivered o.delivered) ∈ more) := by
  have hwork := work?_of_fanOut? ho
  cases step_cases h with
  | @host _ hostCall _ _ _ hcall hcalls =>
    have hcallWork : hostCall.work? = some (.spread o) := (work?_of_call hcall).symm.trans hwork
    cases hcalls with
    | @publishes _ o' _ b₂ _ hforwards =>
      cases hcallWork
      obtain ⟨old, hold⟩ := exists_call_of_work? ((hforwards.work? (.host call)).trans hwork)
      -- The call still forwards, and says nothing.
      have hgoesOn : (b₂.setCall call (.publish o')).isForwarding (.host call) = true := by
        rw [isForwarding_iff, fanOut?, work?_setCall hold, if_pos rfl]
        exact ⟨o', rfl⟩
      refine ⟨fun k a ha => absurd ha (hforwards.not_answered k a), fun hidle => ?_⟩
      rw [hgoesOn] at hidle
      cases hidle
    | @published _ _ b₂ count seen hforwards =>
      cases hcallWork
      -- The number is what has been counted, whether the list is exhausted or the call stops.
      have hcount : count = o.delivered := by
        generalize hr : (Sum.inr count : FanOut ⊕ Nat) = r at hforwards
        cases hforwards <;> cases hr <;> rfl
      have hdone : (b₂.dropCall call).isForwarding (.host call) = false := by
        rw [isForwarding, work?_dropCall, if_pos rfl]
      subst hcount
      refine ⟨fun k a ha => ?_, fun _ => List.mem_append_right _ (List.mem_singleton_self _)⟩
      rcases List.mem_append.1 ha with ha | ha
      · exact absurd ha (hforwards.not_answered k a)
      · cases List.mem_singleton.1 ha
        exact ⟨rfl, rfl, hdone⟩
    | writes _ | written _ | served _ => cases hcallWork

/-! ### A message from its beginning to its end -/

/-- What comes of a message while the call that publishes it forwards it: `bs` are its bytes,
`before` has been seen before the call, and `seen` during it. -/
structure Published (call : Nat) (bs : Bytes) (b₀ : Broker) (before : List Observation)
    (es : List Event) (b : Broker) (seen : List Observation) : Prop where
  /-- Whoever is counted has got these bytes and no others from the call, and in one piece. -/
  written : ∀ c, (c, .ok ()) ∈ b₀.outcomes (.host call) es →
    putBy (.host call) c seen = bs ∧ bs <:+: streamOf c (before ++ seen)
  /-- The call answers when it is done, and not with a fault but with the number of those who are
  counted. -/
  answers : ∀ m b' more, b.next? (.move (.task (.host call) m)) = some (b', more) →
    (∀ k a, .answered k a ∈ more → k = call ∧
        a = .delivered ((b₀.outcomes (.host call) es).countP fun x => x.2.isOk) ∧
        b'.isForwarding (.host call) = false) ∧
      (b'.isForwarding (.host call) = false → .answered call
        (.delivered ((b₀.outcomes (.host call) es).countP fun x => x.2.isOk)) ∈ more)

theorem published_of_replay {maxPacketSize now call : Nat} {bs : Bytes}
    (h₁ : (start maxPacketSize now).replay es₁ = some (b₁, seen₁))
    (hnext : b₁.next? e = some (b₀, []))
    (hbegins : b₀.fanOut? (.host call) = some (b₀.fanOut topic f)) (hbytes : f.toBytes = .ok bs)
    (h : b₀.replay es = some (b, seen))
    (hforwards : b₀.Always es fun b _ => b.isForwarding (.host call) = true) :
    Published call bs b₀ seen₁ es b seen := by
  have h₀ : (start maxPacketSize now).replay (es₁ ++ [e]) = some (b₀, seen₁) :=
    replay_concat_eq_some.2 ⟨b₁, seen₁, [], h₁, hnext, (List.append_nil _).symm⟩
  obtain ⟨o, ho, hrouted⟩ := routed_of_always (exclusive_of_replay h₀).1.greets
    (registered_of_replay h₀).nodup hbegins h hforwards
  constructor
  · intro c hc
    obtain ⟨frame, hframe, hinfix⟩ := infix_of_outcomes h₀ hbegins h hforwards c hc
    obtain rfl := Except.ok.inj (hbytes.symm.trans hframe)
    exact ⟨(Except.ok.inj (hbytes.symm.trans (hrouted.written c hc))).symm, hinfix⟩
  · intro m b' more hmove
    rw [← hrouted.delivered]
    exact answers_of_publish ho hmove

/-- A call to publish fails at once, and changes nothing, or it begins to forward the frame. -/
theorem next?_publishes (b : Broker) (call : Nat) (topic : String) (payload : Bytes) :
    b.next? (.input (.publishes call topic payload)) = some
      (match publishFrame topic payload with
        | .error f => (b, [.answered call (.finished (.error f))])
        | .ok f => (b.addCall call (.publish (b.fanOut topic f)), [])) := rfl

theorem fanOut?_addCall_publish (topic : String) (f : Frame) {call : Nat}
    (hfree : b.call? call = none) :
    (b.addCall call (.publish (b.fanOut topic f))).fanOut? (.host call) =
      some ((b.addCall call (.publish (b.fanOut topic f))).fanOut topic f) := by
  rw [fanOut?, work?_addCall, if_pos ⟨rfl, hfree⟩]
  rfl

/-- **What the host publishes is delivered as it is written, or nothing of it is.** Wherever a
broker is in a run, publishing fails if the topic is refused or the body is longer than a remaining
length can say, and only then; nothing is written then, and the broker stays as it is. What was
written always reads as a frame. The frame is that of a message at level 0 that is neither retained
nor a repetition, in every version, and it is laid out as it was written. Under a number that is
free, the call answers with how many writes of it have succeeded, and whoever is counted has got
just these bytes. -/
theorem publishes_of_replay {maxPacketSize now : Nat}
    (h₁ : (start maxPacketSize now).replay es₁ = some (b₁, seen₁)) (call : Nat) (topic : String)
    (payload : Bytes) :
    let n := 2 + topic.utf8ByteSize + payload.length
    let p := Packet.publish ⟨topic, payload, .atMostOnce, false, false, none⟩
    let e := Event.input (.publishes call topic payload)
    ((∃ f, b₁.next? e = some (b₁, [.answered call (.finished (.error f))])) ↔
        (∃ f, Topic.validate topic = .error f) ∨ 268435455 < n) ∧
      publishFrame topic payload ≠ violate .unframedPublish ∧
      (Topic.validate topic = .ok () → n ≤ 268435455 → ∃ bs f,
        (∀ v, p.toBytes v = .ok bs) ∧ Frame.parse bs = .ok (some (f, bs.length)) ∧
        publishFrame topic payload = .ok f ∧ f.toBytes = .ok bs ∧
        (∀ v, Packet.decode v f = .ok p) ∧
        ∃ b₀, b₁.next? e = some (b₀, []) ∧
          (b₁.call? call = none → b₀.fanOut? (.host call) = some (b₀.fanOut topic f) ∧
            ∀ es b seen, b₀.replay es = some (b, seen) →
              (b₀.Always es fun b _ => b.isForwarding (.host call) = true) →
              Published call bs b₀ seen₁ es b seen)) := by
  intro n p e
  have hframe := publishFrame_eq topic payload
  have hnext := b₁.next?_publishes call topic payload
  rcases htopic : Topic.validate topic with fault | ⟨⟩
  · -- The topic is refused.
    rw [htopic] at hframe
    rw [hframe] at hnext ⊢
    refine ⟨iff_of_true ⟨fault, hnext⟩ (.inl ⟨fault, rfl⟩), fun heq => ?_, nofun⟩
    cases heq
    exact Topic.validate_ne_unframed topic htopic
  rw [htopic] at hframe
  by_cases hn : RemainingLength.limit < n
  · -- The body is too long.
    replace hframe := hframe.trans (if_pos hn)
    rw [hframe] at hnext ⊢
    exact ⟨iff_of_true ⟨_, hnext⟩ (.inr hn), nofun, fun _ hle => absurd hn (Nat.not_lt.2 hle)⟩
  · have hsize : n ≤ RemainingLength.limit := Nat.not_lt.1 hn
    replace hframe := hframe.trans (if_neg hn)
    rw [hframe] at hnext ⊢
    have hwell (v : Version) : p.WellFormed v := Packet.wellFormed_plain htopic hsize
    have hlaid : (p.frame .v311).toBytes = .ok (p.frame .v311).bytes :=
      Frame.toBytes_eq_ok (hwell .v311).size
    refine ⟨iff_of_false ?_ ?_, nofun, fun _ _ => ?_⟩
    · rintro ⟨f, hf⟩
      rw [hnext] at hf
      exact nomatch (Prod.mk.inj (Option.some.inj hf)).2
    · rintro (⟨f, hf⟩ | hlong)
      · cases hf
      · exact hn hlong
    · refine ⟨_, _, fun v => Packet.toBytes_plain htopic hsize,
        Packet.parse_bytes_frame (hwell .v311), rfl, hlaid,
        fun v => Packet.decode_frame (hwell v), _, hnext, fun hfree => ?_⟩
      have hbegins := fanOut?_addCall_publish topic (p.frame .v311) hfree
      exact ⟨hbegins, fun es b seen h hforwards =>
        published_of_replay h₁ hnext hbegins hlaid h hforwards⟩

/-- A client connects and subscribes. -/
def oneSubscriber : List Event :=
  [.input (.opens "s" 64), .input (.peerWrites 0
      [0x10, 13, 0, 4, 0x4d, 0x51, 0x54, 0x54, 4, 2, 0, 60, 0, 1, 0x73])] ++ answering 0 ++
    [.input (.peerWrites 0 [0x82, 6, 0, 1, 0, 1, 0x74, 0])] ++ answering 0

/-- A call of the host writes a message to the client. -/
def deliveredMessage : List Event :=
  [.reach, .send .enter, .send .layOut, .send .push].map fun m => .move (.task (.host 7) m)

/-- The client gets the bytes of the message. -/
theorem publishes_oneSubscriber :
    ∃ b₁ seen₁ b₀ b seen, (start 1000 0).replay oneSubscriber = some (b₁, seen₁) ∧
      b₁.next? (.input (.publishes 7 "t" [1, 2, 3])) = some (b₀, []) ∧
      b₀.replay deliveredMessage = some (b, seen) ∧
      (0, .ok ()) ∈ b₀.outcomes (.host 7) deliveredMessage ∧
      putBy (.host 7) 0 seen = [0x30, 6, 0, 1, 0x74, 1, 2, 3] := by
  have hend : ((start 1000 0).replay oneSubscriber).bind (fun r₁ =>
      (r₁.1.next? (.input (.publishes 7 "t" [1, 2, 3]))).bind fun r₀ =>
        (r₀.1.replay deliveredMessage).map fun _ =>
          ((r₁.1.call? 7).isNone,
            decide (r₀.1.Always deliveredMessage fun b _ => b.isForwarding (.host 7) = true),
            decide ((0, .ok ()) ∈ r₀.1.outcomes (.host 7) deliveredMessage))) =
      some (true, true, true) := by
    decide +kernel
  have hbytes : (Packet.publish ⟨"t", [1, 2, 3], .atMostOnce, false, false, none⟩).toBytes .v311 =
      .ok [0x30, 6, 0, 1, 0x74, 1, 2, 3] := by
    decide +kernel
  obtain ⟨⟨b₁, seen₁⟩, h₁, hend⟩ := Option.bind_eq_some_iff.1 hend
  obtain ⟨⟨b₀, more⟩, h₀, hend⟩ := Option.bind_eq_some_iff.1 hend
  obtain ⟨⟨b, seen⟩, h, hend⟩ := Option.map_eq_some_iff.1 hend
  simp only [Prod.mk.injEq, Option.isNone_iff_eq_none] at hend
  obtain ⟨hfree, hforwards, hdelivered⟩ := hend
  obtain ⟨-, -, hvalid⟩ := publishes_of_replay h₁ 7 "t" [1, 2, 3]
  obtain ⟨bs, f, hwritten, -, -, -, -, b₀', hnext, hruns⟩ := hvalid (by decide +kernel) (by decide)
  obtain ⟨rfl, rfl⟩ := Prod.mk.inj (Option.some.inj (h₀.symm.trans hnext))
  have hmem := of_decide_eq_true hdelivered
  refine ⟨b₁, seen₁, b₀, b, seen, h₁, h₀, h, hmem, ?_⟩
  rw [(((hruns hfree).2 _ b seen h (of_decide_eq_true hforwards)).written 0 hmem).1]
  exact Except.ok.inj ((hwritten .v311).symm.trans hbytes)

end Broker
end Mqtt
