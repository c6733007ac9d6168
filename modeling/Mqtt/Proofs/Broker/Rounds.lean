import Mqtt.Proofs.Broker.Advances
/-!
# Forwarding, message by message

In a run in which nothing ends, what a session does to forward messages is one round after the other
(`inRounds_of_replay`). In a round it takes a message, looks at every session that is registered
when it begins, each once and itself among them, writes the frame to those that want the message,
and then gives the message to the host. What is behind the last round belongs to the message that
the session is at (`Stage`).
-/

namespace Mqtt

/-- A message that a session has forwarded. -/
structure Round where
  /-- The frame in which it came. -/
  frame : Frame
  packet : Publish
  /-- The sessions that were looked at, and whether each of them wanted the message. -/
  looks : List (ConnId × Bool)
  /-- The client id under which the host was given the message. -/
  clientId : String

/-- What is noted of a look at a session: that it is reached, and that it gets the frame if it wants
the message. -/
def Round.look (c : ConnId) (f : Frame) : ConnId × Bool → List Deed
  | (d, true) => [.reaches c d true, .writes (.conn c) d f.bytes true]
  | (d, false) => [.reaches c d false]

/-- What is noted of a message while it is forwarded: that it is taken, who was registered then, and
the looks so far. -/
def Round.begun (c : ConnId) (f : Frame) (p : Publish) (registered : List ConnId)
    (looks : List (ConnId × Bool)) : List Deed :=
  .takes c f p :: .begins c registered :: looks.flatMap (Round.look c f)

/-- What is noted of a round of the session `c`. -/
def Round.deeds (c : ConnId) (r : Round) : List Deed :=
  Round.begun c r.frame r.packet (r.looks.map Prod.fst) r.looks ++
    [.hands c r.clientId r.packet.message]

/-- A round is about a message that may be forwarded, the bytes that it writes are the frame in
which the message came, and it looks at the session itself, and at no session twice. -/
structure Round.Sound (c : ConnId) (r : Round) : Prop where
  valid : Topic.validate r.packet.topic = .ok ()
  frame : Frame.parse r.frame.bytes = .ok (some (r.frame, r.frame.bytes.length))
  itself : c ∈ r.looks.map Prod.fst
  nodup : (r.looks.map Prod.fst).Nodup

namespace Broker

variable {b b' : Broker} {c : ConnId} {f : Frame} {p : Publish} {o : FanOut} {x y : Option Phase}
  {registered : List ConnId} {looks : List (ConnId × Bool)} {part more : List Deed}

/-- The forwarding of a message, after these looks at the sessions that were registered. -/
structure Underway (c : ConnId) (f : Frame) (p : Publish) (registered : List ConnId)
    (looks : List (ConnId × Bool)) (o : FanOut) : Prop where
  valid : Topic.validate p.topic = .ok ()
  fits : f.body.length ≤ RemainingLength.limit
  topic : o.topic = p.topic
  frame : o.frame = .ok f.bytes
  current : ∀ d, o.current = some d → d.frame = .ok f.bytes
  all : registered =
    looks.map Prod.fst ++ (o.current.map Delivery.target).toList ++ o.left
  itself : c ∈ registered
  nodup : registered.Nodup

/-- What is noted of the message that the task of a session is at. -/
inductive Stage (c : ConnId) : Option Phase → List Deed → Prop
  /-- There is none. -/
  | rests {x : Option Phase} : (∀ φ ∈ x, φ.isBusy = false) → Stage c x []
  | answers {d : Delivery} {f : Frame} {p : Publish} : Topic.validate p.topic = .ok () →
    f.body.length ≤ RemainingLength.limit →
    Stage c (some (.replying d (.forward p f))) [.takes c f p]
  | forwards {f : Frame} {p : Publish} {registered : List ConnId} {looks : List (ConnId × Bool)}
    {o : FanOut} : Underway c f p registered looks o →
    Stage c (some (.forwarding p o)) (Round.begun c f p registered looks ++
      (o.current.map fun d => .reaches c d.target true).toList)

/-! ### One event -/

theorem underway_fanOut (hregistered : b.Registered) (hcalm : b.Calm)
    (hs : (b.session? c).isSome = true) (hvalid : Topic.validate p.topic = .ok ())
    (hfits : f.body.length ≤ RemainingLength.limit) :
    Underway c f p b.registry [] (b.fanOut p.topic f) where
  valid := hvalid
  fits := hfits
  topic := rfl
  frame := Frame.toBytes_eq_ok hfits
  current d hd := by cases hd
  all := rfl
  itself := by
    obtain ⟨s, hs⟩ := Option.isSome_iff_exists.1 hs
    rcases hregistered.lives c s hs with hc | hcancelled
    · exact hc
    · rw [hcalm.session c s hs] at hcancelled
      cases hcancelled
  nodup := hregistered.nodup

/-- A look at one more session. -/
theorem begun_append (look : ConnId × Bool) : Round.begun c f p registered (looks ++ [look]) =
    Round.begun c f p registered looks ++ Round.look c f look := by
  rw [Round.begun, List.flatMap_append, List.flatMap_singleton]
  rfl

/-- The next session does not want the message. -/
theorem Underway.pass {d : ConnId} {rest : List ConnId} (h : Underway c f p registered looks o)
    (hcurrent : o.current = none) (hleft : o.left = d :: rest) :
    Underway c f p registered (looks ++ [(d, false)]) { o with left := rest, current := none } :=
  { h with
    current := by
      rintro _ ⟨⟩
    all := by
      rw [h.all, hcurrent, hleft]
      simp }

/-- The next session wants the message. -/
theorem Underway.reach {d : ConnId} {rest : List ConnId} (h : Underway c f p registered looks o)
    (hcurrent : o.current = none) (hleft : o.left = d :: rest) :
    Underway c f p registered looks
      { o with left := rest, current := some ⟨d, o.frame, .starting⟩ } :=
  { h with
    current := by
      rintro _ ⟨⟩
      exact h.frame
    all := by
      rw [h.all, hcurrent, hleft]
      simp }

/-- The session that wants the message has not got all of it yet. -/
theorem Underway.goOn {d : Delivery} (h : Underway c f p registered looks o)
    (hcurrent : o.current = some d) (s : Sending) :
    Underway c f p registered looks { o with current := some { d with state := s } } :=
  { h with
    current := by
      rintro _ ⟨⟩
      exact h.current d hcurrent
    all := by
      rw [h.all, hcurrent]
      rfl }

/-- The session that wants the message has got it. -/
theorem Underway.deliver {d : Delivery} (h : Underway c f p registered looks o)
    (hcurrent : o.current = some d) :
    Underway c f p registered (looks ++ [(d.target, true)])
      { o with delivered := o.delivered + 1, current := none } :=
  { h with
    current := by
      rintro _ ⟨⟩
    all := by
      rw [h.all, hcurrent]
      simp }

/-- Everybody has been looked at. -/
theorem Underway.sound (h : Underway c f p registered looks o) (hcurrent : o.current = none)
    (hleft : o.left = []) (clientId : String) :
    registered = looks.map Prod.fst ∧ (Round.mk f p looks clientId).Sound c := by
  have hall : registered = looks.map Prod.fst := by
    rw [h.all, hcurrent, hleft]
    simp
  have hparse := Frame.parse_bytes_append h.fits []
  rw [List.append_nil] at hparse
  exact ⟨hall, h.valid, hparse, hall ▸ h.itself, hall ▸ h.nodup⟩

/-- A session without a message to forward. -/
theorem Stage.eq_nil (h : Stage c x part) (hx : ∀ φ ∈ x, φ.isBusy = false) : part = [] := by
  cases h with
  | rests _ => rfl
  | answers _ _ | forwards _ => cases hx _ rfl

theorem Stage.of_replying {d : Delivery} (h : Stage c (some (.replying d (.forward p f))) part) :
    Topic.validate p.topic = .ok () ∧ f.body.length ≤ RemainingLength.limit ∧
      part = [.takes c f p] := by
  cases h with
  | rests hx => cases hx _ rfl
  | answers hvalid hfits => exact ⟨hvalid, hfits, rfl⟩

theorem Stage.of_forwarding (h : Stage c (some (.forwarding p o)) part) :
    ∃ f registered looks, Underway c f p registered looks o ∧
      part = Round.begun c f p registered looks ++
        (o.current.map fun d => .reaches c d.target true).toList := by
  cases h with
  | rests hx => cases hx _ rfl
  | forwards hunder => exact ⟨_, _, _, hunder, rfl⟩

/-- **One event takes a session through its round**, and perhaps to the end of it. -/
theorem Stage.step (hregistered : b.Registered) (hcalm : b.Calm) (h : Stage c x part)
    (ha : Advances b c x more y) :
    ∃ (rounds : List Round) (part' : List Deed), (∀ r ∈ rounds, r.Sound c) ∧ Stage c y part' ∧
      part ++ more = rounds.flatMap (Round.deeds c) ++ part' := by
  have hgoesOn (hstage : Stage c y (part ++ more)) :
      ∃ (rounds : List Round) (part' : List Deed), (∀ r ∈ rounds, r.Sound c) ∧ Stage c y part' ∧
        part ++ more = rounds.flatMap (Round.deeds c) ++ part' :=
    ⟨[], part ++ more, nofun, hstage, rfl⟩
  have hidle {φ : Phase} (hφ : φ.isBusy = false) : ∀ φ' ∈ some φ, φ'.isBusy = false := by
    rintro _ ⟨⟩
    exact hφ
  cases ha with
  | stays => exact hgoesOn ((List.append_nil part).symm ▸ h)
  | rests hx hy =>
    obtain rfl := h.eq_nil hx
    exact hgoesOn (.rests hy)
  | takes hφ hvalid hfits =>
    -- The PUBLISH is to be answered before it is forwarded.
    obtain rfl := h.eq_nil (hidle hφ)
    exact hgoesOn (.answers hvalid hfits)
  | takesOn hφ hvalid hfits hs =>
    -- It is forwarded at once. The list is the registry of this moment.
    obtain rfl := h.eq_nil (hidle hφ)
    exact hgoesOn (.forwards (underway_fanOut hregistered hcalm hs hvalid hfits))
  | answers =>
    obtain ⟨hvalid, hfits, rfl⟩ := h.of_replying
    exact hgoesOn (.answers hvalid hfits)
  | answered hs =>
    -- The answer is written, and the list is the registry of this moment.
    obtain ⟨hvalid, hfits, rfl⟩ := h.of_replying
    exact hgoesOn (.forwards (underway_fanOut hregistered hcalm hs hvalid hfits))
  | passes hcurrent hleft hsub =>
    obtain ⟨f, registered, looks, hunder, rfl⟩ := h.of_forwarding
    have hstage := Stage.forwards (hunder.pass hcurrent hleft)
    refine hgoesOn ?_
    rw [hcurrent, ← hunder.topic, hsub]
    simpa [begun_append, Round.look] using hstage
  | reaches hcurrent hleft hsub =>
    obtain ⟨f, registered, looks, hunder, rfl⟩ := h.of_forwarding
    have hstage := Stage.forwards (hunder.reach hcurrent hleft)
    refine hgoesOn ?_
    rw [hcurrent, ← hunder.topic, hsub]
    simpa using hstage
  | @goesOn p o d s hcurrent =>
    obtain ⟨f, registered, looks, hunder, rfl⟩ := h.of_forwarding
    have hstage := Stage.forwards (hunder.goOn hcurrent s)
    refine hgoesOn ?_
    rw [hcurrent]
    simpa using hstage
  | delivers hcurrent hframe =>
    obtain ⟨f, registered, looks, hunder, rfl⟩ := h.of_forwarding
    -- What was written is the frame that came, byte for byte.
    obtain rfl := Except.ok.inj ((hunder.current _ hcurrent).symm.trans hframe)
    have hstage := Stage.forwards (hunder.deliver hcurrent)
    refine hgoesOn ?_
    rw [hcurrent]
    simpa [begun_append, Round.look] using hstage
  | fails hcurrent hframe =>
    obtain ⟨f, registered, looks, hunder, rfl⟩ := h.of_forwarding
    -- The frame that came can be laid out, so no write of it fails.
    rw [hunder.current _ hcurrent] at hframe
    cases hframe
  | @exhausts p o clientId since hcurrent hleft =>
    obtain ⟨f, registered, looks, hunder, rfl⟩ := h.of_forwarding
    obtain ⟨rfl, hsound⟩ := hunder.sound hcurrent hleft clientId
    -- The only place where a round is complete.
    refine ⟨[⟨f, p, looks, clientId⟩], [], fun r hr => ?_, .rests (hidle rfl), ?_⟩
    · exact List.mem_singleton.1 hr ▸ hsound
    · rw [hcurrent]
      simp [Round.deeds]

/-! ### A whole run -/

/-- What a session has done to forward messages is one round after the other, and behind them what
belongs to the message that it is at. -/
def InRounds (c : ConnId) (b : Broker) (log : List Deed) : Prop :=
  ∃ (rounds : List Round) (part : List Deed), (∀ r ∈ rounds, r.Sound c) ∧
    Stage c (b.phase? c) part ∧ forwardings c log = rounds.flatMap (Round.deeds c) ++ part

theorem inRounds_start (maxPacketSize now : Nat) : InRounds c (start maxPacketSize now) [] := by
  refine ⟨[], [], nofun, .rests fun φ hφ => ?_, rfl⟩
  have hnone : (start maxPacketSize now).phase? c = none := rfl
  rw [hnone] at hφ
  cases hφ

theorem InRounds.step {log : List Deed} (h : InRounds c b log) (hregistered : b.Registered)
    (hcalm : b.Calm) (ha : Advances b c (b.phase? c) (forwardings c more) (b'.phase? c)) :
    InRounds c b' (log ++ more) := by
  obtain ⟨rounds, part, hsound, hstage, hlog⟩ := h
  obtain ⟨rounds', part', hsound', hstage', hpart⟩ := hstage.step hregistered hcalm ha
  refine ⟨rounds ++ rounds', part', fun r hr => ?_, hstage', ?_⟩
  · exact (List.mem_append.1 hr).elim (hsound r) (hsound' r)
  · rw [forwardings_append, hlog, List.append_assoc, hpart, List.flatMap_append, List.append_assoc]

/-- **What a session does to forward messages is one round after the other.** -/
theorem inRounds_of_replay {maxPacketSize now : Nat} {es : List Event} {seen : List Observation}
    (h : (start maxPacketSize now).replay es = some (b, seen)) (hcalm : b.Calm) (c : ConnId) :
    InRounds c b ((start maxPacketSize now).history es) := by
  refine replay_induction (P := fun es b _ =>
    b.Calm → InRounds c b ((start maxPacketSize now).history es)) ?_ ?_ h hcalm
  · exact fun _ => inRounds_start maxPacketSize now
  · intro es e b₁ seen₁ b₂ more hrun hnext ih hcalm₂
    obtain ⟨hw, hexclusive⟩ := exclusive_of_replay hrun
    have hcalm₁ := hcalm₂.of_evolves (next?_evolves hw.greets hnext)
    rw [history_concat hrun hnext]
    exact (ih hcalm₁).step (registered_of_replay hrun) hcalm₁
      (next?_advances hexclusive hcalm₁ hcalm₂ hnext c)

end Broker
end Mqtt
