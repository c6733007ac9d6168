import Mqtt.Proofs.Packet.RoundTrip
import Mqtt.Topic
/-!
# What packets do to filters

A broker holds a filter for a client once it has served a SUBSCRIBE that names it, and until it has
served an UNSUBSCRIBE that names it. `Packet.held` says so of any packets served one after the
other; no other packet makes a difference (`settle_of_isPlain`).
-/

namespace Mqtt

/-- What the last one of those that make a difference has left behind: something that `sets`, with
nothing that `clears` after it, or else what there was at first. -/
theorem foldl_eq_true_iff {α : Type} {step : Bool → α → Bool} {sets clears : α → Prop}
    (hstep : ∀ b x, step b x = true ↔ sets x ∨ b = true ∧ ¬clears x) {b : Bool} {xs : List α} :
    xs.foldl step b = true ↔ (b = true ∧ ∀ x ∈ xs, ¬clears x) ∨
      ∃ before x after, xs = before ++ x :: after ∧ sets x ∧ ∀ y ∈ after, ¬clears y := by
  induction xs generalizing b with
  | nil => simp
  | cons x xs ih =>
    rw [List.foldl_cons, ih, hstep, List.forall_mem_cons]
    constructor
    · rintro (⟨hx | ⟨hb, hx⟩, hxs⟩ | ⟨before, y, after, rfl, hy⟩)
      · exact .inr ⟨[], x, xs, rfl, hx, hxs⟩
      · exact .inl ⟨hb, hx, hxs⟩
      · exact .inr ⟨x :: before, y, after, rfl, hy⟩
    · -- The last one that sets it is `x`, or it is one of `xs`.
      rintro (⟨hb, hx, hxs⟩ | ⟨before, y, after, heq, hy, hafter⟩)
      · exact .inl ⟨.inr ⟨hb, hx⟩, hxs⟩
      · rcases before with _ | ⟨z, before⟩
        · obtain ⟨rfl, rfl⟩ := List.cons.inj heq
          exact .inl ⟨.inl hy, hafter⟩
        · obtain ⟨rfl, rfl⟩ := List.cons.inj heq
          exact .inr ⟨before, y, after, rfl, hy, hafter⟩

namespace Packet

variable {f : String} {held₀ : Bool} {p : Packet} {ps : List Packet}

/-- Whether a packet neither opens a session nor asks for filters. -/
def isPlain : Packet → Bool
  | connect _ | connAck _ | subscribe .. | unsubscribe .. => false
  | _ => true

/-- Whether a filter is held once a packet has been served, by whether it was held before. A
malformed filter is refused. -/
def settle (f : String) (held₀ : Bool) : Packet → Bool
  | subscribe _ wanted =>
    held₀ || ((wanted.map Subscription.filter).contains f && (Topic.validateFilter f).isOk)
  | unsubscribe _ gone => held₀ && !gone.contains f
  | _ => held₀

/-- Whether a filter is held once these packets have been served. -/
def held (f : String) (ps : List Packet) : Bool := ps.foldl (settle f) false

theorem settle_of_isPlain (h : p.isPlain = true) : settle f held₀ p = held₀ := by
  cases p with
  | connect _ | connAck _ | subscribe _ _ | unsubscribe _ _ => cases h
  | _ => rfl

/-- The answers to a message that asks for one. -/
inductive Acknowledges (p : Publish) : Packet → Prop
  | atLeastOnce {id : UInt16} : p.qos = .atLeastOnce → p.packetId = some id →
    Acknowledges p (.pubAck id)
  | exactlyOnce {id : UInt16} : p.qos = .exactlyOnce → p.packetId = some id →
    Acknowledges p (.pubRec id)

theorem Acknowledges.isPlain {p : Publish} {ack : Packet} (h : Acknowledges p ack) :
    ack.isPlain = true := by
  cases h with
  | atLeastOnce _ _ | exactlyOnce _ _ => rfl

/-- The packet is the answer to a request with this packet id. -/
inductive Answers (id : UInt16) : Packet → Prop
  | pubAck : Answers id (.pubAck id)
  | subAck {codes : List SubscribeCode} : Answers id (.subAck id codes)
  | unsubAck : Answers id (.unsubAck id)

theorem held_append (ps more : List Packet) :
    held f (ps ++ more) = more.foldl (settle f) (held f ps) :=
  List.foldl_append

theorem held_concat : held f (ps ++ [p]) = settle f (held f ps) p :=
  held_append ps [p]

/-- The packet asks for the filter. -/
def Asks (f : String) (p : Packet) : Prop :=
  ∃ id wanted, p = .subscribe id wanted ∧ f ∈ wanted.map Subscription.filter ∧
    Topic.validateFilter f = .ok ()

/-- The packet gives the filter up. -/
def Drops (f : String) (p : Packet) : Prop := ∃ id gone, p = .unsubscribe id gone ∧ f ∈ gone

theorem settle_iff : settle f held₀ p = true ↔ p.Asks f ∨ held₀ = true ∧ ¬p.Drops f := by
  cases p with
  | subscribe id wanted =>
    rw [settle, Bool.or_eq_true, Bool.and_eq_true, List.contains_iff_mem]
    rcases hv : Topic.validateFilter f with e | ⟨⟩
      <;> simp [Asks, Drops, hv, Except.isOk, Except.toBool, or_comm]
  | unsubscribe id gone => simp [settle, Asks, Drops]
  | _ => simp [settle, Asks, Drops]

theorem foldl_settle_iff : ps.foldl (settle f) held₀ = true ↔
    (held₀ = true ∧ ∀ p ∈ ps, ¬p.Drops f) ∨
      ∃ before p after, ps = before ++ p :: after ∧ p.Asks f ∧ ∀ q ∈ after, ¬q.Drops f :=
  foldl_eq_true_iff fun _ p => settle_iff (f := f) (p := p)

/-- **A filter is held if a SUBSCRIBE has asked for it**, and no UNSUBSCRIBE has given it up
since. -/
theorem held_iff : held f ps = true ↔
    ∃ before p after, ps = before ++ p :: after ∧ p.Asks f ∧ ∀ q ∈ after, ¬q.Drops f := by
  rw [held, foldl_settle_iff]
  simp

/-- A filter that is held only in the end is asked for in the end. -/
theorem exists_asks_of_held_append {more : List Packet} (h : held f (ps ++ more) = true)
    (hnot : held f ps = false) : ∃ before p after, more = before ++ p :: after ∧ p.Asks f := by
  rw [held_append, foldl_settle_iff, hnot] at h
  obtain ⟨h, -⟩ | ⟨before, p, after, hmore, hp, -⟩ := h
  · cases h
  · exact ⟨before, p, after, hmore, hp⟩

/-- Packets that leave a filter alone make no difference to it. -/
theorem held_append_of_settle {more : List Packet}
    (h : ∀ p ∈ more, ∀ held₀, settle f held₀ p = held₀) : held f (ps ++ more) = held f ps := by
  rw [held_append]
  generalize held f ps = held₀
  induction more with
  | nil => rfl
  | cons p more ih =>
    rw [List.foldl_cons, h p List.mem_cons_self]
    exact ih fun q hq => h q (List.mem_cons_of_mem _ hq)

/-! ### What is read -/

/-- What a frame carries is of the kind that its first byte says. -/
theorem kind_of_decode {v : Version} {frame : Frame} (h : decode v frame = .ok p) :
    frame.kind = .ok p.kind := by
  have hbind {α : Type} {r : Except Fault α} {g : α → Packet} (k : PacketKind)
      (hg : ∀ a, (g a).kind = k) (h : (r >>= fun a => pure (g a)) = .ok p) :
      (.ok k : Except Fault PacketKind) = .ok p.kind := by
    rcases r with e | a
    · cases h
    · cases h
      rw [hg]
  have hempty {q : Packet} (h : decodeEmpty frame q = .ok p) :
      (.ok q.kind : Except Fault PacketKind) = .ok p.kind := by
    rw [decodeEmpty] at h
    split_ifs at h
    · cases h
      rfl
    · cases h
  -- Every branch reads what its kind asks for, and wraps it in the packet of this kind.
  unfold decode at h
  rcases hkind : frame.kind with e | k
  · rw [hkind] at h
    cases h
  · rw [hkind] at h
    cases k with
    | pingReq => exact hempty h
    | pingResp => exact hempty h
    | disconnect => exact hempty h
    | _ => exact hbind _ (fun _ => rfl) h

/-- Only a SUBSCRIBE and an UNSUBSCRIBE make a difference. -/
theorem settle_of_kind (hsubscribe : p.kind ≠ .subscribe) (hunsubscribe : p.kind ≠ .unsubscribe) :
    settle f held₀ p = held₀ := by
  cases p with
  | subscribe _ _ => exact absurd rfl hsubscribe
  | unsubscribe _ _ => exact absurd rfl hunsubscribe
  | _ => rfl

/-- **Whoever reads the frame of a packet, in whatever version, does to filters what the packet
asks for.** -/
theorem settle_of_decode {v v' : Version} {q : Packet} (hp : p.WellFormed v)
    (h : decode v' (p.frame v) = .ok q) : settle f held₀ q = settle f held₀ p := by
  have hkind : q.kind = p.kind := by
    have := kind_of_decode h
    rw [show (p.frame v).kind = .ok p.kind from ofHeader_header p] at this
    exact (Except.ok.inj this).symm
  -- Neither of the two packets that matter depends on the version.
  have hsame (hframe : p.frame v = p.frame v') (hcarried : p.carried v' = p)
      (hp' : p.WellFormed v') : settle f held₀ q = settle f held₀ p := by
    rw [hframe, decode_frame hp', hcarried] at h
    cases h
    rfl
  cases p with
  | subscribe id wanted => exact hsame rfl rfl ⟨hp.sound, hp.fields, hp.size⟩
  | unsubscribe id gone => exact hsame rfl rfl ⟨hp.sound, hp.fields, hp.size⟩
  | _ =>
    have hsubscribe : q.kind ≠ .subscribe := by
      rw [hkind]
      simp [kind]
    have hunsubscribe : q.kind ≠ .unsubscribe := by
      rw [hkind]
      simp [kind]
    exact settle_of_kind hsubscribe hunsubscribe

end Packet
end Mqtt
