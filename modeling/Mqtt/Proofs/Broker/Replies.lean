import Mqtt.Proofs.Broker.Turns
import Mqtt.Proofs.Packet.Canonical
/-!
# What a broker is to say to a client

What comes from a client fixes what the broker says to it (`Frame.replies`): a CONNACK for the first
frame, then the response to each frame behind it, one after the other, up to the first one that ends
the session. All of it can be laid out (`exists_bytes_of_mem_replies`).
-/

namespace Mqtt

/-! ### What is to be said -/

/-- The packet with which a session answers. -/
def Response.packet? : Response → Option Packet
  | .answers q => some q
  | _ => none

namespace Frame

variable {v : Version} {f g : Frame} {frames more : List Frame} {p : Connect} {q : Packet}
  {r : Except Fault Bytes} {rs : List (Except Fault Bytes)}

/-- What a session says to the frames behind the CONNECT: it answers one after the other, until one
of them ends it. -/
def responses (v : Version) : List Frame → List Packet
  | [] => []
  | f :: frames =>
    match f.response v with
    | .silent => responses v frames
    | .answers q => q :: responses v frames
    | .ends => []

/-- What a broker says over a connection to the frames that come, laid out: it accepts a CONNECT,
and answers what comes behind it. -/
def replies : List Frame → List (Except Fault Bytes)
  | [] => []
  | f :: frames =>
    match Broker.greet f with
    | .ok (v, _) => (Packet.connAck .accepted :: responses v frames).map fun q => q.toBytes v
    | .error _ => []

/-- The frames open a session, and do not end it. -/
def GoesOn (v : Version) (frames : List Frame) : Prop :=
  ∃ f p more, frames = f :: more ∧ Broker.greet f = .ok (v, p) ∧ ∀ g ∈ more, g.response v ≠ .ends

/-- One more frame is answered behind the others, as long as none of them has ended the session. -/
theorem responses_concat (h : ∀ g ∈ more, g.response v ≠ .ends) :
    responses v (more ++ [f]) = responses v more ++ (f.response v).packet?.toList := by
  induction more with
  | nil =>
    rw [List.nil_append, responses, responses]
    rcases f.response v with _ | q | _ <;> rfl
  | cons g more ih =>
    rw [List.forall_mem_cons] at h
    rw [List.cons_append, responses, responses, ih h.2]
    rcases hg : g.response v with _ | q | _
    · rfl
    · rfl
    · exact absurd hg h.1

theorem replies_of_greet (h : Broker.greet f = .ok (v, p)) :
    replies (f :: more) =
      (Packet.connAck .accepted :: responses v more).map fun q => q.toBytes v := by
  rw [replies, h]

theorem replies_of_refused {e : Fault} (h : Broker.greet f = .error e) :
    replies (f :: more) = [] := by
  rw [replies, h]

theorem goesOn_singleton (h : Broker.greet f = .ok (v, p)) : GoesOn v [f] :=
  ⟨f, p, [], rfl, h, nofun⟩

theorem GoesOn.concat (h : GoesOn v frames) (hf : f.response v ≠ .ends) :
    GoesOn v (frames ++ [f]) := by
  obtain ⟨g, p, more, rfl, hg, hmore⟩ := h
  refine ⟨g, p, more ++ [f], rfl, hg, fun g' hg' => ?_⟩
  rcases List.mem_append.1 hg' with hg' | hg'
  · exact hmore g' hg'
  · rw [List.mem_singleton.1 hg']
    exact hf

/-- **One more frame is answered behind the others.** -/
theorem GoesOn.replies_concat (h : GoesOn v frames) :
    replies (frames ++ [f]) =
      replies frames ++ ((f.response v).packet?.map fun q => q.toBytes v).toList := by
  obtain ⟨g, p, more, rfl, hg, hmore⟩ := h
  rw [List.cons_append, replies_of_greet hg, replies_of_greet hg, responses_concat hmore,
    ← List.cons_append, List.map_append, Option.toList_map]

/-- The CONNACK comes first. -/
theorem exists_of_replies (h : replies frames = r :: rs) :
    ∃ v, r = (Packet.connAck .accepted).toBytes v := by
  cases frames with
  | nil => cases h
  | cons f more =>
    rcases hgreet : Broker.greet f with e | ⟨v, p⟩
    · rw [replies_of_refused hgreet] at h
      cases h
    · rw [replies_of_greet hgreet] at h
      exact ⟨v, (List.cons.inj h).1.symm⟩

theorem GoesOn.replies_ne_nil (h : GoesOn v frames) : replies frames ≠ [] := by
  obtain ⟨f, p, more, rfl, hf, -⟩ := h
  rw [replies_of_greet hf]
  exact List.cons_ne_nil _ _

/-! ### Answers can be laid out -/

theorem mem_responses (h : q ∈ responses v frames) : ∃ f ∈ frames, f.response v = .answers q := by
  induction frames with
  | nil => cases h
  | cons f frames ih =>
    rw [responses] at h
    rcases hf : f.response v with _ | q' | _
    · rw [hf] at h
      obtain ⟨g, hg, hresponse⟩ := ih h
      exact ⟨g, List.mem_cons_of_mem _ hg, hresponse⟩
    · rw [hf] at h
      rcases List.mem_cons.1 h with rfl | h
      · exact ⟨f, List.mem_cons_self, hf⟩
      · obtain ⟨g, hg, hresponse⟩ := ih h
        exact ⟨g, List.mem_cons_of_mem _ hg, hresponse⟩
    · rw [hf] at h
      cases h

end Frame

namespace Packet

variable {v : Version} {id : UInt16} {q : Packet}

theorem wellFormed_connAck : (connAck .accepted).WellFormed v where
  sound := trivial
  fields := by simp [fields]
  size := by simp [body, ConnAck.body, RemainingLength.limit]

/-- A packet that carries nothing but an id. -/
theorem wellFormed_of_id (hbody : q.body v = Bytes.ofUInt16 id) (hsound : q.Sound)
    (hfields : q.fields = []) : q.WellFormed v where
  sound := hsound
  fields := by simp [hfields]
  size := by simp [hbody, Bytes.ofUInt16, RemainingLength.limit]

/-- Every filter of a SUBSCRIBE takes a byte at least. -/
theorem length_le_flatMap_body (wanted : List Subscription) :
    wanted.length ≤ (wanted.flatMap Subscription.body).length := by
  induction wanted with
  | nil => exact Nat.le_refl _
  | cons w wanted ih =>
    rw [List.flatMap_cons, List.length_append, List.length_cons, Subscription.body,
      List.length_append, List.length_singleton]
    omega

/-- A SUBACK is no longer than the SUBSCRIBE that it answers. -/
theorem wellFormed_subAck {wanted : List Subscription} (hwanted : wanted ≠ [])
    (hsize : ((subscribe id wanted).body v).length ≤ RemainingLength.limit) :
    (subAck id (wanted.map Subscription.code)).WellFormed v where
  sound := by simpa [Sound] using hwanted
  fields := by simp [fields]
  size := by
    have hle := length_le_flatMap_body wanted
    rw [body, List.length_append] at hsize
    rw [body, ← List.map_eq_flatMap, List.length_append, List.length_map, List.length_map]
    omega

end Packet

namespace Frame

variable {v : Version} {f : Frame} {frames : List Frame} {q : Packet} {r : Except Fault Bytes}

/-- **What a session answers can be laid out.** -/
theorem wellFormed_of_response (hsize : f.body.length ≤ RemainingLength.limit)
    (h : f.response v = .answers q) : q.WellFormed v := by
  rw [response] at h
  rcases hdecode : Packet.decode v f with e | p
  · rw [hdecode] at h
    cases h
  rw [hdecode] at h
  change p.response = .answers q at h
  have hread := Packet.readFrom_of_decode hdecode
  -- The SUBACK has a byte for each filter. Every other answer is an id, or nothing.
  cases p with
  | publish p =>
    change p.response = .answers q at h
    rw [Publish.response] at h
    split at h
    · cases h
    · split at h
      · cases h
        exact Packet.wellFormed_of_id rfl trivial rfl
      · cases h
        exact Packet.wellFormed_of_id rfl trivial rfl
      · cases h
  | pubRel id | unsubscribe id _ =>
    cases h
    exact Packet.wellFormed_of_id rfl trivial rfl
  | subscribe id wanted =>
    cases h
    have hformed := hread.wellFormed hsize (by simp)
    exact Packet.wellFormed_subAck hformed.sound hformed.size
  | pingReq =>
    cases h
    exact ⟨trivial, by simp [Packet.fields], Nat.zero_le _⟩
  | _ => cases h

theorem exists_bytes_of_mem_replies (hsize : ∀ f ∈ frames, f.body.length ≤ RemainingLength.limit)
    (h : r ∈ replies frames) : ∃ bs, r = .ok bs := by
  cases frames with
  | nil => cases h
  | cons f frames =>
    rcases hgreet : Broker.greet f with e | ⟨v, p⟩
    · rw [replies_of_refused hgreet] at h
      cases h
    · rw [replies_of_greet hgreet] at h
      obtain ⟨q, hq, rfl⟩ := List.mem_map.1 h
      have hformed : q.WellFormed v := by
        rcases List.mem_cons.1 hq with rfl | hq
        · exact Packet.wellFormed_connAck
        · obtain ⟨g, hg, hresponse⟩ := mem_responses hq
          exact wellFormed_of_response (hsize g (List.mem_cons_of_mem _ hg)) hresponse
      exact ⟨_, Packet.toBytes_eq_ok.2 ⟨hformed, rfl⟩⟩

end Frame

end Mqtt
