import Mqtt.Proofs.Client.Requests
/-!
# What becomes of the active filters

A filter is active exactly if the last note on it says so. And a filter that is active is held by
whoever serves the packets that the client has sent, unless

* a SUBSCRIBE that names it has not been sent yet, or cannot be,
* an UNSUBSCRIBE that names it has been sent, and its call has not returned, or
* a call of unsubscribe that names it has failed.

`Client.Accounts` says so, and `Accounts.step` and `Accounts.starts` that it stays so. Nothing is
said of the other direction: a filter can be held and not be active.
-/

namespace Mqtt

/-- Why an active filter may be active, given the requests under way, the packets sent, and the
notes taken. -/
inductive Covered (requests : Nat → Option Request) (sent : List Packet) (notes : List Note)
    (f : String) : Prop
  | held : Packet.held f sent = true → Covered requests sent notes f
  | unsent {k : Nat} {r : Request} {s : Sending} {bs : Bytes} {wanted : List Subscription}
    {added : List String} : requests k = some r → r.purpose = .subscribe wanted added →
    r.frame = .ok bs → r.state = some s → f ∈ wanted.map Subscription.filter →
    Covered requests sent notes f
  | unsendable {k : Nat} {r : Request} {s : Sending} {e : Fault} {wanted : List Subscription}
    {added : List String} : requests k = some r → r.purpose = .subscribe wanted added →
    r.frame = .error e → r.state = some s → f ∈ added → Covered requests sent notes f
  | leaving {k : Nat} {r : Request} {gone : List String} : requests k = some r →
    r.purpose = .unsubscribe gone → r.state = none → f ∈ gone → Covered requests sent notes f
  | failed {gone : List String} : .fails gone ∈ notes → f ∈ gone → Covered requests sent notes f

variable {requests : Nat → Option Request} {sent more : List Packet} {notes news : List Note}
  {f : String} {k : Nat} {r : Request}

/-- More packets that leave filters alone make no difference, and neither do more notes. -/
theorem Covered.mono (h : Covered requests sent notes f)
    (hmore : Packet.held f sent = true → Packet.held f (sent ++ more) = true) :
    Covered requests (sent ++ more) (notes ++ news) f := by
  cases h with
  | held h => exact .held (hmore h)
  | unsent h₁ h₂ h₃ h₄ h₅ => exact .unsent h₁ h₂ h₃ h₄ h₅
  | unsendable h₁ h₂ h₃ h₄ h₅ => exact .unsendable h₁ h₂ h₃ h₄ h₅
  | leaving h₁ h₂ h₃ h₄ => exact .leaving h₁ h₂ h₃ h₄
  | failed h₁ h₂ => exact .failed (List.mem_append_left _ h₁) h₂

theorem Covered.of_more (h : Covered requests sent notes f) :
    Covered requests sent (notes ++ news) f := by
  have hmono : Covered requests (sent ++ []) (notes ++ news) f :=
    h.mono fun h => by rwa [List.append_nil]
  rwa [List.append_nil] at hmono

/-- A request changes that is not what the filter is active for. -/
theorem Covered.update {new : Option Request} (h : Covered requests sent notes f)
    (hunsent : ∀ r s bs wanted added, requests k = some r → r.purpose = .subscribe wanted added →
      r.frame = .ok bs → r.state = some s → f ∈ wanted.map Subscription.filter →
      Covered (Function.update requests k new) sent notes f)
    (hunsendable : ∀ r s e wanted added, requests k = some r →
      r.purpose = .subscribe wanted added → r.frame = .error e → r.state = some s → f ∈ added →
      Covered (Function.update requests k new) sent notes f)
    (hleaving : ∀ r gone, requests k = some r → r.purpose = .unsubscribe gone → r.state = none →
      f ∈ gone → Covered (Function.update requests k new) sent notes f) :
    Covered (Function.update requests k new) sent notes f := by
  -- A reason that lies with another request stands. What becomes of one that lies with this request
  -- is for the caller to say.
  have hother {k' : Nat} {r : Request} (hne : k' ≠ k) (h : requests k' = some r) :
      Function.update requests k new k' = some r := by rw [Function.update_of_ne hne, h]
  cases h with
  | held h => exact .held h
  | @unsent k' r _ _ _ _ h₁ h₂ h₃ h₄ h₅ =>
    by_cases hk : k' = k
    · subst hk
      exact hunsent _ _ _ _ _ h₁ h₂ h₃ h₄ h₅
    · exact .unsent (hother hk h₁) h₂ h₃ h₄ h₅
  | @unsendable k' r _ _ _ _ h₁ h₂ h₃ h₄ h₅ =>
    by_cases hk : k' = k
    · subst hk
      exact hunsendable _ _ _ _ _ h₁ h₂ h₃ h₄ h₅
    · exact .unsendable (hother hk h₁) h₂ h₃ h₄ h₅
  | @leaving k' r _ h₁ h₂ h₃ h₄ =>
    by_cases hk : k' = k
    · subst hk
      exact hleaving _ _ h₁ h₂ h₃ h₄
    · exact .leaving (hother hk h₁) h₂ h₃ h₄
  | failed h₁ h₂ => exact .failed h₁ h₂

/-- A request begins. -/
theorem Covered.of_none {new : Option Request} (h : Covered requests sent notes f)
    (hnone : requests k = none) : Covered (Function.update requests k new) sent notes f := by
  refine h.update ?_ ?_ ?_
  · intro r _ _ _ _ h
    rw [hnone] at h
    cases h
  · intro r _ _ _ _ h
    rw [hnone] at h
    cases h
  · intro r _ h
    rw [hnone] at h
    cases h

/-- The frame of a request moves on, and is not all in the stream yet. -/
theorem Covered.goesOn {s s' : Sending} (h : Covered requests sent notes f)
    (hr : requests k = some r) (hs : r.state = some s) :
    Covered (Function.update requests k (some { r with state := some s' })) sent notes f := by
  have hself : Function.update requests k (some { r with state := some s' }) k =
      some { r with state := some s' } := Function.update_self _ _ _
  refine h.update ?_ ?_ ?_
  · intro r' _ _ _ _ h₁ h₂ h₃ _ h₅
    rw [hr] at h₁
    cases h₁
    exact .unsent hself h₂ h₃ rfl h₅
  · intro r' _ _ _ _ h₁ h₂ h₃ _ h₅
    rw [hr] at h₁
    cases h₁
    exact .unsendable hself h₂ h₃ rfl h₅
  · intro r' _ h₁ _ h₃
    rw [hr] at h₁
    cases h₁
    rw [hs] at h₃
    cases h₃

/-- The frame of a request is all in the stream: what it is for is held from now on, or on its way
out. -/
theorem Covered.completes {s : Sending} {bs : Bytes} {p : Packet}
    (h : Covered requests sent notes f) (hr : requests k = some r) (hs : r.state = some s)
    (hframe : r.frame = .ok bs) (hpacket : r.purpose.Says r.id p) :
    Covered (Function.update requests k (some { r with state := none })) (sent ++ [p]) notes f := by
  have hself : Function.update requests k (some { r with state := none }) k =
      some { r with state := none } := Function.update_self _ _ _
  have hheld (h : Packet.held f sent = true) :
      Covered (Function.update requests k (some { r with state := none })) (sent ++ [p])
        notes f := by
    -- Only an UNSUBSCRIBE of the filter itself matters, and then its call is still there.
    by_cases hdrops : p.Drops f
    · obtain ⟨id, gone, rfl, hf⟩ := hdrops
      exact .leaving hself (Purpose.eq_unsubscribe hpacket) rfl hf
    · refine .held ?_
      rw [Packet.held_concat]
      exact Packet.settle_iff.2 (.inr ⟨h, hdrops⟩)
  cases h with
  | held h => exact hheld h
  | @unsent k' r' _ _ wanted _ h₁ h₂ h₃ h₄ h₅ =>
    by_cases hk : k' = k
    · -- This is the request, and its SUBSCRIBE asks for the filter.
      subst hk
      rw [hr] at h₁
      cases h₁
      rw [h₂] at hpacket
      obtain ⟨rfl, hvalid⟩ := hpacket
      obtain ⟨w, hw, rfl⟩ := List.mem_map.1 h₅
      have hasks : (Packet.subscribe r.id wanted).Asks w.filter := ⟨_, _, rfl, h₅, hvalid w hw⟩
      refine .held ?_
      rw [Packet.held_concat]
      exact Packet.settle_iff.2 (.inl hasks)
    · exact .unsent (by rw [Function.update_of_ne hk, h₁]) h₂ h₃ h₄ h₅
  | @unsendable k' r' _ _ _ _ h₁ h₂ h₃ h₄ h₅ =>
    by_cases hk : k' = k
    · subst hk
      rw [hr] at h₁
      cases h₁
      rw [hframe] at h₃
      cases h₃
    · exact .unsendable (by rw [Function.update_of_ne hk, h₁]) h₂ h₃ h₄ h₅
  | @leaving k' r' _ h₁ h₂ h₃ h₄ =>
    by_cases hk : k' = k
    · subst hk
      rw [hr] at h₁
      cases h₁
      rw [hs] at h₃
      cases h₃
    · exact .leaving (by rw [Function.update_of_ne hk, h₁]) h₂ h₃ h₄
  | failed h₁ h₂ => exact .failed h₁ h₂

/-- The call of a request returns. -/
theorem Covered.returns {a : CallAnswer} (h : Covered requests sent notes f)
    (hr : requests k = some r)
    (hwhy : r.state = none ∨ (∃ e, a = .failed e) ∧ ∃ e, r.frame = .error e)
    (hfits : r.purpose.ComesTo a) (hf : f ∉ r.purpose.gives a) :
    Covered (Function.update requests k none) sent (notes ++ r.purpose.notes a) f := by
  refine h.of_more.update ?_ ?_ ?_
  · intro r' s bs wanted added h₁ h₂ h₃ h₄ h₅
    rw [hr] at h₁
    cases h₁
    rcases hwhy with hs | ⟨-, e, he⟩
    · rw [h₄] at hs
      cases hs
    · rw [h₃] at he
      cases he
  · intro r' s e wanted added h₁ h₂ h₃ h₄ h₅
    rw [hr] at h₁
    cases h₁
    rcases hwhy with hs | ⟨⟨e, rfl⟩, -⟩
    · rw [h₄] at hs
      cases hs
    · rw [h₂] at hf
      exact absurd h₅ hf
  · intro r' gone h₁ h₂ h₃ h₄
    rw [hr] at h₁
    cases h₁
    -- If the call is done, it has made the filter inactive; if it has failed, this is noted.
    rw [h₂] at hf hfits ⊢
    cases hfits with
    | done => exact absurd h₄ hf
    | failed => exact .failed (List.mem_append_right _ (List.mem_singleton_self _)) h₄

/-! ### The filters of a client -/

theorem active_notes {b : Bool} {purpose : Purpose} {a : CallAnswer} :
    (purpose.notes a).foldl (Note.settle f) b = (b && !(purpose.gives a).contains f) := by
  rcases purpose with _ | _ | _ <;> rcases a with _ | _ | _ | _ | _ <;>
    simp [Purpose.notes, Purpose.gives, Note.settle]

namespace Client

variable {c c' : Client} {l : Link} {i : Party} {n : Next}

/-- What is active, by the notes, and why. -/
structure Accounts (c : Client) (sent : List Packet) (notes : List Note) : Prop where
  active : ∀ f, f ∈ c.filters ↔ Note.active f notes = true
  covered : ∀ f ∈ c.filters, Covered c.request? sent notes f

/-- The frame that a move completes is that of a packet. -/
theorem exists_completed (lane : Lane Party) (bs : Bytes) (hs : c.Speaks) :
    ∃ done : List Packet,
      c.lane.completed lane i bs = done.map (fun p => (p.frame c.config.version).bytes) ∧
      ∀ p ∈ done, p.WellFormed c.config.version ∧ c.Says i p := by
  unfold Lane.completed
  split
  · next frame left hi _ =>
    split_ifs
    · exact ⟨[], rfl, by simp⟩
    · obtain ⟨p, hp, hpacket⟩ := hs.exists_packet hi
      obtain ⟨hwell, rfl⟩ := Packet.toBytes_eq_ok.1 hp.symm
      exact ⟨[p], rfl, by simpa using ⟨hwell, hpacket⟩⟩
  · exact ⟨[], rfl, by simp⟩

/-- A packet of a party that has no request leaves filters alone. -/
theorem settle_of_packet {p : Packet} {held₀ : Bool} (h : c.Says i p)
    (hnone : ∀ k, i = .call k → c.request? k = none) : p.settle f held₀ = held₀ := by
  cases i with
  | reader =>
    rcases h with h | ⟨-, rfl⟩
    · exact Packet.settle_of_isPlain h
    · rfl
  | keeper =>
    obtain rfl : p = .pingReq := h
    rfl
  | call k =>
    rw [Says, hnone k rfl] at h
    exact Packet.settle_of_isPlain h

/-- Where the filters stay and nothing is noted, only what accounts for them is to be kept. -/
theorem Accounts.of_filters {sent' : List Packet} {news : List Note}
    (ha : c.Accounts sent notes) (hfilters : c'.filters = c.filters) (hnews : news = [])
    (hcovered : ∀ f ∈ c.filters, Covered c'.request? sent' (notes ++ news) f) :
    c'.Accounts sent' (notes ++ news) where
  active f := by
    rw [hfilters, hnews, List.append_nil]
    exact ha.active f
  covered f hf := by
    rw [hfilters] at hf
    exact hcovered f hf

/-- **Every move of a client that runs keeps the accounts.** -/
theorem Accounts.step {done : List Packet} (ha : c.Accounts sent notes) (hl : c.lane.Exclusive)
    (hd : Deals c l n i) (hopen : l.up.closed = false) (hcancelled : c.cancelled = false)
    (hdone : c.lane.completed n.1.lane i (streamOf n.2.2) =
      done.map fun p => (p.frame c.config.version).bytes)
    (hpacket : ∀ p ∈ done, c.Says i p) :
    n.1.Accounts (sent ++ done) (notes ++ c.notes n.2.2) := by
  cases hd with
  | rests hrequest hfilters hnotes hnone =>
    have hheld (f : String) : Packet.held f (sent ++ done) = Packet.held f sent :=
      Packet.held_append_of_settle fun p hp _ => settle_of_packet (hpacket p hp) hnone
    refine ha.of_filters hfilters hnotes fun f hf => ?_
    rw [hrequest]
    exact (ha.covered f hf).mono fun h => by rwa [hheld]
  | @goesOn k r s s' hr hs hrequest hfilters hnotes =>
    have hafter : n.1.sending? (.call k) = some (r.frame, s') := by
      refine sending?_of_request (r := { r with state := some s' }) ?_ rfl
      rw [hrequest, Function.update_self]
    obtain rfl : done = [] := by
      rw [Lane.completed_of_sending hafter] at hdone
      exact List.map_eq_nil_iff.1 hdone.symm
    rw [List.append_nil]
    refine ha.of_filters hfilters hnotes fun f hf => ?_
    rw [hrequest]
    exact ((ha.covered f hf).goesOn hr hs).of_more
  | @completes k r left hr hs hstream hrequest hfilters hnotes =>
    have hpushes : c.lane.Pushes (.call k) r.frame left := sending?_of_request hr hs
    obtain ⟨hleft, part, hframe⟩ := hl.part _ _ _ hpushes
    have hafter : n.1.sending? (.call k) = none := by
      refine sending?_of_request_none (r := { r with state := none }) ?_ rfl
      rw [hrequest, Function.update_self]
    rw [hframe] at hpushes
    rw [Lane.completed_of_pushes hpushes hafter (hstream ▸ hleft)] at hdone
    obtain ⟨p, rfl⟩ : ∃ p, done = [p] := by
      rw [← List.length_eq_one_iff, ← List.length_map, ← hdone]
      rfl
    have hp : r.purpose.Says r.id p := by
      have := hpacket p (List.mem_singleton_self p)
      rwa [Says, hr] at this
    refine ha.of_filters hfilters hnotes fun f hf => ?_
    rw [hrequest]
    exact ((ha.covered f hf).completes hr hs hframe hp).of_more
  | @returns k r a hr hstream hwhy hfits hrequest hfilters hnotes _ =>
    obtain rfl : done = [] := by
      rw [hstream, Lane.completed_nil] at hdone
      exact List.map_eq_nil_iff.1 hdone.symm
    refine ⟨fun f => ?_, fun f hf => ?_⟩
    · rw [hfilters, hnotes, Note.active_append, active_notes, Bool.and_eq_true, ← ha.active,
        Bool.not_eq_true', ← Bool.not_eq_true, List.contains_iff_mem]
    · obtain ⟨hf, hgives⟩ := (hfilters f).1 hf
      rw [hrequest, hnotes, List.append_nil]
      refine (ha.covered f hf).returns hr (hwhy.imp_right fun h => ⟨h.1, ?_⟩) hfits hgives
      -- The stream is open and the token is not cancelled.
      rcases h.2 with h | h | h
      · exact h
      · rw [hopen] at h
        cases h
      · rw [hcancelled] at h
        cases h

/-! ### Calls that begin -/

/-- What is noted of a call that begins. -/
def begun : ClientCall → List Note
  | .subscribe wanted => [.takes (wanted.map Subscription.filter)]
  | _ => []

/-- **A call that begins keeps the accounts.** -/
theorem Accounts.starts {call : ClientCall} (ha : c.Accounts sent notes)
    (h : Starts c k call c') (hfresh : c.request? k = none) :
    c'.Accounts sent (notes ++ begun call) := by
  have hrest {new : Option Request} {call : ClientCall} (hbegun : begun call = [])
      (hfilters : c'.filters = c.filters)
      (hrequest : c'.request? = Function.update c.request? k new) :
      c'.Accounts sent (notes ++ begun call) := by
    refine ha.of_filters hfilters hbegun fun f hf => ?_
    rw [hrequest]
    exact ((ha.covered f hf).of_none hfresh).of_more
  cases h with
  | publish _ | ping | disconnect | receive =>
    exact hrest rfl rfl (request?_of_insert rfl rfl)
  | publishAcknowledged _ _ | unsubscribe _ _ => exact hrest rfl rfl (request?_of_insert rfl rfl)
  | @subscribe wanted id ids _ _ _ =>
    let fs := wanted.map Subscription.filter
    have hcalls : ((c.reserved ids).addFilters fs).1.calls = c.calls := by
      rw [addFilters_eq]
      rfl
    have hrequest : (((c.reserved ids).addFilters fs).1.startRequest k
        (.subscribe wanted ((c.reserved ids).addFilters fs).2) id
        (.subscribe id wanted)).request? = Function.update c.request? k
          (some ⟨.subscribe wanted ((c.reserved ids).addFilters fs).2, id,
            ((c.reserved ids).addFilters fs).1.frameOf (.subscribe id wanted), some .starting⟩) :=
      request?_of_insert (by rw [← hcalls]; rfl) rfl
    have hmem (f : String) : f ∈ ((c.reserved ids).addFilters fs).1.filters ↔
        f ∈ c.filters ∨ f ∈ fs := mem_addFilters
    refine ⟨fun f => ?_, fun f hf => ?_⟩
    · rw [Note.active_append]
      show f ∈ ((c.reserved ids).addFilters fs).1.filters ↔
        (Note.active f notes || fs.contains f) = true
      rw [hmem, Bool.or_eq_true, ← ha.active, List.contains_iff_mem]
    · rw [hrequest]
      by_cases hactive : f ∈ c.filters
      · exact ((ha.covered f hactive).of_none hfresh).of_more
      · -- The new request stands for the filters that were not active before.
        have hwanted : f ∈ fs := ((hmem f).1 hf).resolve_left hactive
        rcases hframe : ((c.reserved ids).addFilters fs).1.frameOf (.subscribe id wanted)
          with e | bs
        · exact .unsendable (Function.update_self _ _ _) rfl rfl rfl (mem_added hactive hwanted)
        · exact .unsent (Function.update_self _ _ _) rfl rfl rfl hwanted

end Client
end Mqtt
