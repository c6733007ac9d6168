import Mathlib.Data.List.Induction
import Mqtt.Proofs.Client.Calls
/-!
# Which request waits under which packet id

A request takes a packet id that is free. The id is free again when its acknowledgement comes, and
once more when the request goes away, which may be later: by then the id may belong to another
request. So the ids that are taken are always those of the requests that wait (`Client.Tied`), but a
request that goes away after its acknowledgement has come can take the place of one that still
waits (`Client.Robs`).

`matched_always_iff` says that this is all that goes wrong: the ids that are taken are those of the
requests without an acknowledgement in every sequence of steps in which no request is robbed, and
in no other. Whoever is robbed has to wait until the ids have wrapped around
(`not_matched_around`).
-/

namespace Mqtt

/-- What happens to the requests of a client. -/
inductive RequestStep where
  /-- A request takes an id, for the packet that will carry it. -/
  | begins (k : Nat) (purpose : Purpose) (packet : UInt16 → Packet)
  /-- An acknowledgement comes. -/
  | acknowledges (id : UInt16) (ack : Packet)
  /-- A request goes away. -/
  | goes (k : Nat)

/-- The id of a request, and where its acknowledgement arrives. -/
def Call.slot? : Call → Option (UInt16 × Slot)
  | .request _ id _ slot _ => some (id, slot)
  | _ => none

/-- What an acknowledgement does to the slot it arrives at. -/
def Slot.fill (new : Slot) : Slot → Slot
  | .waiting => new
  | slot => slot

/-! ### Taking and freeing ids -/

namespace PacketIds

variable {ids ids' : PacketIds} {id : UInt16} {k tries : Nat}

/-- Only a free id is taken, and 0 never. -/
theorem reserveWithin_eq_some (h : reserveWithin k tries ids = (some id, ids')) :
    id ≠ 0 ∧ ids.taken[id]? = none ∧ ids'.taken = ids.taken.insert id k := by
  induction tries generalizing ids with
  | zero => cases h
  | succ tries ih =>
    rw [reserveWithin] at h
    dsimp only at h
    split_ifs at h with hpass
    · have hlater := ih h
      exact hlater
    · cases h
      rw [Bool.or_eq_true, decide_eq_true_eq, not_or] at hpass
      refine ⟨hpass.1, ?_, rfl⟩
      exact Std.TreeMap.getElem?_eq_none (by simpa using hpass.2)

/-- The next id is taken if it is free. -/
theorem reserve_of_free (hzero : ids.next ≠ 0) (hfree : ids.taken[ids.next]? = none) :
    ids.reserve k = (some ids.next, ⟨ids.next + 1, ids.taken.insert ids.next k⟩) := by
  have hcontains : ids.taken.contains ids.next = false := by
    rw [Std.TreeMap.contains_eq_isSome_getElem?, hfree]
    rfl
  show reserveWithin k (65535 + 1) ids = _
  rw [reserveWithin]
  simp [hzero, hcontains]

/-- Where the ids wrap around, 0 is passed over. -/
theorem reserve_of_zero (hzero : ids.next = 0) (hfree : ids.taken[(1 : UInt16)]? = none) :
    ids.reserve k = (some 1, ⟨2, ids.taken.insert 1 k⟩) := by
  have hcontains : ids.taken.contains 1 = false := by
    rw [Std.TreeMap.contains_eq_isSome_getElem?, hfree]
    rfl
  show reserveWithin k (65534 + 1 + 1) ids = _
  rw [reserveWithin]
  dsimp only
  rw [hzero, if_pos (by simp), reserveWithin]
  dsimp only
  rw [show (0 : UInt16) + 1 = 1 from rfl, hcontains]
  rfl

end PacketIds

namespace Client

variable {c c' : Client} {k k' : Nat} {id id' : UInt16} {slot : Slot}

/-! ### Requests -/

/-- The id of a request, and where its acknowledgement arrives. -/
def slot? (c : Client) (k : Nat) : Option (UInt16 × Slot) := c.calls[k]?.bind Call.slot?

/-- A request waits for its acknowledgement under this id. -/
def Waits (c : Client) (k : Nat) (id : UInt16) : Prop := c.slot? k = some (id, .waiting)

/-- A request holds this id and has got no acknowledgement. -/
def Unanswered (c : Client) (k : Nat) (id : UInt16) : Prop :=
  ∃ slot, c.slot? k = some (id, slot) ∧ ∀ ack, slot ≠ .filled ack

/-- The ids that are taken are those of the requests without an acknowledgement; no two of them have
the same, and none has 0. -/
structure Matched (c : Client) : Prop where
  keys : ∀ id, c.ids.taken.contains id = true ↔ ∃ k, c.Unanswered k id
  distinct : ∀ k k' id, c.Unanswered k id → c.Unanswered k' id → k = k'
  nonzero : ∀ k, ¬c.Unanswered k 0

/-- An id is taken by a request exactly as long as the request waits under it, and 0 is not. -/
structure Tied (c : Client) : Prop where
  taken : ∀ id k, c.ids.taken[id]? = some k ↔ c.Waits k id
  nonzero : ∀ k slot, c.slot? k ≠ some (0, slot)

/-- What a step does. A number that is in use is not given to another request. -/
def take (c : Client) : RequestStep → Client
  | .begins k purpose packet =>
    if c.calls.contains k then c
    else
      match c.reserve k with
      | .ok (id, c) => c.startRequest k purpose id (packet id)
      | .error _ => c
  | .acknowledges id ack => c.complete id ack
  | .goes k => c.abandon k

/-- What a sequence of steps does. -/
def play (c : Client) (steps : List RequestStep) : Client := steps.foldl take c

/-- A request goes away that has got its acknowledgement, while another one waits under its id. -/
def Robs (c : Client) (s : RequestStep) : Prop :=
  ∃ k k' id ack, s = .goes k ∧ c.slot? k = some (id, .filled ack) ∧ c.Waits k' id

theorem play_append {steps more : List RequestStep} :
    c.play (steps ++ more) = (c.play steps).play more :=
  List.foldl_append

theorem play_concat {steps : List RequestStep} {s : RequestStep} :
    c.play (steps ++ [s]) = (c.play steps).take s :=
  List.foldl_concat ..

/-! ### One operation -/

theorem slot?_fillSlot (new : Slot) (call : Call) :
    (fillSlot new call).slot? = call.slot?.map fun r => (r.1, new.fill r.2) := by
  rcases call with _ | ⟨_, _, _, _ | _ | _, _⟩ | _ | _ | _ <;> rfl

/-- A request begins. -/
theorem slot?_startRequest {purpose : Purpose} {p : Packet} :
    (c.startRequest k purpose id p).slot? k' =
      if k' = k then some (id, .waiting) else c.slot? k' := by
  rw [slot?, startRequest, setCall, Std.TreeMap.getElem?_insert, slot?]
  by_cases h : k' = k
  · subst h
    simp [Call.slot?]
  · simp [h, Ne.symm h]

/-- What has come for a call fills its slot, if the call is there. -/
theorem slot?_of_modify {new : Slot} {calls : Std.TreeMap Nat Call}
    (h : c'.calls = calls.modify k (fillSlot new)) :
    c'.slot? k' = if k' = k then (calls[k']?.bind Call.slot?).map fun r => (r.1, new.fill r.2)
      else calls[k']?.bind Call.slot? := by
  rw [slot?, h, Std.TreeMap.getElem?_modify]
  by_cases hk : k = k'
  · subst hk
    rw [if_pos (by simp), if_pos rfl, Option.bind_map, Option.map_bind]
    congr 1
    funext call
    exact slot?_fillSlot new call
  · rw [if_neg (by simpa using hk), if_neg (Ne.symm hk)]

/-- An acknowledgement comes to the request that its id belongs to. -/
theorem slot?_complete {ack : Packet} : (c.complete id ack).slot? k =
    if c.ids.taken[id]? = some k then (c.slot? k).map fun r => (r.1, (Slot.filled ack).fill r.2)
    else c.slot? k := by
  rcases hholder : c.ids.taken[id]? with _ | holder
  · simp [complete, PacketIds.free, hholder, slot?]
  · have hcalls : (c.complete id ack).calls = c.calls.modify holder (fillSlot (.filled ack)) := by
      simp [complete, PacketIds.free, hholder]
    rw [slot?_of_modify hcalls]
    by_cases hk : k = holder
    · subst hk
      rw [if_pos rfl, if_pos rfl, slot?]
    · rw [if_neg hk, if_neg fun h => hk (Option.some.inj h).symm, slot?]

theorem taken_complete {ack : Packet} :
    (c.complete id ack).ids.taken[id']? = if id' = id then none else c.ids.taken[id']? := by
  have htaken : (c.complete id ack).ids.taken = c.ids.taken.erase id := rfl
  rw [htaken, Std.TreeMap.getElem?_erase]
  by_cases h : id' = id
  · simp [h]
  · simp [h, Ne.symm h]

/-- A request goes away, and whoever its id belongs to by then gets no acknowledgement. -/
theorem slot?_release : (c.release k id).slot? k' =
    if k' = k then none
    else if c.ids.taken[id]? = some k' then (c.slot? k').map fun r => (r.1, Slot.lost.fill r.2)
    else c.slot? k' := by
  have herase : (c.calls.erase k)[k']? = if k' = k then none else c.calls[k']? := by
    rw [Std.TreeMap.getElem?_erase]
    by_cases h : k' = k
    · simp [h]
    · simp [h, Ne.symm h]
  -- The id is freed by number alone, so whoever holds it by now loses it.
  rcases hholder : c.ids.taken[id]? with _ | holder
  · have hcalls : (c.release k id).calls = c.calls.erase k := by
      simp [release, PacketIds.free, hholder]
    rw [slot?, hcalls, herase]
    by_cases hk : k' = k <;> simp [hk, slot?]
  · have hcalls : (c.release k id).calls = (c.calls.erase k).modify holder (fillSlot .lost) := by
      simp [release, PacketIds.free, hholder]
    rw [slot?_of_modify hcalls, herase]
    by_cases hk : k' = k
    · simp [hk]
    · rw [if_neg hk, if_neg hk]
      by_cases hother : k' = holder
      · subst hother
        rw [if_pos rfl, if_pos rfl, slot?]
      · rw [if_neg hother, if_neg fun h => hother (Option.some.inj h).symm, slot?]

theorem taken_release :
    (c.release k id).ids.taken[id']? = if id' = id then none else c.ids.taken[id']? := by
  show (c.complete id .pingReq).ids.taken[id']? = _
  exact taken_complete

/-- A request that is dropped gives its id back. -/
theorem abandon_eq_release (h : c.slot? k = some (id, slot)) :
    (c.abandon k).calls = (c.release k id).calls ∧ (c.abandon k).ids = (c.release k id).ids := by
  obtain ⟨call, hcall, hslot⟩ := Option.bind_eq_some_iff.1 h
  cases call with
  | request purpose id₁ frame slot₁ state =>
    cases hslot
    rcases state with _ | state
    · simp [abandon, hcall]
    · simp only [abandon, hcall]
      exact ⟨rfl, rfl⟩
  | _ => cases hslot

/-- A call that is no request leaves the requests alone when it is dropped. -/
theorem abandon_of_slot?_eq_none (h : c.slot? k = none) :
    (c.abandon k).slot? k' = c.slot? k' ∧ (c.abandon k).ids = c.ids := by
  have herase {c' : Client} (hcalls : c'.calls = c.calls.erase k) : c'.slot? k' = c.slot? k' := by
    rw [slot?, hcalls, Std.TreeMap.getElem?_erase]
    by_cases hk : k' = k
    · subst hk
      simp [h]
    · simp [Ne.symm hk, slot?]
  rcases hcall : c.calls[k]? with _ | call
  · simp only [abandon, hcall, and_true]
    exact herase rfl
  · have hslot : call.slot? = none := by
      rw [slot?, hcall] at h
      exact h
    cases call with
    | request purpose id frame slot state => cases hslot
    | receive deadline entered | leaving result entered =>
      cases entered <;> simp only [abandon, hcall, and_true] <;> exact herase rfl
    | send frame state | leave frame state =>
      simp only [abandon, hcall, and_true]
      exact herase rfl

/-! ### One step -/

/-- What a step does to the requests and to the ids that are taken. -/
inductive Takes (c c' : Client) : RequestStep → Prop
  /-- A request begins. -/
  | begins {k : Nat} {purpose : Purpose} {packet : UInt16 → Packet} {id : UInt16} :
    c.slot? k = none → id ≠ 0 → c.ids.taken[id]? = none →
    (∀ k', c'.slot? k' = if k' = k then some (id, .waiting) else c.slot? k') →
    (∀ id' : UInt16, c'.ids.taken[id']? = if id' = id then some k else c.ids.taken[id']?) →
    Takes c c' (.begins k purpose packet)
  /-- An acknowledgement comes. -/
  | acknowledges {id : UInt16} {ack : Packet} :
    (∀ k, c'.slot? k = if c.ids.taken[id]? = some k then
      (c.slot? k).map fun r => (r.1, (Slot.filled ack).fill r.2) else c.slot? k) →
    (∀ id' : UInt16, c'.ids.taken[id']? = if id' = id then none else c.ids.taken[id']?) →
    Takes c c' (.acknowledges id ack)
  /-- A request goes away. -/
  | goes {k : Nat} {id : UInt16} {slot : Slot} : c.slot? k = some (id, slot) →
    (∀ k', c'.slot? k' = if k' = k then none
      else if c.ids.taken[id]? = some k' then (c.slot? k').map fun r => (r.1, Slot.lost.fill r.2)
      else c.slot? k') →
    (∀ id' : UInt16, c'.ids.taken[id']? = if id' = id then none else c.ids.taken[id']?) →
    Takes c c' (.goes k)
  /-- Nothing that matters here. -/
  | rests {s : RequestStep} : (∀ k, s = .goes k → c.slot? k = none) →
    (∀ k, c'.slot? k = c.slot? k) → (∀ id : UInt16, c'.ids.taken[id]? = c.ids.taken[id]?) →
    Takes c c' s

theorem takes_take (c : Client) (s : RequestStep) : Takes c (c.take s) s := by
  cases s with
  | begins k purpose packet =>
    rw [take]
    by_cases huse : c.calls.contains k = true
    · rw [if_pos huse]
      exact .rests nofun (fun _ => rfl) fun _ => rfl
    · rw [if_neg huse, reserve]
      -- Where no id is free the request does not begin.
      rcases hreserve : c.ids.reserve k with ⟨_ | id, ids⟩
      · exact .rests nofun (fun _ => rfl) fun _ => rfl
      · obtain ⟨hzero, hfree, htaken⟩ := PacketIds.reserveWithin_eq_some hreserve
        have hnew : c.slot? k = none := by
          have hnone : c.calls[k]? = none := Std.TreeMap.getElem?_eq_none (by simpa using huse)
          rw [slot?, hnone]
          rfl
        refine .begins hnew hzero hfree (fun k' => slot?_startRequest) fun id' => ?_
        show ids.taken[id']? = _
        rw [htaken, Std.TreeMap.getElem?_insert]
        by_cases h : id' = id
        · simp [h]
        · simp [h, Ne.symm h]
  | acknowledges id ack => exact .acknowledges (fun _ => slot?_complete) fun _ => taken_complete
  | goes k =>
    rcases hslot : c.slot? k with _ | ⟨id, slot⟩
    · have hrest (k' : Nat) : (c.abandon k).slot? k' = c.slot? k' ∧ (c.abandon k).ids = c.ids :=
        abandon_of_slot?_eq_none hslot
      refine .rests (fun k' hk' => ?_) (fun k' => (hrest k').1) fun id => ?_
      · cases hk'
        exact hslot
      · show (c.abandon k).ids.taken[id]? = _
        rw [(hrest k).2]
    · -- The request gives back the id that it began with.
      obtain ⟨hcalls, hids⟩ := abandon_eq_release hslot
      refine .goes hslot (fun k' => ?_) fun id' => ?_
      · rw [← slot?_release, slot?, slot?]
        show (c.abandon k).calls[k']?.bind _ = _
        rw [hcalls]
      · rw [← taken_release]
        show (c.abandon k).ids.taken[id']? = _
        rw [hids]

/-- What a slot holds that waited after something has come for it. -/
theorem map_fill_waiting {new : Slot} :
    (some (id, Slot.waiting)).map (fun r => (r.1, new.fill r.2)) = some (id, new) := rfl

/-- An id is freed, and whoever waited under it waits no more. -/
theorem Tied.frees {new : Slot} (h : c.Tied) (hne : new ≠ .waiting)
    (hslot : ∀ k, c.ids.taken[id]? = some k → c'.slot? k = none ∨ c'.slot? k = some (id, new))
    (hothers : ∀ k, c.ids.taken[id]? ≠ some k → ∀ id', c'.Waits k id' ↔ c.Waits k id')
    (htaken : ∀ id' : UInt16, c'.ids.taken[id']? = if id' = id then none else c.ids.taken[id']?) :
    c'.ids.taken[id']? = some k ↔ c'.Waits k id' := by
  rw [htaken]
  by_cases hk : c.ids.taken[id]? = some k
  · have hwaits : c.slot? k = some (id, .waiting) := (h.taken id k).1 hk
    have hgone : ¬c'.Waits k id' := by
      rw [Waits]
      rcases hslot k hk with hnone | hnew
      · rw [hnone]
        nofun
      · rw [hnew]
        simpa using fun _ => hne
    refine iff_of_false (fun h' => ?_) hgone
    split_ifs at h' with hid
    -- The same request would wait under two ids.
    have hother : c.slot? k = some (id', .waiting) := (h.taken id' k).1 h'
    rw [hwaits] at hother
    cases hother
    exact hid rfl
  · rw [hothers k hk, ← h.taken]
    by_cases hid : id' = id
    · subst hid
      simp [hk]
    · rw [if_neg hid]

/-- A free id is taken by a request that begins. -/
theorem Tied.begins (h : c.Tied) (hnew : c.slot? k = none) (hfree : c.ids.taken[id]? = none)
    (hslots : ∀ k', c'.slot? k' = if k' = k then some (id, .waiting) else c.slot? k')
    (htaken : ∀ id' : UInt16, c'.ids.taken[id']? = if id' = id then some k else c.ids.taken[id']?) :
    c'.ids.taken[id']? = some k' ↔ c'.Waits k' id' := by
  rw [htaken, Waits, hslots]
  by_cases hk : k' = k
  · subst hk
    rw [if_pos rfl]
    by_cases hid : id' = id
    · simp [hid]
    · -- The request is new, so it held no other id.
      have hnone : ¬c.ids.taken[id']? = some k' := by
        rw [h.taken, Waits, hnew]
        nofun
      simp [hid, hnone, Ne.symm hid]
  · rw [if_neg hk]
    by_cases hid : id' = id
    · subst hid
      -- The id was free, so nobody waited under it.
      have hnone : ¬c.Waits k' id' := by
        rw [← h.taken, hfree]
        nofun
      rw [if_pos rfl]
      exact iff_of_false (by simpa using Ne.symm hk) hnone
    · rw [if_neg hid]
      exact h.taken id' k'

/-- No request gets the id 0 by what comes for it. -/
theorem Tied.ne_zero_of_fill {new : Slot} {P : Prop} [Decidable P] (h : c.Tied)
    (hslot : (if P then (c.slot? k).map fun r => (r.1, new.fill r.2) else c.slot? k) =
      some (0, slot)) : False := by
  split_ifs at hslot
  · obtain ⟨⟨id, old⟩, hold, heq⟩ := Option.map_eq_some_iff.1 hslot
    cases heq
    exact h.nonzero k old hold
  · exact h.nonzero k slot hslot

/-- **Every step keeps the ids that are taken tied to the requests that wait.** -/
theorem Tied.takes {s : RequestStep} (h : c.Tied) (ht : Takes c c' s) : c'.Tied := by
  cases ht with
  | @begins k purpose packet id hnew hzero hfree hslots htaken =>
    refine ⟨fun id' k' => h.begins hnew hfree hslots htaken, fun k' slot hslot => ?_⟩
    rw [hslots] at hslot
    split_ifs at hslot with hk
    · cases hslot
      exact hzero rfl
    · exact h.nonzero k' slot hslot
  | @acknowledges id ack hslots htaken =>
    have hne : Slot.filled ack ≠ .waiting := nofun
    refine ⟨fun id' k' => h.frees hne (fun k hk => ?_) (fun k hk id' => ?_) htaken,
      fun k slot hslot => ?_⟩
    · right
      rw [hslots, if_pos hk, show c.slot? k = _ from (h.taken id k).1 hk, map_fill_waiting]
    · rw [Waits, hslots, if_neg hk, Waits]
    · rw [hslots] at hslot
      exact h.ne_zero_of_fill hslot
  | @goes k id slot hk hslots htaken =>
    have hne : Slot.lost ≠ .waiting := nofun
    refine ⟨fun id' k' => h.frees hne (fun k' hk' => ?_) (fun k' hk' id' => ?_) htaken,
      fun k' slot' hslot => ?_⟩
    · rw [hslots]
      by_cases heq : k' = k
      · exact .inl (if_pos heq)
      · right
        rw [if_neg heq, if_pos hk', show c.slot? k' = _ from (h.taken id k').1 hk',
          map_fill_waiting]
    · rw [Waits, hslots, if_neg hk', Waits]
      by_cases heq : k' = k
      · -- The request that goes away waits before under no id but its own, and not after.
        subst heq
        rw [if_pos rfl, hk]
        refine iff_of_false nofun fun hwaits => hk' ?_
        cases hwaits
        exact (h.taken id k').2 hk
      · rw [if_neg heq]
    · rw [hslots] at hslot
      by_cases heq : k' = k
      · rw [if_pos heq] at hslot
        cases hslot
      · rw [if_neg heq] at hslot
        exact h.ne_zero_of_fill hslot
  | rests _ hslots htaken =>
    refine ⟨fun id k => ?_, fun k slot => ?_⟩
    · rw [htaken, Waits, hslots]
      exact h.taken id k
    · rw [hslots]
      exact h.nonzero k slot

/-- **When the ids that are taken are right**: as long as no request has lost its place. -/
theorem Tied.matched_iff (h : c.Tied) : c.Matched ↔ ∀ k id, c.slot? k ≠ some (id, .lost) := by
  constructor
  · intro hm k id hlost
    have hunanswered : c.Unanswered k id := ⟨.lost, hlost, nofun⟩
    -- The id is taken, so another request waits under it.
    have hkey := (hm.keys id).2 ⟨k, hunanswered⟩
    rw [Std.TreeMap.contains_eq_isSome_getElem?] at hkey
    obtain ⟨k', hk'⟩ := Option.isSome_iff_exists.1 hkey
    have hwaits : c.slot? k' = some (id, .waiting) := (h.taken id k').1 hk'
    obtain rfl := hm.distinct k k' id hunanswered ⟨.waiting, hwaits, nofun⟩
    rw [hlost] at hwaits
    cases hwaits
  · intro hnone
    have hwaits {k : Nat} {id : UInt16} : c.Unanswered k id ↔ c.Waits k id := by
      constructor
      · rintro ⟨slot, hslot, hfilled⟩
        cases slot with
        | waiting => exact hslot
        | filled ack => exact absurd rfl (hfilled ack)
        | lost => exact absurd hslot (hnone k id)
      · intro hw
        exact ⟨.waiting, hw, nofun⟩
    refine ⟨fun id => ?_, fun k k' id hk hk' => ?_, fun k hk => ?_⟩
    · rw [Std.TreeMap.contains_eq_isSome_getElem?, Option.isSome_iff_exists]
      simp only [hwaits, h.taken]
    · have htaken := (h.taken id k).2 (hwaits.1 hk)
      rw [(h.taken id k').2 (hwaits.1 hk')] at htaken
      exact (Option.some.inj htaken).symm
    · obtain ⟨slot, hslot, -⟩ := hk
      exact h.nonzero k slot hslot

/-- **What a step does to ids that are right**: they stay right unless a request is robbed. -/
theorem Matched.takes_iff {s : RequestStep} (h : c.Tied) (hm : c.Matched) (ht : Takes c c' s) :
    c'.Matched ↔ ¬c.Robs s := by
  have hnone := h.matched_iff.1 hm
  rw [(h.takes ht).matched_iff]
  -- Where nobody is robbed, nobody loses a place.
  have hstays (hrobs : ¬c.Robs s) (hslots : ∀ k id, c'.slot? k ≠ some (id, .lost)) :
      (∀ k id, c'.slot? k ≠ some (id, .lost)) ↔ ¬c.Robs s := iff_of_true hslots hrobs
  cases ht with
  | begins _ _ _ hslots _ =>
    refine hstays (by rintro ⟨k, k', id, ack, heq, -⟩; cases heq) fun k' id' => ?_
    rw [hslots]
    split_ifs
    · nofun
    · exact hnone k' id'
  | @acknowledges id ack hslots _ =>
    refine hstays (by rintro ⟨k, k', id, ack, heq, -⟩; cases heq) fun k id' => ?_
    rw [hslots]
    split_ifs with hk
    · rw [show c.slot? k = _ from (h.taken id k).1 hk, map_fill_waiting]
      nofun
    · exact hnone k id'
  | @goes k id slot hslot hslots _ =>
    constructor
    · rintro hlost ⟨_, k', id', ack, heq, hfilled, hwaits⟩
      cases heq
      rw [hslot] at hfilled
      cases hfilled
      have hne : k' ≠ k := by
        rintro rfl
        rw [Waits, hslot] at hwaits
        cases hwaits
      refine hlost k' id ?_
      rw [hslots, if_neg hne, if_pos ((h.taken id k').2 hwaits), show c.slot? k' = _ from hwaits,
        map_fill_waiting]
    · intro hrobs k' id'
      rw [hslots]
      split_ifs with hk hk'
      · nofun
      · -- The one whose id is freed is another request, so this one has had its acknowledgement.
        have hwaits := (h.taken id k').1 hk'
        refine absurd ⟨k, k', id, ?_⟩ hrobs
        cases slot with
        | waiting =>
          have htaken := (h.taken id k).2 hslot
          rw [hk'] at htaken
          exact absurd (Option.some.inj htaken) hk
        | filled ack => exact ⟨ack, rfl, hslot, hwaits⟩
        | lost => exact absurd hslot (hnone k id)
      · exact hnone k' id'
  | rests hgone hslots _ =>
    refine hstays ?_ fun k id => ?_
    · rintro ⟨k, k', id, ack, heq, hfilled, -⟩
      rw [hgone k heq] at hfilled
      cases hfilled
    · rw [hslots]
      exact hnone k id

/-! ### Every sequence of steps -/

theorem tied_fresh (config : ClientConfig) (connect : Bytes) (now : Nat) :
    (fresh config connect now).Tied where
  taken id k := iff_of_false (by simp [fresh, PacketIds.empty]) (by simp [Waits, slot?, fresh])
  nonzero k slot := by simp [slot?, fresh]

theorem tied_play (h : c.Tied) (steps : List RequestStep) : (c.play steps).Tied := by
  induction steps using List.reverseRecOn with
  | nil => exact h
  | append_singleton steps s ih =>
    rw [play_concat]
    exact ih.takes (takes_take _ _)

theorem matched_fresh (config : ClientConfig) (connect : Bytes) (now : Nat) :
    (fresh config connect now).Matched :=
  (tied_fresh config connect now).matched_iff.2 fun k id => by simp [slot?, fresh]

/-- **When the packet ids of a client are right.** In a sequence of steps, the ids that are taken
are at every moment those of the requests without an acknowledgement, all different and none of them
0, exactly if no request is robbed: none goes away after its acknowledgement while another one waits
under its id. -/
theorem matched_always_iff (config : ClientConfig) (connect : Bytes) (now : Nat)
    (steps : List RequestStep) :
    (∀ front, front <+: steps → ((fresh config connect now).play front).Matched) ↔
      ∀ front s, front ++ [s] <+: steps → ¬((fresh config connect now).play front).Robs s := by
  have htied (front : List RequestStep) := tied_play (tied_fresh config connect now) front
  constructor
  · intro hm front s hp
    have hbefore := hm front ((List.prefix_append front [s]).trans hp)
    -- A step that robs a request leaves it without a match.
    refine (hbefore.takes_iff (htied front) (takes_take _ s)).1 ?_
    rw [← play_concat]
    exact hm _ hp
  · intro hrobs front hp
    induction front using List.reverseRecOn with
    | nil => exact matched_fresh config connect now
    | append_singleton front s ih =>
      have hbefore := ih ((List.prefix_append front [s]).trans hp)
      rw [play_concat]
      exact (hbefore.takes_iff (htied front) (takes_take _ s)).2 (hrobs front s hp)

/-! ### Once around -/

/-- A request to publish an empty message begins. -/
def publishes (k : Nat) : RequestStep :=
  .begins k .publish fun id => .publish ((Publish.plain "t" []).withQoS .atLeastOnce (some id))

/-- The request 0 has got its acknowledgement and is still there, no id is taken, and this one comes
next. -/
structure Lingers (c : Client) (next : UInt16) : Prop where
  next : c.ids.next = next
  taken : ∀ id : UInt16, c.ids.taken[id]? = none
  filled : c.slot? 0 = some (1, .filled (.pubAck 1))
  idle : c.calls[1]? = none

/-- A request comes and goes, and the ids move on. -/
theorem Lingers.round {next : UInt16} (h : c.Lingers next) (hzero : next ≠ 0) :
    (c.play [publishes 1, .goes 1]).Lingers (next + 1) := by
  have hnext := h.next
  subst hnext
  have huse : c.calls.contains 1 = false := by
    rw [Std.TreeMap.contains_eq_isSome_getElem?, h.idle]
    rfl
  let ids : PacketIds := ⟨c.ids.next + 1, c.ids.taken.insert c.ids.next 1⟩
  have hbegin : c.take (publishes 1) = ({ c with ids := ids } : Client).startRequest 1 .publish
      c.ids.next (.publish ((Publish.plain "t" []).withQoS .atLeastOnce (some c.ids.next))) := by
    rw [publishes, take, if_neg (by simp [huse]), reserve,
      PacketIds.reserve_of_free hzero (h.taken _)]
  have hslot : (c.take (publishes 1)).slot? 1 = some (c.ids.next, .waiting) := by
    rw [hbegin, slot?_startRequest, if_pos rfl]
  obtain ⟨hcalls, hids⟩ := abandon_eq_release hslot
  show ((c.take (publishes 1)).abandon 1).Lingers _
  have hgone : ((c.take (publishes 1)).abandon 1).ids =
      ⟨c.ids.next + 1, (c.ids.taken.insert c.ids.next 1).erase c.ids.next⟩ := by
    rw [hids, hbegin]
    rfl
  have hslots (k : Nat) : ((c.take (publishes 1)).abandon 1).slot? k =
      ((c.take (publishes 1)).release 1 c.ids.next).slot? k := by
    rw [slot?, slot?, hcalls]
  -- The id in question is that of the request 1, not that of the one that lingers.
  have htaken : (c.take (publishes 1)).ids.taken[c.ids.next]? = some 1 := by
    rw [hbegin]
    exact Std.TreeMap.getElem?_insert_self
  refine ⟨by rw [hgone], fun id => ?_, ?_, ?_⟩
  · rw [hgone, Std.TreeMap.getElem?_erase, Std.TreeMap.getElem?_insert, h.taken]
    simp
  · rw [hslots, slot?_release, if_neg zero_ne_one, htaken, if_neg (by simp), hbegin,
      slot?_startRequest, if_neg zero_ne_one]
    exact h.filled
  · rw [hcalls]
    have hnone : ((c.take (publishes 1)).release 1 c.ids.next).call? 1 = none :=
      call?_release.trans (if_pos rfl)
    exact Option.map_eq_none_iff.1 hnone

/-- Any number of requests come and go before the ids wrap around. -/
theorem Lingers.rounds {n m : Nat} (h : c.Lingers (.ofNat n)) (hn : 0 < n) (hm : n + m ≤ 65536) :
    (c.play (List.replicate m [publishes 1, .goes 1]).flatten).Lingers (.ofNat (n + m)) := by
  induction m with
  | zero => exact h
  | succ m ih =>
    have hbefore := ih (by omega)
    have hzero : UInt16.ofNat (n + m) ≠ 0 := by
      intro heq
      have hvalue := congrArg UInt16.toNat heq
      rw [UInt16.toNat_ofNat', Nat.mod_eq_of_lt (by omega), UInt16.toNat_zero] at hvalue
      omega
    have hsucc : UInt16.ofNat (n + (m + 1)) = .ofNat (n + m) + 1 := by
      rw [← Nat.add_assoc, UInt16.ofNat_add]
      rfl
    rw [List.replicate_succ', List.flatten_append, play_append, hsucc]
    exact hbefore.round hzero

/-- A request gets its acknowledgement and stays; so many others come and go, and another one
begins. -/
def around (m : Nat) : List RequestStep :=
  [publishes 0, .acknowledges 1 (.pubAck 1)] ++
    (List.replicate m [publishes 1, .goes 1]).flatten ++ [publishes 1]

theorem lingers_acknowledged : ((fresh default [] 0).play
    [publishes 0, .acknowledges 1 (.pubAck 1)]).Lingers (.ofNat 2) := by
  let c := (fresh default [] 0).take (publishes 0)
  have hbegin : c = ({ fresh default [] 0 with ids := ⟨2, (∅ : Std.TreeMap UInt16 Nat).insert 1 0⟩ }
      : Client).startRequest 0 .publish 1
        (.publish ((Publish.plain "t" []).withQoS .atLeastOnce (some 1))) := by
    show (fresh default [] 0).take (publishes 0) = _
    rw [publishes, take, if_neg (by simp [fresh]), reserve,
      PacketIds.reserve_of_free (by decide) (by simp [fresh, PacketIds.empty])]
    rfl
  show (c.complete 1 (.pubAck 1)).Lingers _
  have htaken : c.ids.taken[(1 : UInt16)]? = some 0 := by
    rw [hbegin]
    exact Std.TreeMap.getElem?_insert_self
  refine ⟨?_, fun id => ?_, ?_, ?_⟩
  · show c.ids.next = 2
    rw [hbegin]
    rfl
  · rw [taken_complete, hbegin]
    show (if id = 1 then none else ((∅ : Std.TreeMap UInt16 Nat).insert 1 0)[id]?) = none
    rw [Std.TreeMap.getElem?_insert]
    split_ifs with h h'
    · rfl
    · exact absurd (by simpa using h') (Ne.symm h)
    · simp
  · rw [slot?_complete, if_pos htaken, hbegin, slot?_startRequest, if_pos rfl]
    rfl
  · have hnone : (c.complete 1 (.pubAck 1)).call? 1 = none := by
      rw [call?_complete, hbegin]
      exact (call?_of_insert rfl).trans (by simp [call?, fresh])
    exact Option.map_eq_none_iff.1 hnone

/-- Once the ids have gone round, the request that begins has the id of the one that stayed. -/
theorem robs_around {m : Nat} (hm : m = 65534) :
    ((fresh default [] 0).play (around m)).Robs (.goes 0) := by
  have hlingers := lingers_acknowledged.rounds (m := m) (by omega) (by omega)
  rw [show UInt16.ofNat (2 + m) = 0 from by rw [hm]; rfl] at hlingers
  generalize hc : ((fresh default [] 0).play [publishes 0, .acknowledges 1 (.pubAck 1)]).play _ = c
    at hlingers
  have hlast : (fresh default [] 0).play (around m) = c.take (publishes 1) := by
    rw [around, play_concat, play_append, hc]
  have huse : c.calls.contains 1 = false := by
    rw [Std.TreeMap.contains_eq_isSome_getElem?, hlingers.idle]
    rfl
  have hbegin : c.take (publishes 1) =
      ({ c with ids := ⟨2, c.ids.taken.insert 1 1⟩ } : Client).startRequest 1 .publish 1
        (.publish ((Publish.plain "t" []).withQoS .atLeastOnce (some 1))) := by
    rw [publishes, take, if_neg (by simp [huse]), reserve,
      PacketIds.reserve_of_zero hlingers.next (hlingers.taken 1)]
  refine ⟨0, 1, 1, .pubAck 1, rfl, ?_, ?_⟩
  · rw [hlast, hbegin, slot?_startRequest, if_neg zero_ne_one]
    exact hlingers.filled
  · rw [Waits, hlast, hbegin, slot?_startRequest, if_pos rfl]

/-- The request that stayed goes away, and the id of the one that waits is no longer taken. -/
theorem not_matched_around : ¬∀ front, front <+: around 65534 ++ [.goes 0] →
    ((fresh default [] 0).play front).Matched := fun hmatched =>
  (matched_always_iff default [] 0 (around 65534 ++ [.goes 0])).1 hmatched (around 65534) (.goes 0)
    (List.prefix_refl _) (robs_around rfl)

end Client
end Mqtt
