import Mqtt.Proofs.Client.Calls
/-!
# The active filters of a client

A call of subscribe makes filters active when it begins; a request makes filters inactive when its
call returns, and `Purpose.gives` says which. `requestFails_eq` and `requestReturns_eq` put the end
of every request into one form.
-/

namespace Mqtt

/-- The filters that a SUBSCRIBE had made active and that the broker refused. -/
def refused (added : List String) (granted : List (Subscription × SubscribeCode)) : List String :=
  granted.filterMap fun (w, code) =>
    if code = .refused && added.contains w.filter then some w.filter else none

theorem refused_cons {added : List String} {w : Subscription} {code : SubscribeCode}
    {granted : List (Subscription × SubscribeCode)} :
    refused added ((w, code) :: granted) =
      if code = .refused && added.contains w.filter then w.filter :: refused added granted
      else refused added granted := by
  rw [refused, List.filterMap_cons]
  by_cases h : (decide (code = .refused) && added.contains w.filter) = true
  · simp only [h, if_true]
    rfl
  · simp only [h]
    rfl

/-- The filters that a request makes inactive when its call returns. -/
def Purpose.gives : Purpose → CallAnswer → List String
  | .subscribe _ added, .failed _ => added
  | .subscribe wanted added, .codes codes => refused added (wanted.zip codes)
  | .unsubscribe gone, .done => gone
  | _, _ => []

/-- What a request may come to. -/
inductive Purpose.ComesTo : Purpose → CallAnswer → Prop
  | failed {purpose : Purpose} {f : Fault} : ComesTo purpose (.failed f)
  | packetId {id : UInt16} : ComesTo .publish (.packetId id)
  | codes {wanted : List Subscription} {added : List String} {codes : List SubscribeCode} :
    ComesTo (.subscribe wanted added) (.codes codes)
  | done {gone : List String} : ComesTo (.unsubscribe gone) .done

namespace Client

variable {c : Client} {l : Link} {k : Nat} {f : String}

/-! ### Filters that become active -/

theorem mem_addFilter {g : String} :
    g ∈ (c.addFilter f).filters ↔ g ∈ c.filters ∨ g = f := by
  rw [addFilter]
  split_ifs with h
  · rw [List.contains_iff_mem] at h
    refine ⟨.inl, ?_⟩
    rintro (hg | rfl)
    · exact hg
    · exact h
  · simp

/-- Making filters active changes the filters and nothing else. -/
theorem addFilters_eq (fs : List String) :
    (c.addFilters fs).1 = { c with filters := (c.addFilters fs).1.filters } := by
  induction fs generalizing c with
  | nil => rfl
  | cons f fs ih =>
    have hf : c.addFilter f = { c with filters := (c.addFilter f).filters } := by
      rw [addFilter]
      split_ifs <;> rfl
    have h : (c.addFilters (f :: fs)).1 = ((c.addFilter f).addFilters fs).1 := rfl
    rw [h, ih, hf]

theorem mem_addFilters {fs : List String} {g : String} :
    g ∈ (c.addFilters fs).1.filters ↔ g ∈ c.filters ∨ g ∈ fs := by
  induction fs generalizing c with
  | nil => simp [addFilters]
  | cons f fs ih =>
    show g ∈ ((c.addFilter f).addFilters fs).1.filters ↔ _
    rw [ih, mem_addFilter, List.mem_cons, or_assoc]

/-- The filters that were not active before. -/
theorem mem_added_iff {fs : List String} {g : String} :
    g ∈ (c.addFilters fs).2 ↔ g ∈ fs ∧ g ∉ c.filters := by
  induction fs generalizing c with
  | nil => simp [addFilters]
  | cons f fs ih =>
    have hsnd : (c.addFilters (f :: fs)).2 =
        if !c.filters.contains f then f :: ((c.addFilter f).addFilters fs).2
        else ((c.addFilter f).addFilters fs).2 := rfl
    have htail : g ∈ ((c.addFilter f).addFilters fs).2 ↔ g ∈ fs ∧ ¬(g ∈ c.filters ∨ g = f) := by
      rw [ih, mem_addFilter]
    rw [hsnd]
    by_cases hfg : g = f
    · subst hfg
      by_cases hg : g ∈ c.filters <;> simp [hg, htail]
    · by_cases hf : f ∈ c.filters <;> simp [hf, htail, hfg]

theorem mem_added {fs : List String} {g : String} (hg : g ∉ c.filters) (h : g ∈ fs) :
    g ∈ (c.addFilters fs).2 := mem_added_iff.2 ⟨h, hg⟩

/-! ### Filters that become inactive -/

/-- The client with these filters inactive. -/
def without (c : Client) (fs : List String) : Client :=
  { c with filters := c.filters.filter fun f => !fs.contains f }

theorem without_nil : c.without [] = c := by
  have h : (c.filters.filter fun f => !([] : List String).contains f) = c.filters := by simp
  rw [without, h]

theorem without_cons {fs : List String} : (c.dropFilter f).without fs = c.without (f :: fs) := by
  have h : ((c.filters.filter (· != f)).filter fun g => !fs.contains g) =
      c.filters.filter fun g => !(f :: fs).contains g := by
    rw [List.filter_filter]
    refine List.filter_congr fun g _ => ?_
    by_cases hg : g = f <;> simp [hg]
  rw [without, dropFilter, without, h]

theorem rollBack_eq (fs : List String) : c.rollBack fs = c.without fs := by
  induction fs generalizing c with
  | nil => exact without_nil.symm
  | cons f fs ih =>
    show (c.dropFilter f).rollBack fs = _
    rw [ih, without_cons]

theorem dropRefused_eq (added : List String) (granted : List (Subscription × SubscribeCode)) :
    c.dropRefused added granted = c.without (refused added granted) := by
  induction granted generalizing c with
  | nil => exact without_nil.symm
  | cons g granted ih =>
    obtain ⟨w, code⟩ := g
    rw [dropRefused, ih, refused_cons]
    split_ifs
    · exact without_cons
    · rfl

/-- The client after a request has gone away that makes these filters inactive. -/
def withdraw (c : Client) (k : Nat) (id : UInt16) (fs : List String) : Client :=
  (c.release k id).without fs

theorem withdraw_nil {id : UInt16} : c.withdraw k id [] = c.release k id := without_nil

/-- **What is left of a request that has failed.** -/
theorem requestFails_eq (purpose : Purpose) (id : UInt16) (f : Fault)
    (seen : List ClientObservation) :
    c.requestFails l k purpose id f seen =
      (c.withdraw k id (purpose.gives (.failed f)), l, seen ++ [.answered k (.failed f)]) := by
  cases purpose with
  | subscribe wanted added =>
    show ((c.release k id).rollBack added, l, seen ++ [.answered k (.failed f)]) = _
    rw [rollBack_eq]
    rfl
  | publish =>
    show (c.release k id, l, seen ++ [.answered k (.failed f)]) = _
    rw [← withdraw_nil]
    rfl
  | unsubscribe gone =>
    show (c.release k id, l, seen ++ [.answered k (.failed f)]) = _
    rw [← withdraw_nil]
    rfl

/-- **What is left of a request that has its acknowledgement.** -/
theorem requestReturns_eq (purpose : Purpose) (id : UInt16) (ack : Packet) :
    ∃ a, c.requestReturns l k purpose id ack =
        (c.withdraw k id (purpose.gives a), l, [.answered k a]) ∧ purpose.ComesTo a := by
  unfold requestReturns
  split
  · next id' =>
    refine ⟨.packetId id', ?_, .packetId⟩
    rw [← withdraw_nil]
    rfl
  · exact ⟨_, requestFails_eq _ _ _ _, .failed⟩
  · next wanted added _ codes =>
    refine ⟨.codes codes, ?_, .codes⟩
    rw [dropRefused_eq]
    rfl
  · exact ⟨_, requestFails_eq _ _ _ _, .failed⟩
  · next gone _ =>
    refine ⟨.done, ?_, .done⟩
    rw [rollBack_eq]
    rfl
  · exact ⟨_, requestFails_eq _ _ _ _, .failed⟩

theorem mem_withdraw {id : UInt16} {fs : List String} :
    f ∈ (c.withdraw k id fs).filters ↔ f ∈ c.filters ∧ f ∉ fs := by
  simp [withdraw, without]

theorem call?_withdraw {k' : Nat} {id : UInt16} {fs : List String} :
    (c.withdraw k id fs).call? k' = if k' = k then none else c.call? k' :=
  call?_release

end Client
end Mqtt
