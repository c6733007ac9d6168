import Mqtt.Proofs.Client.Events
import Mqtt.Proofs.Client.Requests
/-!
# What a call of subscribe comes to

The filters of a call of subscribe are active from its beginning, so that no message is missed
between the acknowledgement and the return of the call. What was promised too early is taken back in
the end: all of it if the call fails, and otherwise what the broker has refused. The call finds out
what was refused by going through the filters and the codes side by side, as far as both go.

`Subscribing` says where such a call stands, and `Subscribing.next` that every event keeps it true
as long as no other call is about filters. So the filters that are active in the end are known
exactly (`subscribed_iff`). They are what the answer says if there is a code for each filter and no
new filter is both granted and refused, and only then: a filter without a code stays active although
nobody has granted it, and one refusal outweighs a grant of the same filter.
-/

namespace Mqtt

/-- Some code grants a filter. -/
def Granted (wanted : List Subscription) (codes : List SubscribeCode) (f : String) : Prop :=
  ∃ w qos, (w, .granted qos) ∈ wanted.zip codes ∧ w.filter = f

/-- Some code refuses a filter. -/
def Refused (wanted : List Subscription) (codes : List SubscribeCode) (f : String) : Prop :=
  ∃ w, (w, .refused) ∈ wanted.zip codes ∧ w.filter = f

/-- A call of subscribe leaves the filters as its answer says. If it fails, those are active that
were before; otherwise there is a code for every filter, and those are active as well that a code
grants. -/
def Honours (before after : List String) (wanted : List Subscription) : CallAnswer → Prop
  | .failed _ => ∀ f, f ∈ after ↔ f ∈ before
  | .codes codes => codes.length = wanted.length ∧
      ∀ f, f ∈ after ↔ f ∈ before ∨ Granted wanted codes f
  | _ => False

/-- The filter stays active that a call of subscribe has made active. -/
def StaysActive (wanted : List Subscription) : CallAnswer → String → Prop
  | .codes codes, f => f ∈ wanted.map Subscription.filter ∧ ¬Refused wanted codes f
  | _, _ => False

/-- The event neither begins another call that is about filters nor drops this one. -/
def Client.Event.IsApart (k : Nat) : Client.Event → Prop
  | .input (.calls _ (.subscribe _)) | .input (.calls _ (.unsubscribe _)) => False
  | .input (.abandons j) => j ≠ k
  | _ => True

variable {wanted : List Subscription} {codes : List SubscribeCode} {f : String}

/-! ### Filters and codes side by side -/

/-- If there is a code for every filter, every filter is granted or refused. -/
theorem mem_iff_granted_or_refused (h : codes.length = wanted.length) :
    f ∈ wanted.map Subscription.filter ↔ Granted wanted codes f ∨ Refused wanted codes f := by
  constructor
  · intro hf
    obtain ⟨w, hw, rfl⟩ := List.mem_map.1 hf
    have hfirst : (wanted.zip codes).map Prod.fst = wanted :=
      List.map_fst_zip (Nat.le_of_eq h.symm)
    rw [← hfirst] at hw
    obtain ⟨⟨w, code⟩, hzip, rfl⟩ := List.mem_map.1 hw
    cases code with
    | granted qos => exact .inl ⟨w, qos, hzip, rfl⟩
    | refused => exact .inr ⟨w, hzip, rfl⟩
  · rintro (⟨w, qos, hzip, rfl⟩ | ⟨w, hzip, rfl⟩)
    · exact List.mem_map_of_mem (List.of_mem_zip hzip).1
    · exact List.mem_map_of_mem (List.of_mem_zip hzip).1

theorem mem_refused_iff {added : List String} :
    f ∈ refused added (wanted.zip codes) ↔ f ∈ added ∧ Refused wanted codes f := by
  rw [refused, List.mem_filterMap]
  constructor
  · rintro ⟨⟨w, code⟩, hzip, h⟩
    dsimp only at h
    split_ifs at h with hcode
    cases h
    rw [Bool.and_eq_true, decide_eq_true_eq, List.contains_iff_mem] at hcode
    obtain ⟨rfl, hadded⟩ := hcode
    exact ⟨hadded, w, hzip, rfl⟩
  · rintro ⟨hadded, w, hzip, rfl⟩
    exact ⟨(w, .refused), hzip, by simp [hadded]⟩

theorem Purpose.gives_publish {a : CallAnswer} : Purpose.publish.gives a = [] := by
  cases a <;> rfl

/-- What is active once a call of subscribe has taken back what it must. -/
theorem mem_and_not_mem_gives {before added : List String} {a : CallAnswer}
    (hadded : ∀ f, f ∈ added ↔ f ∈ wanted.map Subscription.filter ∧ f ∉ before)
    (ha : (Purpose.subscribe wanted added).ComesTo a) :
    (f ∈ before ∨ f ∈ wanted.map Subscription.filter) ∧
        f ∉ (Purpose.subscribe wanted added).gives a ↔ f ∈ before ∨ StaysActive wanted a f := by
  cases ha with
  | failed =>
    show _ ∧ f ∉ added ↔ _ ∨ False
    rw [hadded]
    tauto
  | codes =>
    show _ ∧ f ∉ refused added (wanted.zip _) ↔ _ ∨ _ ∧ ¬_
    rw [mem_refused_iff, hadded]
    tauto

namespace Client

variable {c c' : Client} {l l' : Link} {e : Event} {es : List Event} {k : Nat} {n : Next}
  {before : List String} {seen more : List ClientObservation} {a : CallAnswer}

/-! ### What an event does to the filters -/

/-- What a request is for. -/
def purpose? (c : Client) (k : Nat) : Option Purpose := (c.request? k).map Request.purpose

/-- What an event does to the filters, if it begins no call that is about filters. -/
inductive Tends (c : Client) (e : Event) (n : Next) : Prop
  /-- They stay. So do the requests, unless one is dropped, and any new one is a message. -/
  | keeps : n.1.filters = c.filters →
    (∀ j p, n.1.purpose? j = some p → c.purpose? j = some p ∨ p = .publish) →
    (∀ j p, c.purpose? j = some p →
      (n.1.purpose? j = some p ∨ e = .input (.abandons j)) ∧ answer? j n.2.2 = none) →
    Tends c e n
  /-- A request returns, and makes filters inactive. -/
  | returns {j : Nat} {p : Purpose} {a : CallAnswer} : c.purpose? j = some p → p.ComesTo a →
    (∀ f, f ∈ n.1.filters ↔ f ∈ c.filters ∧ f ∉ p.gives a) →
    n.1.purpose? = Function.update c.purpose? j none →
    (∀ i, answer? i n.2.2 = if i = j then some a else none) → Tends c e n

theorem purpose?_update {r : Option Request}
    (h : n.1.request? = Function.update c.request? k r) :
    n.1.purpose? = Function.update c.purpose? k (r.map Request.purpose) := by
  funext j
  rw [purpose?, h]
  by_cases hj : j = k
  · subst hj
    rw [Function.update_self, Function.update_self]
  · rw [Function.update_of_ne hj, Function.update_of_ne hj]
    rfl

theorem purpose?_of_update_none {j : Nat} {p : Purpose}
    (h : n.1.purpose? = Function.update c.purpose? k none) (hj : n.1.purpose? j = some p) :
    j ≠ k ∧ c.purpose? j = some p := by
  rw [h] at hj
  by_cases hjk : j = k
  · subst hjk
    rw [Function.update_self] at hj
    cases hj
  · exact ⟨hjk, by rwa [Function.update_of_ne hjk] at hj⟩

theorem Tends.of_eq (hfilters : n.1.filters = c.filters) (hpurpose : n.1.purpose? = c.purpose?)
    (hanswer : ∀ j p, c.purpose? j = some p → answer? j n.2.2 = none) : Tends c e n :=
  .keeps hfilters (fun j p h => .inl (by rwa [hpurpose] at h)) fun j p h =>
    ⟨.inl (by rwa [hpurpose]), hanswer j p h⟩

theorem Deals.tends {i : Party} (h : Deals c l n i) : Tends c e n := by
  have hsilent (hnotes : c.notes n.2.2 = []) (j : Nat) (p : Purpose)
      (hj : c.purpose? j = some p) : answer? j n.2.2 = none := by
    obtain ⟨r, hr, -⟩ := Option.map_eq_some_iff.1 hj
    exact answer?_eq_none hr hnotes
  have hsame {k : Nat} {r r' : Request} (hr : c.request? k = some r)
      (hrequest : n.1.request? = Function.update c.request? k (some r'))
      (hpurpose : r'.purpose = r.purpose) : n.1.purpose? = c.purpose? := by
    rw [purpose?_update hrequest, Option.map_some, hpurpose, ← Option.map_some, ← hr]
    exact Function.update_eq_self k c.purpose?
  cases h with
  | rests hrequest hfilters hnotes _ =>
    refine .of_eq hfilters ?_ (hsilent hnotes)
    funext j
    rw [purpose?, hrequest, purpose?]
  | goesOn hr _ hrequest hfilters hnotes =>
    exact .of_eq hfilters (hsame hr hrequest rfl) (hsilent hnotes)
  | completes hr _ _ hrequest hfilters hnotes =>
    exact .of_eq hfilters (hsame hr hrequest rfl) (hsilent hnotes)
  | returns hr _ _ hfits hrequest hfilters _ hanswer =>
    exact .returns (by rw [purpose?, hr]; rfl) hfits hfilters (purpose?_update hrequest) hanswer

/-- A call that is not about filters begins. -/
theorem Starts.tends {call : ClientCall} {j : Nat} (h : Starts c k call c')
    (hapart : Event.IsApart j (.input (.calls k call))) (hfresh : c.purpose? k = none) :
    Tends c e (c', l, []) := by
  -- Whatever begins here is about publishing, and no filter changes.
  have hbegins (new : Option Request) (hfilters : c'.filters = c.filters)
      (hrequest : c'.request? = Function.update c.request? k new)
      (hnew : ∀ r, new = some r → r.purpose = .publish) : Tends c e (c', l, []) := by
    have hpurpose := purpose?_update (n := (c', l, [])) hrequest
    refine .keeps hfilters (fun j p hj => ?_) fun j p hj => ⟨.inl ?_, rfl⟩
    · rw [hpurpose] at hj
      by_cases hjk : j = k
      · subst hjk
        rw [Function.update_self] at hj
        obtain ⟨r, hr, rfl⟩ := Option.map_eq_some_iff.1 hj
        exact .inr (hnew r hr)
      · rw [Function.update_of_ne hjk] at hj
        exact .inl hj
    · rw [hpurpose, Function.update_of_ne, hj]
      rintro rfl
      rw [hfresh] at hj
      cases hj
  cases h with
  | publish _ | ping | disconnect | receive =>
    exact hbegins none rfl (request?_of_insert rfl rfl) fun _ hnone => by cases hnone
  | @publishAcknowledged topic payload id ids _ _ =>
    let frame := (c.reserved ids).frameOf
      (.publish ((Publish.plain topic payload).withQoS .atLeastOnce (some id)))
    refine hbegins (some ⟨.publish, id, frame, some .starting⟩) rfl (request?_of_insert rfl rfl) ?_
    rintro r ⟨⟩
    rfl
  | subscribe _ _ _ => exact hapart.elim
  | unsubscribe _ _ => exact hapart.elim

/-- A call is dropped. -/
theorem Drops.tends {call : Option Call} (h : Drops c k call c') :
    Tends c (.input (.abandons k)) (c', l, []) := by
  have hfilters : c'.filters = c.filters := by cases h <;> rfl
  have hother (j : Nat) (hj : j ≠ k) : c'.purpose? j = c.purpose? j := by
    rw [purpose?, request?, h.callMoved.call? j hj]
    rfl
  refine .keeps hfilters (fun j p hp => .inl ?_) fun j p hp => ⟨?_, rfl⟩
  · by_cases hj : j = k
    · subst hj
      have hnone : c'.purpose? j = none := by
        rw [purpose?, request?, h.call?_eq_none]
        rfl
      cases hnone.symm.trans hp
    · rwa [hother j hj] at hp
  · by_cases hj : j = k
    · exact .inr (by rw [hj])
    · exact .inl ((hother j hj).trans hp)

/-- **What every event does to the filters.** -/
theorem Happens.tends (h : Happens c l e n) (hapart : e.IsApart k) : Tends c e n := by
  have hfresh {j : Nat} (hj : c.calls[j]? = none) : c.purpose? j = none := by
    rw [purpose?, request?, call?, hj]
    rfl
  cases h with
  | begins _ hnone hstarts => exact hstarts.tends hapart (hfresh hnone)
  | @refuses j call a _ hnone _ =>
    refine .of_eq rfl rfl fun i p hi => ?_
    rw [answer?_answered, if_neg]
    rintro rfl
    cases (hfresh hnone).symm.trans hi
  | abandons => exact (drops_abandon _).tends
  | moves hstep => exact (step_deals hstep).tends
  | _ => exact .of_eq rfl rfl fun _ _ _ => rfl

/-! ### How far a call of subscribe is -/

/-- How far a call of subscribe is that began when these filters were active, with what it has
answered, while no other call is about filters. -/
inductive Subscribing (before : List String) (wanted : List Subscription) (k : Nat) (c : Client) :
    Option CallAnswer → Prop
  /-- It has not returned: all its filters are active. -/
  | waits {added : List String} : c.purpose? k = some (.subscribe wanted added) →
    (∀ j p, j ≠ k → c.purpose? j = some p → p = .publish) →
    (∀ f, f ∈ added ↔ f ∈ wanted.map Subscription.filter ∧ f ∉ before) →
    (∀ f, f ∈ c.filters ↔ f ∈ before ∨ f ∈ wanted.map Subscription.filter) →
    Subscribing before wanted k c none
  /-- It has returned: of its filters those are active that it has not taken back. -/
  | returned {a : CallAnswer} : (∃ added, (Purpose.subscribe wanted added).ComesTo a) →
    (∀ j p, c.purpose? j = some p → p = .publish) →
    (∀ f, f ∈ c.filters ↔ f ∈ before ∨ StaysActive wanted a f) →
    Subscribing before wanted k c (some a)

/-- **Every event that is apart keeps it true.** -/
theorem Subscribing.next {answer : Option CallAnswer} (h : Subscribing before wanted k c answer)
    (htends : Tends c e n) (hapart : e.IsApart k) :
    Subscribing before wanted k n.1 (answer.or (answer? k n.2.2)) := by
  cases h with
  | @waits added hpurpose hothers hadded hactive =>
    cases htends with
    | keeps hfilters hnew hold =>
      obtain ⟨hkept | rfl, hnone⟩ := hold k _ hpurpose
      · rw [hnone]
        exact .waits hkept (fun j p hj hp => (hnew j p hp).elim (hothers j p hj) id) hadded
          fun f => by rw [hfilters, hactive]
      · exact absurd rfl hapart
    | @returns j p a hp hfits hfilters hgone hanswer =>
      by_cases hj : j = k
      · subst hj
        cases hpurpose.symm.trans hp
        -- The call returns. What it takes back are its own filters, less those that are granted.
        rw [hanswer, if_pos rfl]
        refine .returned ⟨added, hfits⟩ (fun i p hp => ?_) fun f => ?_
        · obtain ⟨hi, hp⟩ := purpose?_of_update_none hgone hp
          exact hothers i p hi hp
        · rw [hfilters, hactive]
          exact mem_and_not_mem_gives hadded hfits
      · obtain rfl := hothers j p hj hp
        -- Another request returns. It is about publishing, and takes back no filter.
        rw [hanswer, if_neg (Ne.symm hj)]
        refine .waits ?_ (fun i p hi hp => ?_) hadded fun f => ?_
        · rw [hgone, Function.update_of_ne (Ne.symm hj), hpurpose]
        · exact hothers i p hi (purpose?_of_update_none hgone hp).2
        · rw [hfilters, Purpose.gives_publish, hactive]
          exact and_iff_left List.not_mem_nil
  | @returned a hcomes hothers hactive =>
    rw [Option.some_or]
    cases htends with
    | keeps hfilters hnew _ =>
      exact .returned hcomes (fun j p hp => (hnew j p hp).elim (hothers j p) id)
        fun f => by rw [hfilters, hactive]
    | returns hp _ hfilters hgone _ =>
      obtain rfl := hothers _ _ hp
      -- The answer stays, and what returns now is about publishing.
      refine .returned hcomes (fun i p hp => ?_) fun f => ?_
      · exact hothers i p (purpose?_of_update_none hgone hp).2
      · rw [hfilters, Purpose.gives_publish, hactive]
        exact and_iff_left List.not_mem_nil

/-- No call is about filters. -/
def Idle (c : Client) : Prop := ∀ j r, c.request? j = some r → r.purpose = .publish

theorem Idle.purpose? (h : c.Idle) {j : Nat} {p : Purpose} (hp : c.purpose? j = some p) :
    p = .publish := by
  obtain ⟨r, hr, rfl⟩ := Option.map_eq_some_iff.1 hp
  exact h j r hr

theorem start_subscribe_eq_error (h : c.start k (.subscribe wanted) = .error a) :
    (wanted = [] ∧ a = .codes []) ∨ ∃ f, a = .failed f := by
  rw [start] at h
  split_ifs at h with hempty
  · cases h
    exact .inl ⟨List.isEmpty_iff.1 hempty, rfl⟩
  · split at h
    · cases h
      exact .inr ⟨_, rfl⟩
    · cases h

/-- A call of subscribe begins. -/
theorem Subscribing.begins (hidle : c.Idle)
    (h : Happens c l (.input (.calls k (.subscribe wanted))) n) :
    Subscribing c.filters wanted k n.1 (answer? k n.2.2) := by
  cases h with
  | begins _ _ hstarts =>
    cases hstarts with
    | @subscribe _ id ids _ _ _ =>
      let fs := wanted.map Subscription.filter
      have hcalls : ((c.reserved ids).addFilters fs).1.calls = c.calls := by
        rw [addFilters_eq]
        rfl
      have hpurpose := purpose?_update (c := c) (k := k)
        (n := (((c.reserved ids).addFilters fs).1.startRequest k
          (.subscribe wanted ((c.reserved ids).addFilters fs).2) id (.subscribe id wanted), l, []))
        (request?_of_insert (by rw [← hcalls]; rfl) rfl)
      have hself := congrFun hpurpose k
      rw [Function.update_self] at hself
      refine .waits hself (fun j p hj hp => ?_) (fun f => mem_added_iff) fun f => mem_addFilters
      rw [hpurpose, Function.update_of_ne hj] at hp
      exact hidle.purpose? hp
  | refuses _ _ hrefused =>
    rw [answer?_answered, if_pos rfl]
    -- A call that is refused has added no filter.
    rcases start_subscribe_eq_error hrefused with ⟨rfl, rfl⟩ | ⟨f, rfl⟩
    · exact .returned ⟨[], .codes⟩ (fun j p => hidle.purpose?) fun f => by simp [StaysActive]
    · exact .returned ⟨[], .failed⟩ (fun j p => hidle.purpose?) fun f => by simp [StaysActive]

/-- **Where a call of subscribe stands in a run.** -/
theorem subscribing_of_replay (hidle : c.Idle)
    (h : c.replay l (.input (.calls k (.subscribe wanted)) :: es) = some (c', l', seen))
    (hapart : ∀ e ∈ es, e.IsApart k) :
    Subscribing c.filters wanted k c' (answer? k seen) := by
  obtain ⟨c₁, l₁, seen₁, more, hevent, hrest, rfl⟩ := replay_cons_eq_some.1 h
  have hbegins := Subscribing.begins hidle (happens_of_event? hevent)
  refine replay_induction
    (P := fun es c' _ more => (∀ e ∈ es, e.IsApart k) →
      Subscribing c.filters wanted k c' (answer? k (seen₁ ++ more))) ?_ ?_ hrest hapart
  · intro _
    rwa [List.append_nil]
  · intro es e c₂ l₂ more₂ c₃ l₃ more₃ _ hevent ih hapart
    have hlast := hapart e (by simp)
    have hbefore := ih fun e' he' => hapart e' (List.mem_append_left _ he')
    rw [← List.append_assoc, answer?_append]
    exact hbefore.next ((happens_of_event? hevent).tends hlast) hlast

/-! ### What the answer says -/

/-- **What a call of subscribe comes to.** A call of subscribe that no other call about filters runs
beside has failed, or has answered with the codes of the broker. The filters that are active then
are those that were active before, and, unless it has failed, those of its own that no code refuses.
This is as its answer says, if and only if either it has failed, or there are as many codes as
filters and no filter that was not active before is both granted and refused. -/
theorem subscribed_iff (hidle : c.Idle)
    (h : c.replay l (.input (.calls k (.subscribe wanted)) :: es) = some (c', l', seen))
    (hapart : ∀ e ∈ es, e.IsApart k) (ha : answer? k seen = some a) :
    (∀ f, f ∈ c'.filters ↔ f ∈ c.filters ∨ StaysActive wanted a f) ∧
      (Honours c.filters c'.filters wanted a ↔ ∀ codes, a = .codes codes →
        codes.length = wanted.length ∧
          ∀ f, f ∉ c.filters → Granted wanted codes f → ¬Refused wanted codes f) := by
  have hstands := subscribing_of_replay hidle h hapart
  rw [ha] at hstands
  cases hstands with
  | returned hcomes _ hactive =>
    refine ⟨hactive, ?_⟩
    obtain ⟨added, hcomes⟩ := hcomes
    cases hcomes with
    | failed =>
      -- A call that has failed has taken back what it had added.
      refine iff_of_true (fun f => ?_) nofun
      rw [hactive]
      exact or_iff_left id
    | @codes _ _ codes =>
      constructor
      · rintro ⟨hlength, htells⟩ _ ⟨⟩
        refine ⟨hlength, fun f hbefore hgranted => ?_⟩
        have hafter := (hactive f).1 ((htells f).2 (.inr hgranted))
        exact (hafter.resolve_left hbefore).2
      · intro hfair
        obtain ⟨hlength, hfair⟩ := hfair codes rfl
        refine ⟨hlength, fun f => ?_⟩
        -- What was active before stays so, whatever the codes say.
        by_cases hbefore : f ∈ c.filters
        · exact iff_of_true ((hactive f).2 (.inl hbefore)) (.inl hbefore)
        · rw [hactive, StaysActive, mem_iff_granted_or_refused hlength]
          have hnot := hfair f hbefore
          tauto

/-- A client opens its session. -/
def welcomed : List Event :=
  [.move (.party .reader (.send .push)), .input (.peerWrites [0x20, 2, 0, 0]),
    .move (.party .reader .receive), .move (.party .reader .dispatch)]

/-- Two filters that a client asks for. -/
def twoFilters : List Subscription := [⟨"a", .atMostOnce⟩, ⟨"b", .atMostOnce⟩]

/-- The SUBSCRIBE goes out, and the SUBACK has one code for it. -/
def scantAnswer : List Event :=
  [SendMove.enter, .layOut, .push].map (fun m => .move (.party (.call 0) (.send m))) ++
    [.input (.peerWrites [0x90, 3, 0, 1, 0]), .move (.party .reader .receive),
      .move (.party .reader .dispatch), .move (.party (.call 0) .take)]

/-- One code is answered for two filters, and the filter without a code is active. -/
theorem not_honours_scantAnswer : ∃ c₀ l₀ seen₀ c l c' l' seen,
    Begins c₀ l₀ ∧ c₀.replay l₀ welcomed = some (c, l, seen₀) ∧ c.Idle ∧
    c.replay l (.input (.calls 0 (.subscribe twoFilters)) :: scantAnswer) = some (c', l', seen) ∧
    (∀ e ∈ scantAnswer, e.IsApart 0) ∧
    answer? 0 seen = some (.codes [.granted .atMostOnce]) ∧ "b" ∈ c'.filters ∧
    ¬Honours c.filters c'.filters twoFilters (.codes [.granted .atMostOnce]) := by
  have hend : (connect (.ofAddr "" "c") 0).toOption.bind (fun c₀ =>
      (c₀.replay (.empty 64) welcomed).bind fun n₀ =>
        (n₀.1.replay n₀.2.1 (.input (.calls 0 (.subscribe twoFilters)) :: scantAnswer)).map fun n =>
          (n₀.1.calls.isEmpty, answer? 0 n.2.2)) =
      some (true, some (.codes [.granted .atMostOnce])) := by
    decide +kernel
  obtain ⟨c₀, hconnect, hend⟩ := Option.bind_eq_some_iff.1 hend
  obtain ⟨⟨c, l, seen₀⟩, hrun₀, hend⟩ := Option.bind_eq_some_iff.1 hend
  obtain ⟨⟨c', l', seen⟩, hrun, hend⟩ := Option.map_eq_some_iff.1 hend
  simp only [Prod.mk.injEq] at hend
  obtain ⟨hempty, hanswer⟩ := hend
  have hidle : c.Idle := by
    intro j r hr
    rw [request?, call?, Std.TreeMap.getElem?_of_isEmpty hempty] at hr
    cases hr
  have hapart : ∀ e ∈ scantAnswer, e.IsApart 0 := by
    simp [scantAnswer, Event.IsApart]
  obtain ⟨hactive, hhonours⟩ := subscribed_iff hidle hrun hapart hanswer
  refine ⟨c₀, .empty 64, seen₀, c, l, c', l', seen, begins_of_toOption hconnect, hrun₀, hidle, hrun,
    hapart, hanswer, (hactive "b").2 (.inr ⟨by decide, ?_⟩), fun h => ?_⟩
  · simp [Refused, twoFilters]
  · exact absurd (hhonours.1 h _ rfl).1 (by decide)

end Client
end Mqtt
