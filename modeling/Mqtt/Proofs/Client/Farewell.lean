import Mqtt.Proofs.Client.Events
/-!
# Whether a goodbye is the last word

A call that disconnects uses the stream twice: it writes its DISCONNECT, and it shuts the stream.
In between it has left the turnstile and comes to it again, so whoever stands in line by then is
served first, and nothing keeps them from writing: the token of the client is not cancelled before
the stream is shut.

`Client.lastWord_iff` says that this is the only way in which bytes come behind a DISCONNECT, and
that every write of that sort does put bytes there. It rests on what becomes of a call that has said
goodbye (`Parting.next`) and on nobody writing who is not inside (`interjects_of_writes`).
-/

namespace Mqtt

/-- The bytes of a DISCONNECT. -/
def goodbye : Bytes := [0xe0, 0]

theorem Packet.toBytes_disconnect (v : Version) : Packet.disconnect.toBytes v = .ok goodbye := by
  cases v <;> decide +kernel

/-- Whether a call has said goodbye, and has not shut the stream yet. -/
def Call.isParting : Call → Bool
  | .leaving (.ok ()) _ => true
  | _ => false

namespace Client

/-- A call has said goodbye, and has not shut the stream yet. -/
def Parting (c : Client) (k : Nat) : Prop :=
  ∃ entered, c.call? k = some (.leaving (.ok ()) entered)

theorem parting_iff {c : Client} {k : Nat} :
    c.Parting k ↔ (c.call? k).any Call.isParting = true := by
  rw [Parting]
  rcases c.call? k with _ | ⟨_, _⟩ | ⟨_, _, _, _, _⟩ | ⟨_, _⟩ | ⟨_, _⟩ | ⟨_ | ⟨⟩, _⟩ <;>
    simp [Call.isParting]

instance (c : Client) (k : Nat) : Decidable (c.Parting k) := decidable_of_iff _ parting_iff.symm

/-- A call that has said goodbye is dropped by its caller before it shuts the stream. -/
def Deserts (c : Client) (_ : Link) (e : Event) : Prop :=
  ∃ k, c.Parting k ∧ e = .input (.abandons k)

/-- A party puts bytes into the stream. -/
def Writes (c : Client) (l : Link) (i : Party) (e : Event) : Prop :=
  e = .move (.party i (.send .push)) ∧ ∃ n, c.event? l e = some n ∧ streamOf n.2.2 ≠ []

/-- While a call has said goodbye and not shut the stream yet, another party is inside and puts
bytes into the stream. -/
def Interjects (c : Client) (l : Link) (e : Event) : Prop :=
  ∃ k i, c.Parting k ∧ i ≠ .call k ∧ c.turnstile.inside = some i ∧ c.Writes l i e

/-- Whenever a call has said goodbye, all that is written in the run has been written. -/
def LastWord (c : Client) (l : Link) (es : List Event) (written : Bytes) : Prop :=
  c.Always l es fun c₁ _ seen₁ => ∀ k, c₁.Parting k → streamOf seen₁ = written

/-- Whenever a call has just said goodbye, the stream ends with a DISCONNECT. -/
def SaysGoodbye (c : Client) (l : Link) (es : List Event) : Prop :=
  ∀ es₁ e c₁ l₁ seen₁ n k, es₁ ++ [e] <+: es → c.replay l es₁ = some (c₁, l₁, seen₁) →
    c₁.event? l₁ e = some n → ¬c₁.Parting k → n.1.Parting k →
    goodbye <:+ streamOf (seen₁ ++ n.2.2)

variable {c c' c₁ c₂ : Client} {l l' l₁ l₂ : Link} {es es₁ es₂ : List Event} {e : Event} {k : Nat}
  {seen seen₁ more : List ClientObservation} {n : Next}

/-! ### Saying goodbye -/

/-- Whoever leaves sends a DISCONNECT. -/
def Polite (c : Client) : Prop :=
  ∀ k frame s, c.call? k = some (.leave frame s) → frame = .ok goodbye

theorem Starts.polite {call : ClientCall} {frame : Except Fault Bytes} {s : Sending}
    (h : Starts c k call c') (hk : c'.call? k = some (.leave frame s)) : frame = .ok goodbye := by
  cases h with
  | disconnect =>
    rw [call?_of_insert rfl, if_pos rfl] at hk
    cases hk
    exact Packet.toBytes_disconnect _
  | _ =>
    rw [call?_of_insert rfl, if_pos rfl] at hk
    cases hk

theorem Polite.next (hp : c.Polite) (h : Happens c l e n) : n.1.Polite := by
  intro k frame s hk
  cases h.meets k with
  | rests hsame => exact hp k frame s (hsame.symm.trans hk)
  | begins _ _ hstarts => exact hstarts.polite hk
  | dropped _ hnone =>
    rw [hnone] at hk
    cases hk
  | @moves call m _ hcall hcalls =>
    obtain ⟨call', hbare, hgoes⟩ := hcalls.goesOn hk
    have hbefore := call?_eq hcall
    generalize streamOf n.2.2 = bs at hgoes
    cases hgoes with
    | leaves _ =>
      cases hbare
      exact hp k frame _ hbefore
    | _ => cases hbare

theorem Begins.polite (h : Begins c l) : c.Polite := by
  cases h with
  | intro hconnect =>
    obtain ⟨bs, -, rfl⟩ := connect_eq_ok hconnect
    intro k frame s hk
    rw [call?_fresh] at hk
    cases hk

/-- The stream, and the parties that write it, as every run keeps them. -/
structure Speaking (c : Client) (seen : List ClientObservation) : Prop where
  wired : c.Wired
  polite : c.Polite
  trails : c.lane.Trails (streamOf seen)

theorem Begins.speaking (h : Begins c l) : c.Speaking [] where
  wired := h.wired
  polite := h.polite
  trails := by
    cases h with
    | intro hconnect =>
      obtain ⟨bs, hbytes, rfl⟩ := connect_eq_ok hconnect
      intro i part left hi
      rw [Lane.Pushes, sending_fresh hbytes] at hi
      split_ifs at hi
      simp only [Option.some.injEq, Prod.mk.injEq, Except.ok.injEq, Sending.pushing.injEq] at hi
      obtain ⟨hframe, rfl⟩ := hi
      rw [List.append_left_eq_self.1 hframe.symm]
      exact List.nil_suffix

theorem Speaking.next (h : c.Speaking seen) (hevent : c.event? l e = some n) :
    n.1.Speaking (seen ++ n.2.2) := by
  have hhappens := happens_of_event? hevent
  obtain ⟨lm, hstep, -⟩ := hhappens.lane h.wired.orderly
  refine ⟨h.wired.next hevent, h.polite.next hhappens, ?_⟩
  rw [streamOf_append]
  exact h.trails.step h.wired.exclusive hstep

theorem speaking_of_replay (hb : Begins c l) (h : c.replay l es = some (c', l', seen)) :
    c'.Speaking seen :=
  replay_induction (P := fun _ c _ seen => c.Speaking seen) hb.speaking
    (fun _ _ _ _ _ _ _ _ _ hevent hs => hs.next hevent) h

/-- **Whoever has just said goodbye has put a DISCONNECT into the stream.** -/
theorem Speaking.ends (h : c.Speaking seen) (hevent : c.event? l e = some n)
    (hbefore : ¬c.Parting k) (hafter : n.1.Parting k) :
    Mqtt.goodbye <:+ streamOf (seen ++ n.2.2) := by
  rw [streamOf_append]
  obtain ⟨entered, hk⟩ := hafter
  cases (happens_of_event? hevent).meets k with
  -- Whoever parts now did not before, so this call has moved, and has not just begun.
  | rests hsame => exact absurd ⟨entered, hsame.symm.trans hk⟩ hbefore
  | begins _ _ hstarts =>
    generalize n.1 = c' at hstarts hk
    cases hstarts with
    | _ =>
      rw [call?_of_insert rfl, if_pos rfl] at hk
      cases hk
  | dropped _ hnone =>
    rw [hnone] at hk
    cases hk
  | @moves call m _ hcall hcalls =>
    obtain ⟨call', hbare, hgoes⟩ := hcalls.goesOn hk
    have hwas := call?_eq hcall
    generalize streamOf n.2.2 = bs at hgoes ⊢
    cases hgoes with
    | @left frame s m c₁ l₁ r pushed hsends =>
      cases hbare
      -- Its frame is whole, and a call that leaves has no other than the DISCONNECT.
      obtain rfl := hsends.whole
      obtain rfl := h.polite k _ _ hwas
      have hpushes : c.lane.Pushes (.call k) (.ok Mqtt.goodbye) (streamOf pushed) :=
        sending?_call_eq hcall
      exact h.trails.of_pushes h.wired.exclusive hpushes
    | comes =>
      -- It comes to the turnstile to shut the stream; it was parting before.
      cases hbare
      exact absurd ⟨false, hwas⟩ hbefore
    | _ => cases hbare

/-! ### After the goodbye -/

/-- A call that has said goodbye waits until it has shut the stream, or is dropped. -/
theorem Parting.next (hp : c.Parting k) (h : Happens c l e n) (hstays : ¬c.Deserts l e) :
    n.1.Parting k ∨ n.2.1.up.closed = true := by
  obtain ⟨entered, hk⟩ := hp
  cases h.meets k with
  | rests hsame => exact .inl ⟨entered, hsame.trans hk⟩
  | begins _ hnone _ =>
    rw [hnone] at hk
    cases hk
  | dropped he _ => exact absurd ⟨k, ⟨entered, hk⟩, he⟩ hstays
  | @moves call m _ hcall hcalls =>
    have hbare : call.bare = .leaving (.ok ()) entered :=
      Option.some.inj ((call?_eq hcall).symm.trans hk)
    cases hcalls with
    | comes =>
      cases hbare
      exact .inl ⟨true, (call?_of_insert rfl).trans (if_pos rfl)⟩
    | shuts _ => exact .inr rfl
    | _ => cases hbare

/-- Whoever puts bytes into the stream is inside; a call that has said goodbye does not. -/
theorem interjects_of_writes (hw : c.Wired) (hp : c.Parting k) (hevent : c.event? l e = some n)
    (hwrites : streamOf n.2.2 ≠ []) : c.Interjects l e := by
  obtain ⟨i, frame, left, he, hi⟩ := (happens_of_event? hevent).push hwrites
  obtain ⟨entered, hk⟩ := hp
  have hrunning : c.stage = .running := by
    by_contra hstage
    rw [hw.orderly.calls hstage k] at hk
    cases hk
  refine ⟨k, i, ⟨entered, hk⟩, ?_, ?_, he, n, hevent, hwrites⟩
  · rintro rfl
    rw [show c.sending? (.call k) = (c.call? k).bind Call.sending? from rfl, hk] at hi
    cases hi
  · rw [← gate_of_running hrunning]
    exact hw.exclusive.inside i frame left hi

/-- After a goodbye nothing is written, if nobody interjects and the call stays. -/
theorem silent_of_parting (hw : c.Wired) (hp : c.Parting k)
    (h : c.replay l es = some (c', l', more)) (hstays : c.Never l es Deserts)
    (hcalm : c.Never l es Interjects) : streamOf more = [] := by
  -- The call still waits, or the stream is shut for good.
  suffices hkeeps : es <+: es → c'.Wired ∧ (c'.Parting k ∨ l'.up.closed = true) ∧
      streamOf more = [] from (hkeeps (List.prefix_refl _)).2.2
  refine replay_induction (P := fun es' c' l' more => es' <+: es → c'.Wired ∧
    (c'.Parting k ∨ l'.up.closed = true) ∧ streamOf more = []) (fun _ => ⟨hw, .inl hp, rfl⟩) ?_ h
  intro es' e c₁ l₁ seen₁ c₂ l₂ more₂ hrun hevent ih hprefix
  obtain ⟨hw₁, hwaits, hsilent⟩ := ih ((List.prefix_append es' [e]).trans hprefix)
  have hhappens := happens_of_event? hevent
  have hnothing : streamOf more₂ = [] := by
    rcases hwaits with hparting | hclosed
    · by_contra hwrites
      exact never_iff.1 hcalm es' e c₁ l₁ seen₁ hprefix hrun
        (interjects_of_writes hw₁ hparting hevent hwrites)
    · exact hhappens.streamOf_of_closed hw₁.orderly hclosed
  refine ⟨hw₁.next hevent, ?_, ?_⟩
  · rcases hwaits with hparting | hclosed
    · exact hparting.next hhappens (never_iff.1 hstays es' e c₁ l₁ seen₁ hprefix hrun)
    · exact .inr (hhappens.stays.closed hclosed)
  · rw [streamOf_append, hsilent, hnothing]
    rfl

/-- **When a goodbye is the last word.** Whenever a call has said goodbye, the stream ends with its
DISCONNECT. That is also the end of all that is written in the run, if and only if nobody writes
between the goodbye and the moment at which the call shuts the stream. -/
theorem lastWord_iff (hb : Begins c l) (h : c.replay l es = some (c', l', seen))
    (hstays : c.Never l es Deserts) :
    c.SaysGoodbye l es ∧ (c.LastWord l es (streamOf seen) ↔ c.Never l es Interjects) := by
  refine ⟨?_, ?_, ?_⟩
  · intro es₁ e c₁ l₁ seen₁ n k _ hrun hevent hbefore hafter
    exact (speaking_of_replay hb hrun).ends hevent hbefore hafter
  · rw [never_iff]
    intro hlast es₁ e c₁ l₁ seen₁ hprefix hrun hinterjects
    obtain ⟨k, i, hparting, -, -, -, n, hevent, hwrites⟩ := hinterjects
    obtain ⟨es₂, rfl⟩ := hprefix
    rw [List.append_assoc] at h hlast
    have hbefore : es₁ <+: es₁ ++ ([e] ++ es₂) := List.prefix_append _ _
    obtain ⟨es', more, hes, hrest, rfl⟩ := exists_rest_of_prefix h hbefore hrun
    obtain rfl := List.append_cancel_left hes
    obtain ⟨c₂, l₂, more₁, more₂, hevent', -, rfl⟩ := replay_cons_eq_some.1 hrest
    obtain rfl := Option.some.inj (hevent.symm.trans hevent')
    -- All that is written in the run has been written by then, and the event writes more.
    have hall := always_iff.1 hlast es₁ c₁ l₁ seen₁ hbefore hrun k hparting
    rw [streamOf_append, List.self_eq_append_right, streamOf_append, List.append_eq_nil_iff] at hall
    exact hwrites hall.1
  · intro hcalm
    refine always_iff.2 fun es₁ c₁ l₁ seen₁ hprefix hrun k hparting => ?_
    obtain ⟨es₂, more, rfl, hrest, rfl⟩ := exists_rest_of_prefix h hprefix hrun
    have hsilent := silent_of_parting (wired_of_replay hb.wired hrun) hparting hrest
      (hstays.behind hrun) (hcalm.behind hrun)
    rw [streamOf_append, hsilent, List.append_nil]

/-- A client writes its DISCONNECT while a message is in line behind it. -/
def overtaking : List Event :=
  let calls (k : Nat) (ms : List SendMove) : List Event :=
    ms.map fun m => .move (.party (.call k) (.send m))
  [.move (.party .reader (.send .push)), .input (.peerWrites [0x20, 2, 0, 0]),
    .move (.party .reader .receive), .move (.party .reader .dispatch),
    .input (.calls 0 .disconnect)] ++ calls 0 [.enter, .layOut] ++
    [.input (.calls 1 (.publish "t" [] false))] ++ calls 1 [.enter] ++ calls 0 [.push] ++
    calls 1 [.layOut]

/-- The message goes out, and then the client shuts the stream. -/
def overtaken : List Event :=
  overtaking ++ [.move (.party (.call 1) (.send .push)), .move (.party (.call 0) .enter),
    .move (.party (.call 0) .shut)]

/-- The message stands behind the DISCONNECT, and both calls have succeeded. -/
theorem not_lastWord_overtaken : ∃ c l c' l' seen, Begins c l ∧
    c.replay l overtaken = some (c', l', seen) ∧ c.Never l overtaken Deserts ∧
    (∃ connect, streamOf seen = connect ++ goodbye ++ [0x30, 3, 0, 1, 0x74]) ∧
    .answered 0 .done ∈ seen ∧ .answered 1 .done ∈ seen ∧
    ¬c.LastWord l overtaken (streamOf seen) := by
  have hend : (connect (.ofAddr "" "c") 0).toOption.bind (fun c =>
      (c.replay (.empty 64) overtaken).bind fun n =>
        (c.replay (.empty 64) overtaking).bind fun n₁ =>
          (n₁.1.event? n₁.2.1 (.move (.party (.call 1) (.send .push)))).map fun n₂ =>
            (streamOf n.2.2, decide (.answered 0 .done ∈ n.2.2 ∧ .answered 1 .done ∈ n.2.2),
              decide (n₁.1.Parting 0), n₁.1.turnstile.inside, streamOf n₂.2.2)) =
      some ([0x10, 13, 0, 4, 0x4d, 0x51, 0x54, 0x54, 4, 2, 0, 60, 0, 1, 0x63] ++ goodbye ++
        [0x30, 3, 0, 1, 0x74], true, true, some (.call 1), [0x30, 3, 0, 1, 0x74]) := by
    decide +kernel
  obtain ⟨c, hconnect, hend⟩ := Option.bind_eq_some_iff.1 hend
  obtain ⟨⟨c', l', seen⟩, hrun, hend⟩ := Option.bind_eq_some_iff.1 hend
  obtain ⟨⟨c₁, l₁, seen₁⟩, hrun₁, hend⟩ := Option.bind_eq_some_iff.1 hend
  obtain ⟨n, hevent, hend⟩ := Option.map_eq_some_iff.1 hend
  simp only [Prod.mk.injEq, decide_eq_true_eq] at hend
  obtain ⟨hstream, ⟨hleft, hpublished⟩, hparting, hinside, hwrites⟩ := hend
  have hbegins : Begins c (.empty 64) := begins_of_toOption hconnect
  have hstays : c.Never (.empty 64) overtaken Deserts := by
    rw [never_iff]
    rintro es e _ _ _ hprefix _ ⟨k, -, rfl⟩
    have hmem : Event.input (.abandons k) ∈ overtaken := hprefix.subset (by simp)
    simp [overtaken, overtaking] at hmem
  refine ⟨c, .empty 64, c', l', seen, hbegins, hrun, hstays, ⟨_, hstream⟩, hleft, hpublished, ?_⟩
  rw [(lastWord_iff hbegins hrun hstays).2]
  intro hcalm
  refine never_iff.1 hcalm overtaking _ c₁ l₁ seen₁ ?_ hrun₁
    ⟨0, .call 1, hparting, by simp, hinside, rfl, n, hevent, by simp [hwrites]⟩
  exact ⟨_, List.append_assoc ..⟩

end Client
end Mqtt
