import Mqtt.Proofs.Broker.Effects
/-!
# The lanes of a broker

`Broker.lane b c` is what the tasks of a broker send into the stream of the connection `c`. Every
event is a step of at most one task at each lane (`next?_stepsAt`), so what is proved of lanes holds
of the streams of a broker.

For this, every frame on its way has to be whole, and on its way to a session that is there
(`Broker.Wired`).
-/

namespace Mqtt
namespace Broker

variable {b b' : Broker} {c : ConnId} {t : Task}

/-! ### What stays -/

/-- Every frame on its way is whole, and its target is there. -/
structure Wired (b : Broker) : Prop where
  greets : b.Greets
  sound : ∀ t w, b.work? t = some w → w.Sound
  targets : ∀ t d, b.delivery? t = some d → (b.session? d.target).isSome = true

theorem wired_start (maxPacketSize now : Nat) : (start maxPacketSize now).Wired where
  greets := greets_start maxPacketSize now
  sound t w hw := by cases t <;> cases hw
  targets t d hd := by cases t <;> cases hd

theorem Evolves.session?_isSome (h : b.Evolves b') (hs : (b.session? c).isSome = true) :
    (b'.session? c).isSome = true := by
  obtain ⟨s, hs⟩ := Option.isSome_iff_exists.1 hs
  obtain ⟨s', hs', -⟩ := h.exists_session hs
  exact Option.isSome_iff_exists.2 ⟨s', hs'⟩

/-- Every event keeps the streams wired. -/
theorem Wired.next {e : Event} {seen : List Observation} (hw : b.Wired)
    (h : b.next? e = some (b', seen)) : b'.Wired := by
  have hevolves := next?_evolves hw.greets h
  obtain ⟨t, lm, heffect, -⟩ := next?_effect hw.greets h
  refine ⟨hevolves.greets hw.greets, fun t' w hwork => ?_, fun t' d hd => ?_⟩
  · by_cases ht : t' = t
    · subst ht
      exact heffect.sound (hw.sound t') w hwork
    · rw [heffect.others t' ht] at hwork
      exact hw.sound t' w hwork
  · -- A delivery that was there before has the target it had.
    have hkeep : ∀ d', b.delivery? t' = some d' → d'.target = d.target →
        (b'.session? d.target).isSome = true := by
      intro d' hd' htarget
      rw [← htarget]
      exact hevolves.session?_isSome (hw.targets t' d' hd')
    by_cases ht : t' = t
    · subst ht
      cases heffect.acts with
      | rests hwork _ _ =>
        rw [delivery?, hwork] at hd
        exact hkeep d hd rfl
      | begins _ hnew _ _ => exact (hnew d hd).2
      | enters _ hnone _ | leaves _ hnone _ _ | stops _ hnone _ _ =>
        rw [hnone] at hd
        cases hd
      | @sends d' m b₁ _ r seen₁ _ hd' _ hown _ _ =>
        rw [hown] at hd
        cases r with
        | inl state =>
          cases hd
          exact hkeep d' hd' rfl
        | inr _ => cases hd
    · rw [delivery?, heffect.others t' ht] at hd
      exact hkeep d hd rfl

/-! ### Lanes -/

/-- An event is a step of a task at a lane. If the task goes on with its frame or drops it, that is
its move, and what it meets are the pipe and the token of the session. -/
def StepsAt (b b' : Broker) (e : Event) (c : ConnId) (bs : Bytes) : Prop :=
  ∃ (t : Task) (lm : LaneMove) (p : Pipe) (cancelled : Bool),
    Lane.Step p cancelled t lm (b.lane c) (b'.lane c) bs ∧
    (∀ mv, lm.move? = some mv → e = .move (.task t mv)) ∧
    ∀ m, lm = .send m → ∃ k s, b.conns[c]? = some k ∧ k.session = some s ∧
      p = k.link.down ∧ cancelled = b.isCancelled s

/-- A task that has nothing to do with a frame in line. -/
theorem stepsAt_of_apart {e : Event} {bs : Bytes}
    (hothers : ∀ t', t' ≠ t → (b'.lane c).sending t' = (b.lane c).sending t')
    (hown : Lane.Own (.empty 0) false t (b.turnstile c) .apart ((b.lane c).sending t)
      (b'.turnstile c) ((b'.lane c).sending t) bs) : StepsAt b b' e c bs :=
  ⟨t, .apart, .empty 0, false, ⟨hown, hothers⟩, nofun, nofun⟩

/-- An event that does not touch a lane. -/
theorem stepsAt_of_same {e : Event} {bs : Bytes}
    (hothers : ∀ t', t' ≠ t → (b'.lane c).sending t' = (b.lane c).sending t')
    (hown : (b'.lane c).sending t = (b.lane c).sending t)
    (hturn : b'.turnstile c = b.turnstile c) (hbs : bs = []) : StepsAt b b' e c bs := by
  subst hbs
  refine stepsAt_of_apart hothers ?_
  rw [hown, hturn]
  exact .rest

/-- A delivery that moves on: a step at the lane of its target, and at no other. -/
theorem stepsAt_of_sends {e : Event} {d : Delivery} {m : SendMove} {b₁ : Broker}
    {r : Sending ⊕ Except Fault Unit} {seen₁ : List Observation}
    (hothers : ∀ t', t' ≠ t → (b'.lane c).sending t' = (b.lane c).sending t')
    (hd : b.delivery? t = some d) (hsends : Sends b t d m b₁ r seen₁)
    (hown : b'.delivery? t = r.elim (fun s => some { d with state := s }) fun _ => none)
    (hturn : b'.turnstile c = b₁.turnstile c) (he : e = .move (.task t (.send m))) :
    StepsAt b b' e c (streamOf c seen₁) := by
  cases hsends with
  | @intro k s sent hk hs _ hmoves =>
    rw [turnstile_putSent hk hs] at hturn
    rw [streamOf_wrote]
    by_cases hc : d.target = c
    · subst hc
      rw [if_pos rfl] at hturn ⊢
      -- The lane of the target sees the move of the delivery, with the pipe and the token that it
      -- met.
      refine ⟨t, .send m, k.link.down, b.isCancelled s, ⟨?_, hothers⟩, ?_, ?_⟩
      · have hafter : (b'.lane d.target).sending t =
            sent.state.elim (fun s => some (d.frame, s)) fun _ => none := by
          rcases hstate : sent.state with state | r
          · rw [hstate] at hown
            rw [sending_of_delivery hown, if_pos rfl]
            rfl
          · rw [hstate] at hown
            rw [sending_of_none hown]
            rfl
        rw [sending_of_delivery hd, if_pos rfl, hafter]
        show Lane.Own _ _ _ (b.turnstile d.target) _ _ (b'.turnstile d.target) _ _
        rw [hturn, turnstile_eq hk hs]
        exact .send hmoves
      · rintro mv hmv
        cases hmv
        exact he
      · intro m' hm'
        exact ⟨k, s, hk, hs, rfl, rfl⟩
    · rw [if_neg hc]
      -- At every other lane the task has no frame, neither before nor after.
      rw [if_neg (Ne.symm hc)] at hturn
      refine stepsAt_of_same hothers ?_ hturn rfl
      rw [sending_of_delivery hd, if_neg hc]
      rcases hstate : sent.state with state | r
      · rw [hstate] at hown
        rw [sending_of_delivery hown, if_neg hc]
      · rw [hstate] at hown
        exact sending_of_none hown

/-- A delivery that is dropped: a step at the lane of its target, and at no other. -/
theorem stepsAt_of_stops {e : Event} {d : Delivery}
    (hothers : ∀ t', t' ≠ t → (b'.lane c).sending t' = (b.lane c).sending t')
    (hd : b.delivery? t = some d) (htarget : (b.session? d.target).isSome = true)
    (hnone : b'.delivery? t = none) (hturn : b'.turnstile c = (b.abandon t d).turnstile c)
    (he : e = .move (.task t .stop)) : StepsAt b b' e c [] := by
  have hafter : (b'.lane c).sending t = none := sending_of_none hnone
  rw [turnstile_abandon htarget] at hturn
  by_cases hc : d.target = c
  · refine ⟨t, .stop, .empty 0, false, ⟨?_, hothers⟩, ?_, nofun⟩
    · rw [sending_of_delivery hd, if_pos hc, hafter]
      show Lane.Own _ _ _ (b.turnstile c) _ _ (b'.turnstile c) _ _
      -- Whoever has not come to the turnstile yet does not leave it.
      by_cases hstate : d.state = .starting
      · rw [hturn, if_neg (fun h => h.2 hstate), hstate]
        exact .drop
      · rw [hturn, if_pos ⟨hc.symm, hstate⟩]
        exact .quit hstate
    · rintro mv hmv
      cases hmv
      exact he
  · refine stepsAt_of_same hothers ?_ (hturn.trans (if_neg fun h => hc h.1.symm)) rfl
    rw [hafter, sending_of_delivery hd, if_neg hc]

/-- **Every event is a step of at most one task at each lane.** -/
theorem next?_stepsAt {e : Event} {seen : List Observation} (hw : b.Wired)
    (h : b.next? e = some (b', seen)) (c : ConnId) : StepsAt b b' e c (streamOf c seen) := by
  have hw' := hw.next h
  obtain ⟨t, lm, heffect, hmove⟩ := next?_effect hw.greets h
  have hothers : ∀ t', t' ≠ t → (b'.lane c).sending t' = (b.lane c).sending t' := by
    intro t' ht
    rw [sending_eq, sending_eq, delivery?, delivery?, heffect.others t' ht]
  cases heffect.acts with
  | rests hwork hturn hseen =>
    refine stepsAt_of_same hothers ?_ (hturn c) (hseen c)
    rw [sending_eq, sending_eq, delivery?, delivery?, hwork]
  | begins hnone hnew hturn hseen =>
    have hbefore : (b.lane c).sending t = none := sending_of_none hnone
    rw [hseen]
    -- The task may have begun something else than a delivery, or a delivery to another stream.
    rcases hd : b'.delivery? t with _ | d
    · exact stepsAt_of_same hothers (by rw [hbefore, sending_of_none hd]) (hturn c) rfl
    · by_cases hc : d.target = c
      · refine stepsAt_of_apart hothers ?_
        rw [hbefore, sending_of_delivery hd, if_pos hc, (hnew d hd).1, hturn]
        obtain ⟨w, hwork, hdelivery⟩ := Option.bind_eq_some_iff.1 hd
        exact .begin ((hw'.sound t w hwork).delivery hdelivery)
      · exact stepsAt_of_same hothers (by rw [hbefore, sending_of_delivery hd, if_neg hc])
          (hturn c) rfl
  | @enters _ c₀ hnone hnone' hturn =>
    by_cases hc : c = c₀
    · refine stepsAt_of_apart hothers ?_
      rw [sending_of_none hnone, sending_of_none hnone', hturn, if_pos hc, hc]
      exact .enter
    · refine stepsAt_of_same hothers ?_ ((hturn c).trans (if_neg hc)) rfl
      rw [sending_of_none hnone, sending_of_none hnone']
  | @leaves _ c₀ _ hnone hnone' hturn hseen =>
    by_cases hc : c = c₀
    · refine stepsAt_of_apart hothers ?_
      rw [sending_of_none hnone, sending_of_none hnone', hturn, if_pos hc, hc, hseen]
      exact .leave
    · refine stepsAt_of_same hothers ?_ ((hturn c).trans (if_neg hc)) (hseen c)
      rw [sending_of_none hnone, sending_of_none hnone']
  | @sends d m b₁ _ r seen₁ _ hd hsends hown hturn hseen =>
    rw [hseen]
    exact stepsAt_of_sends hothers hd hsends hown (hturn c) (hmove _ rfl)
  | @stops d _ _ hd hnone hturn hseen =>
    rw [hseen]
    exact stepsAt_of_stops hothers hd (hw.targets t d hd) hnone (hturn c) (hmove _ rfl)

end Broker
end Mqtt
