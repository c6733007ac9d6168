import Mqtt.Proofs.Broker.Lanes
import Mqtt.Proofs.Broker.Runs
/-!
# The frames in the stream of a session

The stream of a session that lives, and into which no write has failed, is in frames at every moment
of a run: whole frames, and behind them at most a proper part of the one that is being written.

There is one exception. A task that forwards a message stops when its own session is to end, also in
the middle of a frame, and the session that the frame was for lives on with a part of it in its
stream. `framed_always_iff` says that nothing else ever breaks the frames, and that this always
does.
-/

namespace Mqtt
namespace Broker

variable {b b' b₁ b₂ : Broker} {c : ConnId} {t : Task} {es es₁ : List Event} {e : Event}
  {seen seen₁ : List Observation}

/-- What the stream of a connection has taken is whole frames, and behind them at most a proper part
of a frame whose writing goes on. -/
def Framed (c : ConnId) (b : Broker) (seen : List Observation) : Prop :=
  ∃ (frames : List Bytes) (part : Bytes), (∀ f ∈ frames, Frame.Whole f) ∧
    streamOf c seen = frames.flatten ++ part ∧
    (part = [] ∨ ∃ t d left, b.delivery? t = some d ∧ d.target = c ∧
      d.frame = .ok (part ++ left) ∧ d.state = .pushing left ∧ left ≠ [])

/-- A task finds the stream of a connection closed when it writes. -/
def FailsWrite (c : ConnId) (b : Broker) (e : Event) : Prop :=
  ∃ t d left k, e = .move (.task t (.send .push)) ∧ b.delivery? t = some d ∧ d.target = c ∧
    d.state = .pushing left ∧ b.conns[c]? = some k ∧ k.link.down.closed = true

/-- A task stops forwarding while a part of its frame is in the stream of a connection, and a part
is not. -/
def Interrupts (c : ConnId) (b : Broker) (e : Event) : Prop :=
  ∃ t d part left, e = .move (.task t .stop) ∧ b.delivery? t = some d ∧ d.target = c ∧
    d.frame = .ok (part ++ left) ∧ d.state = .pushing left ∧ part ≠ []

/-- A session that has been opened is not to end. -/
def Lives (c : ConnId) (b : Broker) : Prop := ∀ s, b.session? c = some s → b.isCancelled s = false

theorem pushes_iff {frame : Except Fault Bytes} {left : Bytes} :
    (b.lane c).Pushes t frame left ↔
      ∃ d, b.delivery? t = some d ∧ d.target = c ∧ d.frame = frame ∧ d.state = .pushing left := by
  rw [Lane.Pushes, sending_eq]
  constructor
  · intro h
    obtain ⟨d, hd, h⟩ := Option.map_eq_some_iff.1 h
    obtain ⟨hd, hc⟩ := Option.filter_eq_some_iff.1 hd
    obtain ⟨rfl, hstate⟩ := Prod.mk.inj h
    exact ⟨d, hd, by simpa using hc, rfl, hstate⟩
  · rintro ⟨d, hd, hc, rfl, hstate⟩
    simp [hd, hc, hstate]

theorem framed_iff : Framed c b seen ↔ (b.lane c).Framed (streamOf c seen) := by
  constructor
  · rintro ⟨frames, part, hframes, hstream, hpart⟩
    refine ⟨frames, part, hframes, hstream, hpart.imp_right ?_⟩
    rintro ⟨t, d, left, hd, hc, hframe, hstate, hleft⟩
    exact ⟨t, left, pushes_iff.2 ⟨d, hd, hc, hframe, hstate⟩, hleft⟩
  · rintro ⟨frames, part, hframes, hstream, hpart⟩
    refine ⟨frames, part, hframes, hstream, hpart.imp_right ?_⟩
    rintro ⟨t, left, hpushes, hleft⟩
    obtain ⟨d, hd, hc, hframe, hstate⟩ := pushes_iff.1 hpushes
    exact ⟨t, d, left, hd, hc, hframe, hstate, hleft⟩

/-! ### One event -/

/-- A session that lives after an event lived before it. -/
theorem Lives.of_evolves (h : Lives c b') (he : b.Evolves b') : Lives c b := by
  intro s hs
  obtain ⟨s', hs', hsame⟩ := he.exists_session hs
  have hlives := h s' hs'
  by_contra hc
  rw [isCancelled, Bool.not_eq_false, Bool.or_eq_true] at hc
  rw [isCancelled, Bool.or_eq_false_iff] at hlives
  rcases hc with hc | hc
  · rw [hsame.cancelled hc] at hlives
    cases hlives.1
  · rw [he.shutdown hc] at hlives
    cases hlives.2

/-- **Frames are torn only where a task stops.** -/
theorem interrupts_of_tears {lm : LaneMove} {p : Pipe} {cancelled : Bool} {bs : Bytes}
    (hl : (b.lane c).Exclusive) (hlives : Lives c b) (hwrites : ¬FailsWrite c b e)
    (hstep : Lane.Step p cancelled t lm (b.lane c) (b'.lane c) bs)
    (hmove : ∀ mv, lm.move? = some mv → e = .move (.task t mv))
    (hmeets : ∀ m, lm = .send m → ∃ k s, b.conns[c]? = some k ∧ k.session = some s ∧
      p = k.link.down ∧ cancelled = b.isCancelled s)
    (htears : (b.lane c).Tears (b'.lane c) t bs) : Interrupts c b e := by
  obtain ⟨part, left, hpushes, hpart, -⟩ := id htears
  obtain ⟨d, hd, hc, hframe, hstate⟩ := pushes_iff.1 hpushes
  rcases htears.cause hl hstep with rfl | ⟨rfl, hcancelled⟩ | ⟨rfl, hclosed⟩
  · exact ⟨t, d, part, left, hmove _ rfl, hd, hc, hframe, hstate, hpart⟩
  · -- The session of the stream is to end.
    obtain ⟨k, s, hk, hs, -, hc'⟩ := hmeets _ rfl
    have := hlives s (session?_eq_some.2 ⟨k, hk, hs⟩)
    rw [← hc', hcancelled] at this
    cases this
  · -- The stream is closed.
    obtain ⟨k, s, hk, hs, rfl, -⟩ := hmeets _ rfl
    exact absurd ⟨t, d, left, k, hmove _ rfl, hd, hc, hstate, hk, hclosed⟩ hwrites

/-- Whoever stops forwarding has no delivery any more, and has written nothing. -/
theorem delivery?_of_stop {more : List Observation}
    (h : b.step (.task t .stop) = some (b', more)) :
    b'.delivery? t = none ∧ ∀ c, streamOf c more = [] := by
  have hforwards {t : Task} {stopped : Bool} {o : FanOut} {b₁ : Broker} {r : FanOut ⊕ Nat}
      {seen : List Observation} (h : Forwards b t stopped o .stop b₁ r seen) :
      seen = [] ∧ ∃ n, r = .inr n := by
    cases h with
    | stops _ _ => exact ⟨rfl, _, rfl⟩
  cases step_cases h with
  | conn hk hserves =>
    cases hserves with
    | refuses _ hrefuses => cases hrefuses
    | ends _ _ hends => cases hends
    | forwards _ _ hf =>
      -- Stopping ends the forwarding, so there is nothing to go on with.
      obtain ⟨-, n, hr⟩ := hforwards hf
      cases hr
    | forwarded _ _ hf =>
      obtain ⟨rfl, -⟩ := hforwards hf
      refine ⟨?_, fun _ => rfl⟩
      rw [delivery?, work?_readOn, if_pos rfl]
      rfl
  | host hcall hcalls =>
    cases hcalls with
    | publishes hf =>
      obtain ⟨-, n, hr⟩ := hforwards hf
      cases hr
    | published hf =>
      obtain ⟨rfl, -⟩ := hforwards hf
      refine ⟨?_, fun _ => rfl⟩
      rw [delivery?, work?_dropCall, if_pos rfl]
      rfl

/-- **A task that stops in the middle of a frame tears it.** -/
theorem tears_of_interrupts {t' : Task} {lm : LaneMove} {p : Pipe} {cancelled : Bool}
    {more : List Observation} (hnext : b.next? e = some (b', more))
    (hstep : Lane.Step p cancelled t' lm (b.lane c) (b'.lane c) (streamOf c more))
    (h : Interrupts c b e) : (b.lane c).Tears (b'.lane c) t' (streamOf c more) := by
  obtain ⟨t, d, part, left, rfl, hd, hc, hframe, hstate, hpart⟩ := h
  have hpushes : (b.lane c).Pushes t (.ok (part ++ left)) left :=
    pushes_iff.2 ⟨d, hd, hc, hframe, hstate⟩
  obtain ⟨hnone, hseen⟩ := delivery?_of_stop hnext
  have hgone : (b'.lane c).sending t = none := sending_of_none hnone
  -- Whoever moves leaves the sendings of the others alone.
  have ht : t = t' := by
    by_contra hne
    rw [Lane.Pushes, ← hstep.others t hne, hgone] at hpushes
    cases hpushes
  subst ht
  exact ⟨part, left, hpushes, hpart, hgone, hseen c⟩

/-! ### A whole run -/

/-- No write has failed into a stream that is open at the end. -/
theorem never_failsWrite_of_open {k : Conn} (hg : b.Greets) (h : b.replay es = some (b₂, seen))
    (hk : b₂.conns[c]? = some k) (hopen : k.link.down.closed = false) :
    b.Never es (FailsWrite c) := by
  rintro es₁ e b₁ seen₁ hp hrun ⟨t, d, left, k₁, -, -, -, -, hk₁, hclosed⟩
  have hevolves := replay_evolves_since hg h ((List.prefix_append es₁ [e]).trans hp) hrun
  obtain ⟨k', hk', hconn⟩ := hevolves.conns c k₁ hk₁
  rw [hk] at hk'
  cases hk'
  rw [hconn.down hclosed] at hopen
  cases hopen

/-- As long as nothing interrupts it, the stream of a session is what its lane says. -/
theorem tracks_of_never {maxPacketSize now : Nat}
    (h : (start maxPacketSize now).replay es = some (b, seen)) (hlives : Lives c b)
    (hwrites : (start maxPacketSize now).Never es (FailsWrite c))
    (hnever : (start maxPacketSize now).Never es (Interrupts c)) :
    b.Wired ∧ (b.lane c).Exclusive ∧ (b.lane c).Tracks (streamOf c seen) := by
  refine replay_induction (P := fun es b seen => Lives c b →
    (start maxPacketSize now).Never es (FailsWrite c) →
    (start maxPacketSize now).Never es (Interrupts c) →
    b.Wired ∧ (b.lane c).Exclusive ∧ (b.lane c).Tracks (streamOf c seen)) ?_ ?_
    h hlives hwrites hnever
  · intro _ _ _
    have hw := wired_start maxPacketSize now
    have hnone (t : Task) : ((start maxPacketSize now).lane c).sending t = none := by
      cases t <;> rfl
    refine ⟨hw, ⟨?_, ?_, ?_⟩, [], nofun, Lane.carries_nil ?_⟩
    · intro t f left hp
      rw [Lane.Pushes, hnone] at hp
      cases hp
    · intro t f left hp
      rw [Lane.Pushes, hnone] at hp
      cases hp
    · intro t f s hp
      rw [hnone] at hp
      cases hp
    · intro t f left hp
      rw [Lane.Pushes, hnone] at hp
      cases hp
  · intro es e b₁ seen₁ b₂ more hrun hnext ih hlives hwrites hnever
    have hg := (replay_evolves (greets_start maxPacketSize now) hrun).greets
      (greets_start maxPacketSize now)
    -- What is assumed of the whole run holds of what comes before the last event.
    have hlives₁ := hlives.of_evolves (next?_evolves hg hnext)
    obtain ⟨hw, hexclusive, htracks⟩ := ih hlives₁ (hwrites.upTo (List.prefix_append es [e]))
      (hnever.upTo (List.prefix_append es [e]))
    obtain ⟨t, lm, p, cancelled, hstep, hmove, hmeets⟩ := next?_stepsAt hw hnext c
    refine ⟨hw.next hnext, hexclusive.step hstep, ?_⟩
    rw [streamOf_append]
    refine htracks.step hexclusive hstep fun htears => ?_
    refine hnever es e b₁ seen₁ (List.prefix_refl _) hrun ?_
    exact interrupts_of_tears hexclusive hlives₁
      (hwrites es e b₁ seen₁ (List.prefix_refl _) hrun) hstep hmove hmeets htears

/-- If the stream is in frames at every moment, nothing interrupts it. -/
theorem never_of_framed_always {maxPacketSize now : Nat}
    (h : (start maxPacketSize now).replay es = some (b, seen)) (hlives : Lives c b)
    (hwrites : (start maxPacketSize now).Never es (FailsWrite c))
    (hframed : (start maxPacketSize now).Always es (Framed c)) :
    (start maxPacketSize now).Never es (Interrupts c) := by
  refine replay_induction (P := fun es b seen => Lives c b →
    (start maxPacketSize now).Never es (FailsWrite c) →
    (start maxPacketSize now).Always es (Framed c) →
    (start maxPacketSize now).Never es (Interrupts c)) ?_ ?_ h hlives hwrites hframed
  · intro _ _ _ es₁ e b₁ seen₁ hp
    simp at hp
  · intro es e b₁ seen₁ b₂ more hrun hnext ih hlives hwrites hframed
    have hg := (replay_evolves (greets_start maxPacketSize now) hrun).greets
      (greets_start maxPacketSize now)
    have hlives₁ := hlives.of_evolves (next?_evolves hg hnext)
    have hfront := List.prefix_append es [e]
    have hnever := ih hlives₁ (hwrites.upTo hfront) (hframed.upTo hfront)
    refine (never_concat hrun).2 ⟨hnever, fun hinterrupts => ?_⟩
    -- The last event would leave a part of a frame behind that is never completed.
    obtain ⟨hw, hexclusive, htracks⟩ := tracks_of_never hrun hlives₁ (hwrites.upTo hfront) hnever
    obtain ⟨t, lm, p, cancelled, hstep, -, -⟩ := next?_stepsAt hw hnext c
    have hall := hframed (es ++ [e]) b₂ (seen₁ ++ more) (List.prefix_refl _)
      (replay_concat_eq_some.2 ⟨b₁, seen₁, more, hrun, hnext, rfl⟩)
    rw [framed_iff, streamOf_append] at hall
    exact Lane.not_framed_of_tears hexclusive htracks hstep
      (tears_of_interrupts hnext hstep hinterrupts) hall

/-- **When the stream of a session is in frames.** In a run of a broker, of a session that lives and
into whose stream no write fails, the stream is in frames at every moment exactly if no task stops
forwarding to it in the middle of a frame. -/
theorem framed_always_iff {maxPacketSize now : Nat}
    (h : (start maxPacketSize now).replay es = some (b, seen)) (hlives : Lives c b)
    (hwrites : (start maxPacketSize now).Never es (FailsWrite c)) :
    (start maxPacketSize now).Always es (Framed c) ↔
      (start maxPacketSize now).Never es (Interrupts c) := by
  refine ⟨never_of_framed_always h hlives hwrites, fun hnever es₁ b₁ seen₁ hp hrun => ?_⟩
  have hlives₁ := hlives.of_evolves
    (replay_evolves_since (greets_start maxPacketSize now) h hp hrun)
  obtain ⟨-, hexclusive, htracks⟩ := tracks_of_never hrun hlives₁ (hwrites.upTo hp)
    (hnever.upTo hp)
  rw [framed_iff]
  exact htracks.framed hexclusive

/-- The task of a connection reads a frame and writes its answer. -/
def answering (c : ConnId) : List Event :=
  [.receive, .dispatch, .send .enter, .send .layOut, .send .push].map fun m =>
    .move (.task (.conn c) m)

/-- Two clients connect, and the first one subscribes. Its pipe has little room, so a message of the
second one gets stuck in the middle of its frame; then the session of the second one is closed. -/
def closedPublisher : List Event :=
  let connect : Bytes := [0x10, 13, 0, 4, 0x4d, 0x51, 0x54, 0x54, 4, 2, 0, 60, 0, 1, 0x73]
  [.input (.opens "s" 16), .input (.peerWrites 0 connect)] ++ answering 0 ++
    [.input (.peerWrites 0 [0x82, 6, 0, 1, 0, 1, 0x74, 0])] ++ answering 0 ++
    [.input (.opens "p" 64), .input (.peerWrites 1 connect)] ++ answering 1 ++
    [.input (.peerWrites 1 [0x30, 8, 0, 1, 0x74, 1, 2, 3, 4, 5])] ++
    [.receive, .dispatch, .reach, .send .enter, .send .layOut, .send .push].map
      (fun m => .move (.task (.conn 1) m)) ++
    [.input (.closes 1)]

/-- The first client stays connected, with a part of a frame in its stream. -/
theorem not_framed_always_closedPublisher :
    ∃ b seen, (start 1000 0).replay (closedPublisher ++ [.move (.task (.conn 1) .stop)]) =
        some (b, seen) ∧ Lives 0 b ∧
      (start 1000 0).Never (closedPublisher ++ [.move (.task (.conn 1) .stop)]) (FailsWrite 0) ∧
      ¬(start 1000 0).Always (closedPublisher ++ [.move (.task (.conn 1) .stop)]) (Framed 0) := by
  -- How the run ends, and what the second connection is at when it stops.
  have hend : ((start 1000 0).replay (closedPublisher ++ [.move (.task (.conn 1) .stop)])).map
      (fun r => ((r.1.session? 0).map r.1.isCancelled,
        r.1.conns[0]?.map fun k => k.link.down.closed)) = some (some false, some false) := by
    decide +kernel
  have hstuck : ((start 1000 0).replay closedPublisher).map
      (fun r => (r.1.delivery? (.conn 1)).map fun d => (d.target, d.frame, d.state)) =
        some (some (0, .ok ([0x30, 8, 0, 1, 0x74, 1, 2] ++ [3, 4, 5]), .pushing [3, 4, 5])) := by
    decide +kernel
  obtain ⟨⟨b, seen⟩, hrun, hb⟩ := Option.map_eq_some_iff.1 hend
  obtain ⟨hcancelled, hopen⟩ := Prod.mk.inj hb
  obtain ⟨k, hk, hopen⟩ := Option.map_eq_some_iff.1 hopen
  obtain ⟨⟨b₁, seen₁⟩, hrun₁, hd⟩ := Option.map_eq_some_iff.1 hstuck
  obtain ⟨d, hd, hstate⟩ := Option.map_eq_some_iff.1 hd
  simp only [Prod.mk.injEq] at hstate
  have hlives : Lives 0 b := by
    intro s hs
    rw [hs] at hcancelled
    exact Option.some.inj hcancelled
  have hwrites := never_failsWrite_of_open (greets_start 1000 0) hrun hk hopen
  refine ⟨b, seen, hrun, hlives, hwrites, fun hframed => ?_⟩
  exact (framed_always_iff hrun hlives hwrites).1 hframed closedPublisher _ b₁ seen₁
    (List.prefix_refl _) hrun₁
    ⟨.conn 1, d, _, _, rfl, hd, hstate.1, hstate.2.1, hstate.2.2, List.cons_ne_nil _ _⟩

end Broker
end Mqtt
