import Mqtt.Proofs.Frame
import Mqtt.Proofs.Stream.Sending
/-!
# Frames in a stream that many tasks write

A lane is what several tasks send into one pipe, less the pipe: the turnstile in front of it and the
frame that each task is sending. Whoever pushes is inside the turnstile (`Lane.Exclusive`), so the
bytes of two frames never mix, and the stream is the frames completed so far (`Lane.Carries`), all
of them whole (`Lane.Tracks`), with the part behind them that has been pushed of the one frame that
is being pushed.

This goes wrong in one way only: a task goes away while it pushes, with a part of its frame in the
stream (`Lane.Tears`).

* `Lane.Carries.step`: a step that does not tear a frame adds the frame that it completes.
* `Lane.Tracks.step`: a step that does not tear a frame keeps the stream in frames.
* `Lane.not_framed_of_tears`: a step that tears one leaves a stream that is not in frames.
-/

namespace Mqtt

/-- What several tasks send into one pipe. -/
structure Lane (ι : Type) where
  turnstile : Turnstile ι
  /-- The frame that a task is sending, and how far it is. -/
  sending : ι → Option (Except Fault Bytes × Sending)

/-- How a task acts at a lane. -/
inductive LaneMove where
  /-- It goes on with its frame, or gives up. -/
  | send (m : SendMove)
  /-- It goes away, wherever its frame is. -/
  | stop
  /-- Anything that has nothing to do with a frame in line. -/
  | apart

namespace Lane

variable {ι : Type} {l l' : Lane ι} {i j : ι} {bs written : Bytes}

/-! ### Pushing -/

/-- The task `i` is pushing a frame, and these bytes of it are left. -/
def Pushes (l : Lane ι) (i : ι) (frame : Except Fault Bytes) (left : Bytes) : Prop :=
  l.sending i = some (frame, .pushing left)

/-- The task `i` stops pushing, with a part of its frame in the stream and a part left. -/
def Tears (l l' : Lane ι) (i : ι) (bs : Bytes) : Prop :=
  ∃ part left, l.Pushes i (.ok (part ++ left)) left ∧ part ≠ [] ∧ l'.sending i = none ∧ bs = []

/-- Whoever pushes is inside, with something left of its frame. -/
structure Exclusive (l : Lane ι) : Prop where
  inside : ∀ i frame left, l.Pushes i frame left → l.turnstile.inside = some i
  part : ∀ i frame left, l.Pushes i frame left → left ≠ [] ∧ ∃ part, frame = .ok (part ++ left)
  whole : ∀ i bs s, l.sending i = some (.ok bs, s) → Frame.Whole bs

theorem Exclusive.eq_of_pushes (hl : l.Exclusive) {f g : Except Fault Bytes} {left left' : Bytes}
    (hi : l.Pushes i f left) (hj : l.Pushes j g left') : i = j := by
  have := hl.inside i f left hi
  rw [hl.inside j g left' hj] at this
  exact (Option.some.inj this).symm

/-! ### The stream -/

/-- The stream is whole frames, and behind them a proper part of a frame whose writing goes on. -/
def Framed (l : Lane ι) (written : Bytes) : Prop :=
  ∃ (frames : List Bytes) (part : Bytes), (∀ f ∈ frames, Frame.Whole f) ∧
    written = frames.flatten ++ part ∧
    (part = [] ∨ ∃ i left, l.Pushes i (.ok (part ++ left)) left ∧ left ≠ [])

/-- The stream is these frames, and behind them just what has been pushed of the frame that is being
pushed. -/
def Carries (l : Lane ι) (frames : List Bytes) (written : Bytes) : Prop :=
  ∃ part : Bytes, written = frames.flatten ++ part ∧
    ((part = [] ∧ ∀ i frame left, ¬l.Pushes i frame left) ∨
      ∃ i left, l.Pushes i (.ok (part ++ left)) left)

/-- The stream is whole frames, and behind them just what has been pushed of the frame that is
being pushed. -/
def Tracks (l : Lane ι) (written : Bytes) : Prop :=
  ∃ frames : List Bytes, (∀ f ∈ frames, Frame.Whole f) ∧ l.Carries frames written

/-- The frame that a step of the task `i` completes, if any; the pipe takes `bs` in the step. -/
def completed (l l' : Lane ι) (i : ι) (bs : Bytes) : List Bytes :=
  match l.sending i, l'.sending i with
  | some (.ok frame, .pushing _), none => if bs = [] then [] else [frame]
  | _, _ => []

theorem completed_nil : l.completed l' i [] = [] := by
  unfold completed
  split <;> rfl

/-- A task that goes on with its frame completes none. -/
theorem completed_of_sending {x : Except Fault Bytes × Sending} (h : l'.sending i = some x) :
    l.completed l' i bs = [] := by
  unfold completed
  rw [h]
  split
  · next hnone => cases hnone
  · rfl

theorem completed_of_pushes {frame left : Bytes} (hi : l.Pushes i (.ok frame) left)
    (h : l'.sending i = none) (hbs : bs ≠ []) : l.completed l' i bs = [frame] := by
  unfold Pushes at hi
  unfold completed
  rw [hi, h]
  exact if_neg hbs

theorem Tracks.framed (hl : l.Exclusive) (h : l.Tracks written) : l.Framed written := by
  obtain ⟨frames, hframes, part, hwritten, hpart⟩ := h
  refine ⟨frames, part, hframes, hwritten, ?_⟩
  rcases hpart with ⟨hnil, -⟩ | ⟨i, left, hi⟩
  · exact .inl hnil
  · exact .inr ⟨i, left, hi, (hl.part i _ left hi).1⟩

/-- Nothing has been written, and nobody pushes. -/
theorem carries_nil (h : ∀ i frame left, ¬l.Pushes i frame left) : l.Carries [] [] :=
  ⟨[], rfl, .inl ⟨rfl, h⟩⟩

/-- The part behind the frames belongs to whoever pushes. -/
theorem Carries.of_pushes {frames : List Bytes} (hl : l.Exclusive) (h : l.Carries frames written)
    {part left : Bytes} (hi : l.Pushes i (.ok (part ++ left)) left) :
    written = frames.flatten ++ part := by
  obtain ⟨part', hwritten, hpart⟩ := h
  rcases hpart with ⟨-, hnone⟩ | ⟨j, left', hj⟩
  · exact absurd hi (hnone i _ left)
  · have hij := hl.eq_of_pushes hi hj
    -- Both are the same task with the same frame.
    subst hij
    rw [Pushes, hi] at hj
    simp only [Option.some.injEq, Prod.mk.injEq, Except.ok.injEq, Sending.pushing.injEq] at hj
    obtain ⟨heq, rfl⟩ := hj
    rw [hwritten, List.append_cancel_right heq]

theorem Carries.of_not_pushes {frames : List Bytes} (h : l.Carries frames written)
    (hnone : ∀ i frame left, ¬l.Pushes i frame left) : written = frames.flatten := by
  obtain ⟨part, hwritten, hpart⟩ := h
  rcases hpart with ⟨rfl, -⟩ | ⟨j, left, hj⟩
  · rw [hwritten, List.append_nil]
  · exact absurd hj (hnone j _ left)

/-- The stream stays as it is where nothing is written and the same is being pushed. -/
theorem Carries.congr {frames : List Bytes} (h : l.Carries frames written)
    (hsame : ∀ i frame left, l'.Pushes i frame left ↔ l.Pushes i frame left) :
    l'.Carries frames written := by
  obtain ⟨part, hwritten, hpart⟩ := h
  refine ⟨part, hwritten, ?_⟩
  simpa only [hsame] using hpart

theorem carries_cons {frame : Bytes} {frames : List Bytes} :
    l.Carries (frame :: frames) written ↔
      ∃ rest, written = frame ++ rest ∧ l.Carries frames rest := by
  constructor
  · rintro ⟨part, hwritten, hpart⟩
    refine ⟨frames.flatten ++ part, ?_, part, rfl, hpart⟩
    rw [hwritten, List.flatten_cons, List.append_assoc]
  · rintro ⟨rest, rfl, part, rfl, hpart⟩
    refine ⟨part, ?_, hpart⟩
    rw [List.flatten_cons, List.append_assoc]

/-- As long as no frame is completed, none is found. -/
theorem Carries.parse_nil (hl : l.Exclusive) (h : l.Carries [] written) :
    Frame.parse written = .ok none := by
  obtain ⟨part, rfl, ⟨rfl, -⟩ | ⟨i, left, hi⟩⟩ := h
  · rfl
  · exact (hl.whole i _ _ hi).parse_part (hl.part i _ left hi).1

/-- A frame that is completed was being pushed. -/
theorem whole_of_mem_completed (hl : l.Exclusive) {frame : Bytes}
    (h : frame ∈ l.completed l' i bs) :
    Frame.Whole frame := by
  unfold completed at h
  split at h
  · next f left hi _ =>
    split_ifs at h
    · cases h
    · rw [List.mem_singleton.1 h]
      exact hl.whole i _ _ hi
  · cases h

/-! ### Steps -/

variable [DecidableEq ι] {p : Pipe} {cancelled : Bool} {m : LaneMove}

/-- What a task can do at a lane: with the turnstile and its own sending before and after, and the
bytes that the pipe takes. -/
inductive Own (p : Pipe) (cancelled : Bool) (i : ι) (t : Turnstile ι) :
    LaneMove → Option (Except Fault Bytes × Sending) → Turnstile ι →
      Option (Except Fault Bytes × Sending) → Bytes → Prop
  /-- Nothing. -/
  | rest {x} : Own p cancelled i t .apart x t x []
  /-- A frame is to be sent. -/
  | begin {frame} : (∀ bs, frame = .ok bs → Frame.Whole bs) →
    Own p cancelled i t .apart none t (some (frame, .starting)) []
  /-- The task comes to the turnstile without a frame. -/
  | enter : Own p cancelled i t .apart none (t.enter i) none []
  /-- The task goes away without a frame. -/
  | leave : Own p cancelled i t .apart none (t.leave i) none []
  /-- The sending goes on or ends. -/
  | send {frame s m sent} : Outlet.Moves ⟨t, p⟩ i frame cancelled s m sent →
    Own p cancelled i t (.send m) (some (frame, s)) sent.outlet.turnstile
      (sent.state.elim (fun s => some (frame, s)) fun _ => none) sent.pushed
  /-- A frame is dropped before the task has come to the turnstile. -/
  | drop {frame} : Own p cancelled i t .stop (some (frame, .starting)) t none []
  /-- A frame is dropped, and the turnstile left. -/
  | quit {frame s} : s ≠ .starting → Own p cancelled i t .stop (some (frame, s)) (t.leave i) none []

/-- A step of the task `i`. -/
structure Step (p : Pipe) (cancelled : Bool) (i : ι) (m : LaneMove) (l l' : Lane ι) (bs : Bytes) :
    Prop where
  own : Own p cancelled i l.turnstile m (l.sending i) l'.turnstile (l'.sending i) bs
  others : ∀ j, j ≠ i → l'.sending j = l.sending j

/-! ### What every step keeps -/

/-- Another task may come and go: whoever pushes stays inside. -/
theorem Step.inside_of_pushes (hl : l.Exclusive) (h : Step p cancelled i m l l' bs) (hne : j ≠ i)
    {frame : Except Fault Bytes} {left : Bytes} (hj : l.Pushes j frame left) :
    l'.turnstile.inside = some j := by
  have hin := hl.inside j frame left hj
  have hown := h.own
  generalize l.sending i = x, l'.sending i = y, l'.turnstile = t' at hown ⊢
  cases hown with
  | rest | begin _ | drop => exact hin
  | send hm =>
    cases hm with
    | enter => exact Turnstile.inside_enter hin
    | layOut | part | giveUpOutside => exact hin
    | _ => exact Turnstile.inside_leave hin hne
  | enter => exact Turnstile.inside_enter hin
  | quit _ | leave => exact Turnstile.inside_leave hin hne

/-- A frame that the task sends after a step is whole. -/
theorem Step.whole_own (hl : l.Exclusive) (h : Step p cancelled i m l l' bs) {s : Sending}
    {frame : Bytes} (hs : l'.sending i = some (.ok frame, s)) : Frame.Whole frame := by
  have hwhole := hl.whole i
  have hown := h.own
  rw [hs] at hown
  generalize l.sending i = x, l'.turnstile = t' at hown hwhole
  generalize hy : some ((.ok frame : Except Fault Bytes), s) = y at hown
  cases hown with
  | rest => exact hwhole _ _ hy.symm
  | begin hnew =>
    cases hy
    exact hnew frame rfl
  | @send f s' m sent hm =>
    rcases hstate : sent.state with s'' | r
    · rw [hstate] at hy
      cases hy
      exact hwhole _ _ rfl
    · rw [hstate] at hy
      cases hy
  | _ => cases hy

/-- A task that pushes after a step is inside, with something left of its frame. -/
theorem Step.pushes_own (hl : l.Exclusive) (h : Step p cancelled i m l l' bs) {left : Bytes}
    {frame : Except Fault Bytes} (hs : l'.Pushes i frame left) :
    l'.turnstile.inside = some i ∧ left ≠ [] ∧ ∃ part, frame = .ok (part ++ left) := by
  have hin := hl.inside i
  have hpart := hl.part i
  have hwhole := hl.whole i
  have hown := h.own
  unfold Pushes at *
  rw [hs] at hown
  generalize l.sending i = x, l'.turnstile = t' at hown hin hpart hwhole ⊢
  generalize hy : some (frame, Sending.pushing left) = y at hown
  cases hown with
  | rest => exact ⟨hin _ _ hy.symm, hpart _ _ hy.symm⟩
  | send hm =>
    cases hm with
    | layOut hinside hf =>
      cases hy
      exact ⟨hinside, (hwhole _ _ (by rw [hf])).ne_nil, [], hf⟩
    | @part _ taken _ _ hw hrest =>
      cases hy
      -- What the pipe takes goes over from what is left to what is in the stream.
      obtain ⟨-, part, hf⟩ := hpart _ _ rfl
      refine ⟨hin _ _ rfl, hrest, part ++ taken, ?_⟩
      rw [hf, List.append_assoc, Pipe.append_of_write hw]
    | _ => cases hy
  | _ => cases hy

/-- **Every step keeps a lane exclusive.** -/
theorem Exclusive.step (hl : l.Exclusive) (h : Step p cancelled i m l l' bs) : l'.Exclusive where
  inside j frame left hj := by
    by_cases hne : j = i
    · subst hne
      exact (h.pushes_own hl hj).1
    · rw [Pushes, h.others j hne] at hj
      exact h.inside_of_pushes hl hne hj
  part j frame left hj := by
    by_cases hne : j = i
    · subst hne
      exact (h.pushes_own hl hj).2
    · rw [Pushes, h.others j hne] at hj
      exact hl.part j frame left hj
  whole j frame s hj := by
    by_cases hne : j = i
    · subst hne
      exact h.whole_own hl hj
    · rw [h.others j hne] at hj
      exact hl.whole j frame s hj

/-! ### What a step does to the stream -/

theorem Step.pushes_iff_of_ne (h : Step p cancelled i m l l' bs) (hne : j ≠ i)
    {frame : Except Fault Bytes} {left : Bytes} :
    l'.Pushes j frame left ↔ l.Pushes j frame left := by
  rw [Pushes, Pushes, h.others j hne]

/-- Nobody pushes after a step of the task that pushed, unless this task still does. -/
theorem Step.not_pushes (hl : l.Exclusive) (h : Step p cancelled i m l l' bs)
    (hin : l.turnstile.inside = some i) (hi : ∀ frame left, ¬l'.Pushes i frame left) :
    ∀ j frame left, ¬l'.Pushes j frame left := by
  intro j frame left hj
  by_cases hne : j = i
  · subst hne
    exact hi frame left hj
  · have := hl.inside j frame left ((h.pushes_iff_of_ne hne).1 hj)
    rw [hin] at this
    exact hne (Option.some.inj this).symm

/-- A task that does not push writes nothing; it may lay out its frame. -/
theorem Step.of_not_pushes (h : Step p cancelled i m l l' bs)
    (hi : ∀ frame left, ¬l.Pushes i frame left) :
    bs = [] ∧ ∀ frame left, l'.Pushes i frame left →
      l.turnstile.inside = some i ∧ frame = .ok left := by
  have hown := h.own
  unfold Pushes at *
  generalize l.sending i = x, l'.sending i = y, l'.turnstile = t' at hown hi ⊢
  cases hown with
  | rest => exact ⟨rfl, fun frame left hy => absurd hy (hi frame left)⟩
  | send hm =>
    cases hm with
    | layOut hinside hf =>
      refine ⟨rfl, fun frame left hy => ⟨hinside, ?_⟩⟩
      cases hy
      exact hf
    | broken _ | part _ _ | whole _ | giveUpPushing _ => exact absurd rfl (hi _ _)
    | _ => exact ⟨rfl, fun frame left hy => by cases hy⟩
  | _ => exact ⟨rfl, fun frame left hy => by cases hy⟩

/-- The task that pushes makes a step. -/
theorem Carries.step_of_pushes {frames : List Bytes} (hl : l.Exclusive)
    (ht : l.Carries frames written)
    (h : Step p cancelled i m l l' bs) (hcalm : ¬l.Tears l' i bs)
    {frame : Except Fault Bytes} {left : Bytes} (hi : l.Pushes i frame left) :
    l'.Carries (frames ++ l.completed l' i bs) (written ++ bs) := by
  obtain ⟨hleft, part, rfl⟩ := hl.part i frame left hi
  have hwritten := ht.of_pushes hl hi
  have hnone := h.not_pushes hl (hl.inside i _ left hi)
  -- Where the frame is dropped, nothing of it may be in the stream.
  have hdrop (hgone : l'.sending i = none) (hbs : bs = []) :
      l'.Carries (frames ++ l.completed l' i bs) (written ++ bs) := by
    have hpart : part = [] := by
      by_contra hne
      exact hcalm ⟨part, left, hi, hne, hgone, hbs⟩
    subst hbs
    rw [completed_nil, List.append_nil, hwritten, hpart]
    refine ⟨[], List.append_nil _, .inl ⟨rfl, hnone fun f left' hp => ?_⟩⟩
    rw [Pushes, hgone] at hp
    cases hp
  have hsame (hsending : l'.sending i = l.sending i) (j : ι) (f : Except Fault Bytes)
      (left' : Bytes) : l'.Pushes j f left' ↔ l.Pushes j f left' := by
    by_cases hne : j = i
    · subst hne
      rw [Pushes, Pushes, hsending]
    · exact h.pushes_iff_of_ne hne
  have hown := h.own
  unfold Pushes at hi hnone
  rw [hi] at hown hsame
  generalize hy : l'.sending i = y, l'.turnstile = t' at hown
  cases hown with
  | rest =>
    rw [completed_nil, List.append_nil, List.append_nil]
    exact ht.congr (hsame hy)
  | send hm =>
    cases hm with
    | broken _ => exact hdrop hy rfl
    | giveUpPushing _ => exact hdrop hy rfl
    | @part _ taken rest _ hw hrest =>
      -- The part behind the frames grows by what the pipe takes.
      rw [completed_of_sending hy, List.append_nil]
      refine ⟨part ++ taken, ?_, .inr ⟨i, rest, ?_⟩⟩
      · rw [hwritten, List.append_assoc]
      · rw [Pushes, hy, List.append_assoc, Pipe.append_of_write hw]
        rfl
    | @whole _ taken _ hw =>
      -- The pipe takes all that was left, and the frame joins the others.
      have htaken := Pipe.append_of_write hw
      rw [List.append_nil] at htaken
      subst htaken
      rw [completed_of_pushes hi hy hleft]
      refine ⟨[], ?_, .inl ⟨rfl, hnone fun f left' hp => ?_⟩⟩
      · rw [hwritten, List.flatten_append, List.flatten_singleton, List.append_nil,
          List.append_assoc]
      · rw [hy] at hp
        cases hp
  | quit _ => exact hdrop hy rfl

/-- A task that does not push makes a step. -/
theorem Carries.step_of_not_pushes {frames : List Bytes} (hl : l.Exclusive)
    (ht : l.Carries frames written) (h : Step p cancelled i m l l' bs)
    (hi : ∀ frame left, ¬l.Pushes i frame left) :
    l'.Carries (frames ++ l.completed l' i bs) (written ++ bs) := by
  obtain ⟨rfl, hlaid⟩ := h.of_not_pushes hi
  rw [completed_nil, List.append_nil, List.append_nil]
  by_cases hi' : ∃ frame left, l'.Pushes i frame left
  · -- The task has just laid out its frame, so nobody else was pushing.
    obtain ⟨frame, left, hi'⟩ := hi'
    obtain ⟨hin, rfl⟩ := hlaid frame left hi'
    have hnone : ∀ j frame left, ¬l.Pushes j frame left := by
      intro j frame left hj
      have hinside := hl.inside j frame left hj
      rw [hin] at hinside
      cases hinside
      exact hi frame left hj
    exact ⟨[], by rw [ht.of_not_pushes hnone, List.append_nil], .inr ⟨i, left, hi'⟩⟩
  · refine ht.congr ?_
    intro j frame left
    by_cases hne : j = i
    · subst hne
      exact iff_of_false (fun hp => hi' ⟨frame, left, hp⟩) (hi frame left)
    · exact h.pushes_iff_of_ne hne

/-- **A step that tears no frame adds the frame that it completes.** -/
theorem Carries.step {frames : List Bytes} (hl : l.Exclusive) (ht : l.Carries frames written)
    (h : Step p cancelled i m l l' bs) (hcalm : ¬l.Tears l' i bs) :
    l'.Carries (frames ++ l.completed l' i bs) (written ++ bs) := by
  by_cases hi : ∃ frame left, l.Pushes i frame left
  · obtain ⟨frame, left, hi⟩ := hi
    exact ht.step_of_pushes hl h hcalm hi
  · exact ht.step_of_not_pushes hl h fun frame left hp => hi ⟨frame, left, hp⟩

/-- **A step that tears no frame keeps the stream in frames.** -/
theorem Tracks.step (hl : l.Exclusive) (ht : l.Tracks written) (h : Step p cancelled i m l l' bs)
    (hcalm : ¬l.Tears l' i bs) : l'.Tracks (written ++ bs) := by
  obtain ⟨frames, hframes, hcarries⟩ := ht
  refine ⟨frames ++ l.completed l' i bs, ?_, hcarries.step hl h hcalm⟩
  intro f hf
  rcases List.mem_append.1 hf with hf | hf
  · exact hframes f hf
  · exact whole_of_mem_completed hl hf

/-- How a task comes to have no frame any more. -/
inductive Over (p : Pipe) (cancelled : Bool) :
    Except Fault Bytes → Sending → LaneMove → Bytes → Prop
  /-- It goes away. -/
  | stops {frame s} : Over p cancelled frame s .stop []
  /-- It gives up. -/
  | givesUp {frame s} : cancelled = true → Over p cancelled frame s (.send .giveUp) []
  /-- It finds the pipe closed. -/
  | broken {frame left} : p.closed = true → Over p cancelled frame (.pushing left) (.send .push) []
  /-- There is no frame. -/
  | fault {f} : Over p cancelled (.error f) .inLine (.send .layOut) []
  /-- The frame is all in the pipe. -/
  | whole {frame left} : Over p cancelled frame (.pushing left) (.send .push) left

/-- **A task that has no frame any more has lost it in one of these ways.** -/
theorem Step.over (h : Step p cancelled i m l l' bs) {frame : Except Fault Bytes} {s : Sending}
    (hi : l.sending i = some (frame, s)) (hgone : l'.sending i = none) :
    Over p cancelled frame s m bs := by
  have hown := h.own
  rw [hi] at hown
  generalize l'.sending i = y, l'.turnstile = t' at hown hgone
  cases hown with
  | rest => cases hgone
  | send hm =>
    cases hm with
    | enter | layOut _ _ | part _ _ => cases hgone
    | fault _ hf =>
      subst hf
      exact .fault
    | broken hclosed => exact .broken hclosed
    | @whole left taken _ hw =>
      have htaken := Pipe.append_of_write hw
      rw [List.append_nil] at htaken
      exact htaken ▸ .whole
    | giveUpOutside hc | giveUpInLine hc | giveUpPushing hc => exact .givesUp hc
  | drop | quit _ => exact .stops

/-- How a frame can be torn: the task goes away, or gives up, or finds the pipe closed. -/
theorem Tears.cause (hl : l.Exclusive) (h : Step p cancelled i m l l' bs)
    (htears : l.Tears l' i bs) :
    m = .stop ∨ m = .send .giveUp ∧ cancelled = true ∨ m = .send .push ∧ p.closed = true := by
  obtain ⟨part, left, hi, -, hgone, hbs⟩ := htears
  obtain ⟨hleft, -⟩ := hl.part i _ left hi
  cases h.over hi hgone with
  | stops => exact .inl rfl
  | givesUp hc => exact .inr (.inl ⟨rfl, hc⟩)
  | broken hclosed => exact .inr (.inr ⟨rfl, hclosed⟩)
  | whole => exact absurd hbs hleft

/-- **A step that tears a frame leaves a stream that is not in frames.** -/
theorem not_framed_of_tears (hl : l.Exclusive) (ht : l.Tracks written)
    (h : Step p cancelled i m l l' bs)
    (htears : l.Tears l' i bs) : ¬l'.Framed (written ++ bs) := by
  obtain ⟨part, left, hi, hpart, hgone, rfl⟩ := htears
  obtain ⟨hleft, -⟩ := hl.part i _ left hi
  obtain ⟨frames, hframes, hcarries⟩ := ht
  obtain rfl := hcarries.of_pushes hl hi
  have hnone := h.not_pushes hl (hl.inside i _ left hi) fun frame left hp => by
    rw [Pushes, hgone] at hp
    cases hp
  rintro ⟨frames', part', hframes', hwritten, hpart'⟩
  have hnil : part' = [] := by
    rcases hpart' with hnil | ⟨j, left', hj, -⟩
    · exact hnil
    · exact absurd hj (hnone j _ left')
  -- Nobody pushes any more, so the torn part would have to belong to whole frames.
  rw [hnil, List.append_nil, List.append_nil] at hwritten
  exact Frame.flatten_append_ne_flatten hframes hframes' (hl.whole i _ _ hi) hpart hleft hwritten

/-! ### The end of the stream -/

/-- What has been pushed of the frame that is being pushed is the end of the stream. -/
def Trails (l : Lane ι) (written : Bytes) : Prop :=
  ∀ i part left, l.Pushes i (.ok (part ++ left)) left → part <:+ written

omit [DecidableEq ι] in
/-- A frame is the end of the stream once the rest of it is pushed. -/
theorem Trails.of_pushes (hl : l.Exclusive) (ht : l.Trails written) {frame left : Bytes}
    (hi : l.Pushes i (.ok frame) left) : frame <:+ written ++ left := by
  obtain ⟨-, part, hframe⟩ := hl.part i _ left hi
  cases hframe
  exact List.suffix_append_self_iff.2 (ht i part left hi)

/-- What a step pushes of a frame follows what has been pushed of it before. -/
theorem Step.part_of_pushes (hl : l.Exclusive) (h : Step p cancelled i m l l' bs)
    {frame : Except Fault Bytes} {left part left' : Bytes} (hi : l.Pushes i frame left)
    (hi' : l'.Pushes i (.ok (part ++ left')) left') :
    ∃ before, l.Pushes i (.ok (before ++ left)) left ∧ part = before ++ bs := by
  obtain ⟨hleft, before, rfl⟩ := hl.part i frame left hi
  refine ⟨before, hi, ?_⟩
  have hown := h.own
  unfold Pushes at hi hi'
  rw [hi, hi'] at hown
  generalize hy : some ((.ok (part ++ left') : Except Fault Bytes), Sending.pushing left') = y,
    l'.turnstile = t' at hown
  cases hown with
  | rest =>
    -- Nobody pushed, so the part is what it was.
    simp only [Option.some.injEq, Prod.mk.injEq, Except.ok.injEq, Sending.pushing.injEq] at hy
    obtain ⟨hframe, rfl⟩ := hy
    rw [List.append_nil, List.append_cancel_right hframe]
  | send hm =>
    cases hm with
    | @part _ taken rest _ hw hrest =>
      simp only [Sum.elim_inl, Option.some.injEq, Prod.mk.injEq, Except.ok.injEq,
        Sending.pushing.injEq, ← Pipe.append_of_write hw, ← List.append_assoc] at hy
      -- What the pipe took is the front of what was left.
      obtain ⟨hframe, rfl⟩ := hy
      exact List.append_cancel_right hframe
    | _ => cases hy
  | _ => cases hy

/-- **Every step keeps the end of the stream**, whether or not it tears a frame. -/
theorem Trails.step (hl : l.Exclusive) (ht : l.Trails written) (h : Step p cancelled i m l l' bs) :
    l'.Trails (written ++ bs) := by
  intro j part left hj
  by_cases hne : j = i
  · subst hne
    by_cases hi : ∃ frame left, l.Pushes j frame left
    · obtain ⟨frame, left₀, hi⟩ := hi
      obtain ⟨before, hbefore, rfl⟩ := h.part_of_pushes hl hi hj
      exact List.suffix_append_self_iff.2 (ht j before left₀ hbefore)
    · obtain ⟨rfl, hlaid⟩ := h.of_not_pushes fun frame left hp => hi ⟨frame, left, hp⟩
      -- The frame has just been laid out.
      obtain ⟨-, hframe⟩ := hlaid _ _ hj
      rw [Except.ok.injEq, List.append_left_eq_self] at hframe
      rw [hframe]
      exact List.nil_suffix
  · -- Whoever pushes is alone.
    have hj' := (h.pushes_iff_of_ne hne).1 hj
    obtain ⟨rfl, -⟩ := h.of_not_pushes fun frame left hi => hne (hl.eq_of_pushes hj' hi)
    rw [List.append_nil]
    exact ht j part left hj'

end Lane
end Mqtt
