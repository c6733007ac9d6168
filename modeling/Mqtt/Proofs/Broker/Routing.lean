import Mqtt.Proofs.Broker.Forwarding
import Mqtt.Proofs.Broker.Quiescence
/-!
# How a message is routed

A message goes from the task that has it to the sessions that want it. What the task has done for it
in a run is noted (`looks`, `attempts`, `outcomes`), and the notes fit together whatever comes of
the single writes (`Routed`): the task looks at every session that was registered when it began, in
that order, begins to write to those that want the message then, in that order, and counts the
writes that succeed. This is kept by each of its moves (`Routed.progress`), and all other events
leave it alone.

When the token of the task is cancelled, it may stop. But it may as well go on with the write that
is under way: of two things that are possible it does the one or the other. So it may come to write
to sessions behind. `routed_of_replay` says when this does not happen.
-/

namespace Mqtt

/-- What has been put into the stream is a part of the frame. -/
theorem Delivery.HasPut.exists_prefix {d : Delivery} {put : Bytes} (h : d.HasPut put)
    (hne : put ≠ []) : ∃ bs, d.frame = .ok bs ∧ put <+: bs := by
  rw [HasPut] at h
  split at h
  · exact absurd h hne
  · exact absurd h hne
  · exact ⟨_, h, List.prefix_append _ _⟩

namespace Broker

variable {b b' b₀ b₁ : Broker} {c : ConnId} {t : Task} {m : Move} {e : Event}
  {es es' : List Event} {seen seen₁ more : List Observation} {o o' : FanOut} {bs : Bytes}

/-! ### Notes of a run -/

/-- The move of a task that an event is. -/
def Event.moveOf? (t : Task) : Event → Option Move
  | .move (.task t' m) => if t' = t then some m else none
  | _ => none

/-- What is noted of an event about the message that a task forwards. -/
def noted {α : Type} (note : Broker → FanOut → Move → Option α) (t : Task) (b : Broker)
    (e : Event) : Option α :=
  (b.fanOut? t).bind fun o => (e.moveOf? t).bind (note b o)

/-- The sessions at which a task looks in a run, and whether they want the message then. -/
def looks (b : Broker) (t : Task) (es : List Event) : List (ConnId × Bool) :=
  b.collect (noted lookOf t) es

/-- The sessions to which a task begins to write a message in a run. -/
def attempts (b : Broker) (t : Task) (es : List Event) : List ConnId :=
  b.collect (noted (fun _ => FanOut.attempt?) t) es

/-- The writes of a message that a task ends in a run. -/
def outcomes (b : Broker) (t : Task) (es : List Event) : List (ConnId × Except Fault Unit) :=
  b.collect (noted (fun b => b.outcomeOf t) t) es

theorem noted_task {α : Type} {note : Broker → FanOut → Move → Option α}
    (ho : b.fanOut? t = some o) : noted note t b (.move (.task t m)) = note b o m := by
  simp [noted, ho, Event.moveOf?]

theorem noted_of_others {α : Type} {note : Broker → FanOut → Move → Option α}
    (he : ∀ m, e ≠ .move (.task t m)) : noted note t b e = none := by
  have hmove : e.moveOf? t = none := by
    cases e with
    | input i => rfl
    | move a =>
      cases a with
      | task t' m =>
        refine if_neg ?_
        rintro rfl
        exact he m rfl
      | relay c => rfl
  simp [noted, hmove]

theorem noted_eq_some {α : Type} {note : Broker → FanOut → Move → Option α} {x : α} :
    noted note t b e = some x ↔
      ∃ o m, b.fanOut? t = some o ∧ e = .move (.task t m) ∧ note b o m = some x := by
  constructor
  · intro h
    by_cases he : ∃ m, e = .move (.task t m)
    · obtain ⟨m, rfl⟩ := he
      obtain ⟨o, ho, -⟩ := Option.bind_eq_some_iff.1 h
      rw [noted_task ho] at h
      exact ⟨o, m, ho, rfl, h⟩
    · rw [noted_of_others fun m h => he ⟨m, h⟩] at h
      cases h
  · rintro ⟨o, m, ho, rfl, hx⟩
    rw [noted_task ho, hx]

/-! ### A message on its way -/

/-- How far a message has come since it began its way, and what has been noted and seen of it until
then: `o₀` is how it began. -/
structure Routed (t : Task) (o₀ : FanOut) (looks : List (ConnId × Bool)) (attempts : List ConnId)
    (outcomes : List (ConnId × Except Fault Unit)) (seen : List Observation) (o : FanOut) :
    Prop where
  topic : o.topic = o₀.topic
  frame : o.frame = o₀.frame
  /-- The task looks at each session once, in the order in which they were registered. -/
  order : looks.map Prod.fst ++ o.left = o₀.left
  /-- It goes to those that want the message when it looks at them, in that order. -/
  wanted : (looks.filter Prod.snd).map Prod.fst = outcomes.map Prod.fst ++ o.at?.toList
  /-- It begins to write to each of them once, in that order. -/
  attempted : attempts = outcomes.map Prod.fst ++ o.begun?.toList
  /-- It counts the writes that succeed. -/
  delivered : o.delivered = outcomes.countP fun x => x.2.isOk
  /-- Whoever is counted has got the frame and nothing else. -/
  written : ∀ c, (c, .ok ()) ∈ outcomes → o₀.frame = .ok (putBy t c seen)
  /-- Nobody gets anything but a part of the frame, and only those to whom it begins to write. -/
  part : ∀ c, putBy t c seen ≠ [] →
    c ∈ attempts ∧ ∃ bs, o₀.frame = .ok bs ∧ putBy t c seen <+: bs
  current : ∀ d, o.current = some d → d.frame = o₀.frame ∧ d.HasPut (putBy t d.target seen)

theorem routed_fanOut {topic : String} {f : Frame} :
    Routed t (b.fanOut topic f) [] [] [] [] (b.fanOut topic f) where
  topic := rfl
  frame := rfl
  order := rfl
  wanted := rfl
  attempted := rfl
  delivered := rfl
  written := nofun
  part _ h := absurd rfl h
  current _ hd := by cases hd

section Routed

variable {d : Delivery} {o₀ : FanOut} {looks : List (ConnId × Bool)} {attempts : List ConnId}
  {outcomes : List (ConnId × Except Fault Unit)} {look : Option (ConnId × Bool)}
  {attempt : Option ConnId} {outcome : Option (ConnId × Except Fault Unit)}

theorem Routed.sublist (h : Routed t o₀ looks attempts outcomes seen o) :
    (outcomes.map Prod.fst ++ o.at?.toList).Sublist (looks.map Prod.fst) := by
  rw [← h.wanted]
  exact List.filter_sublist.map _

/-- The task goes to each session once. -/
theorem Routed.nodup (h : Routed t o₀ looks attempts outcomes seen o) (hnodup : o₀.left.Nodup) :
    (outcomes.map Prod.fst ++ o.at?.toList).Nodup := by
  rw [← h.order] at hnodup
  exact hnodup.of_append_left.sublist h.sublist

/-- With its next move the task has begun to write to the session that it is at. -/
theorem Routed.attempted_current (h : Routed t o₀ looks attempts outcomes seen o)
    (hcurrent : o.current = some d) :
    attempts ++ (if d.state = .starting then some d.target else none).toList =
      outcomes.map Prod.fst ++ [d.target] := by
  rw [h.attempted, FanOut.begun?, hcurrent, List.append_assoc]
  by_cases hstate : d.state = .starting <;> simp [hstate]

/-- A session at which the task has not looked has got nothing. -/
theorem Routed.putBy_of_left (h : Routed t o₀ looks attempts outcomes seen o)
    (hnodup : o₀.left.Nodup) (hcurrent : o.current = none) (hc : c ∈ o.left) :
    putBy t c seen = [] := by
  by_contra hne
  have hattempt := (h.part c hne).1
  rw [h.attempted, FanOut.begun?, hcurrent] at hattempt
  have hlook : c ∈ looks.map Prod.fst :=
    h.sublist.subset (List.mem_append_left _ (by simpa using hattempt))
  rw [← h.order] at hnodup
  exact List.disjoint_of_nodup_append hnodup hlook hc

/-- As long as nothing comes from the task, it is as it was. -/
theorem Routed.rest (h : Routed t o₀ looks attempts outcomes seen o)
    (hput : ∀ c, putBy t c more = []) : Routed t o₀ looks attempts outcomes (seen ++ more) o := by
  have hsame (c : ConnId) : putBy t c (seen ++ more) = putBy t c seen := by
    rw [putBy_append, hput, List.append_nil]
  refine { h with written := ?written, part := ?part, current := ?current }
  case written =>
    intro c hc
    rw [hsame]
    exact h.written c hc
  case part =>
    intro c hc
    rw [hsame] at hc ⊢
    exact h.part c hc
  case current =>
    intro d hd
    rw [hsame]
    exact h.current d hd

/-- The task looks at the next session. -/
theorem Routed.lookAt {rest : List ConnId} (h : Routed t o₀ looks attempts outcomes seen o)
    (hnodup : o₀.left.Nodup) (hcurrent : o.current = none) (hleft : o.left = c :: rest)
    (wanted : Bool) :
    Routed t o₀ (looks ++ [(c, wanted)]) attempts outcomes seen
      { o with
        left := rest
        current := if wanted then some ⟨c, o.frame, .starting⟩ else none } := by
  have horder := h.order
  have hwanted := h.wanted
  rw [hleft] at horder
  rw [FanOut.at?, hcurrent] at hwanted
  refine { h with order := ?order, wanted := ?wanted, attempted := ?attempted, current := ?current }
  case order =>
    rw [← horder, List.map_append, List.append_assoc]
    rfl
  case wanted => cases wanted <;> simp [hwanted, FanOut.at?]
  case attempted =>
    rw [h.attempted, FanOut.begun?, FanOut.begun?, hcurrent]
    cases wanted <;> simp
  case current =>
    intro d hd
    cases wanted with
    | false => cases hd
    | true =>
      cases hd
      -- Nothing has been written yet to a session that comes up for the first time.
      exact ⟨h.frame, h.putBy_of_left hnodup hcurrent (hleft ▸ List.mem_cons_self)⟩

/-- While the task writes to one session, what the others have got stays. -/
theorem Routed.others (h : Routed t o₀ looks attempts outcomes seen o) (hnodup : o₀.left.Nodup)
    (hcurrent : o.current = some d) (hput : ∀ c, putBy t c more = if d.target = c then bs else []) :
    (∀ c, (c, .ok ()) ∈ outcomes → o₀.frame = .ok (putBy t c (seen ++ more))) ∧
      ∀ c, d.target ≠ c → putBy t c (seen ++ more) ≠ [] →
        c ∈ outcomes.map Prod.fst ++ [d.target] ∧
          ∃ bs, o₀.frame = .ok bs ∧ putBy t c (seen ++ more) <+: bs := by
  have hothers (c : ConnId) (hc : d.target ≠ c) : putBy t c (seen ++ more) = putBy t c seen := by
    rw [putBy_append, hput, if_neg hc, List.append_nil]
  have hnodup := h.nodup hnodup
  rw [FanOut.at?, hcurrent] at hnodup
  refine ⟨fun c hc => ?_, fun c hne hc => ?_⟩
  · -- Each session comes up once, so it is not the one that is being written to.
    have hne : d.target ≠ c := by
      rintro rfl
      exact List.disjoint_of_nodup_append hnodup (List.mem_map_of_mem hc) (by simp)
    rw [hothers c hne]
    exact h.written c hc
  · rw [hothers c hne] at hc ⊢
    obtain ⟨hmem, hpart⟩ := h.part c hc
    rw [← h.attempted_current hcurrent]
    exact ⟨List.mem_append_left _ hmem, hpart⟩

/-- The task goes on with the write. -/
theorem Routed.goOn {s : Sending} (h : Routed t o₀ looks attempts outcomes seen o)
    (hnodup : o₀.left.Nodup) (hcurrent : o.current = some d) (hs : s ≠ .starting)
    (hhas : ∀ put, d.HasPut put → { d with state := s }.HasPut (put ++ bs))
    (hput : ∀ c, putBy t c more = if d.target = c then bs else []) :
    Routed t o₀ looks (attempts ++ (if d.state = .starting then some d.target else none).toList)
      outcomes (seen ++ more) { o with current := some { d with state := s } } := by
  obtain ⟨hwritten, hpart⟩ := h.others hnodup hcurrent hput
  obtain ⟨hframe, hbefore⟩ := h.current d hcurrent
  have hafter : { d with state := s }.HasPut (putBy t d.target (seen ++ more)) := by
    rw [putBy_append, hput, if_pos rfl]
    exact hhas _ hbefore
  have hwanted := h.wanted
  rw [FanOut.at?, hcurrent] at hwanted
  rw [h.attempted_current hcurrent]
  refine { h with
    wanted := hwanted, attempted := ?attempted, written := hwritten, part := ?part
    current := ?current }
  case attempted => simp [FanOut.begun?, Option.filter_some, hs]
  case part =>
    intro c hc
    by_cases hne : d.target = c
    · subst hne
      -- Of the session that it is at, what has been put is a beginning of the frame.
      obtain ⟨bs, hbs, hprefix⟩ := hafter.exists_prefix hc
      exact ⟨by simp, bs, hframe.symm.trans hbs, hprefix⟩
    · exact hpart c hne hc
  case current =>
    rintro _ ⟨⟩
    exact ⟨hframe, hafter⟩

/-- The write ends. -/
theorem Routed.finish (h : Routed t o₀ looks attempts outcomes seen o) (hnodup : o₀.left.Nodup)
    (hcurrent : o.current = some d) (r : Except Fault Unit)
    (hok : r = .ok () → ∀ put, d.HasPut put → d.frame = .ok (put ++ bs))
    (hfails : r ≠ .ok () → bs = [])
    (hput : ∀ c, putBy t c more = if d.target = c then bs else []) :
    Routed t o₀ looks (attempts ++ (if d.state = .starting then some d.target else none).toList)
      (outcomes ++ [(d.target, r)]) (seen ++ more)
      { o with delivered := o.delivered + (if r.isOk then 1 else 0), current := none } := by
  obtain ⟨hwritten, hpart⟩ := h.others hnodup hcurrent hput
  obtain ⟨hframe, hbefore⟩ := h.current d hcurrent
  have htarget : putBy t d.target (seen ++ more) = putBy t d.target seen ++ bs := by
    rw [putBy_append, hput, if_pos rfl]
  have hwanted := h.wanted
  rw [FanOut.at?, hcurrent] at hwanted
  rw [h.attempted_current hcurrent]
  refine { h with
    wanted := ?wanted, attempted := ?attempted, delivered := ?delivered, written := ?written
    part := ?part, current := ?current }
  case wanted =>
    rw [hwanted]
    simp [FanOut.at?]
  case attempted => simp [FanOut.begun?]
  case delivered => rw [List.countP_append, ← h.delivered, List.countP_singleton]
  case written =>
    intro c hc
    rcases List.mem_append.1 hc with hc | hc
    · exact hwritten c hc
    · cases List.mem_singleton.1 hc
      rw [htarget, ← hframe]
      exact hok rfl _ hbefore
  case part =>
    intro c hc
    by_cases hne : d.target = c
    · subst hne
      refine ⟨by simp, ?_⟩
      rw [htarget] at hc ⊢
      by_cases hr : r = .ok ()
      · exact ⟨_, hframe.symm.trans (hok hr _ hbefore), List.prefix_refl _⟩
      · -- What a write that fails has put there before is still a part of the frame.
        rw [hfails hr, List.append_nil] at hc ⊢
        exact (h.part _ hc).2
    · exact hpart c hne hc
  case current => rintro _ ⟨⟩

/-- **Every move keeps to the rules.** -/
theorem Routed.progress (h : Routed t o₀ looks attempts outcomes seen o) (hnodup : o₀.left.Nodup)
    (hp : Progress b o look attempt outcome (.inl o') bs)
    (hput : ∀ c, putBy t c more = if o.at? = some c then bs else []) :
    Routed t o₀ (looks ++ look.toList) (attempts ++ attempt.toList) (outcomes ++ outcome.toList)
      (seen ++ more) o' := by
  have hput' (d : Delivery) (hcurrent : o.current = some d) (c : ConnId) :
      putBy t c more = if d.target = c then bs else [] := by
    rw [hput]
    simp only [FanOut.at?, hcurrent, Option.map_some, Option.some.injEq]
  cases hp with
  | @looks c _ hcurrent hleft =>
    have hnothing (c : ConnId) : putBy t c more = [] := by rw [hput, ite_self]
    simpa using (h.rest hnothing).lookAt hnodup hcurrent hleft (b.isSubscribed c o.topic)
  | @goesOn d _ _ hcurrent hs hhas =>
    simpa using h.goOn hnodup hcurrent hs hhas (hput' d hcurrent)
  | @delivers d _ hcurrent hhas =>
    rw [Option.toList_none, List.append_nil]
    exact h.finish hnodup hcurrent (.ok ()) (fun _ => hhas) (absurd rfl) (hput' d hcurrent)
  | @fails d f hcurrent =>
    rw [Option.toList_none, List.append_nil]
    refine h.finish hnodup hcurrent (.error f) (fun hok => ?_) (fun _ => rfl) (hput' d hcurrent)
    cases hok

end Routed

theorem isForwarding_iff : b.isForwarding t = true ↔ ∃ o, b.fanOut? t = some o := by
  rw [isForwarding, fanOut?]
  rcases b.work? t with _ | _ | o <;> simp [Work.spread?]

/-- **A message goes its way by the rules** as long as the task forwards it. -/
theorem routed_of_always {topic : String} {f : Frame} (hg : b₀.Greets)
    (hnodup : b₀.registry.Nodup) (hbegins : b₀.fanOut? t = some (b₀.fanOut topic f))
    (h : b₀.replay es = some (b, seen))
    (hforwards : b₀.Always es fun b _ => b.isForwarding t = true) :
    ∃ o, b.fanOut? t = some o ∧ Routed t (b₀.fanOut topic f) (b₀.looks t es) (b₀.attempts t es)
      (b₀.outcomes t es) seen o := by
  refine replay_induction (P := fun es b seen => (b₀.Always es fun b _ => b.isForwarding t = true) →
    ∃ o, b.fanOut? t = some o ∧ Routed t (b₀.fanOut topic f) (b₀.looks t es) (b₀.attempts t es)
      (b₀.outcomes t es) seen o) ?_ ?_ h hforwards
  · exact fun _ => ⟨_, hbegins, routed_fanOut⟩
  intro es e b₁ seen₁ b₂ more hrun hnext ih hforwards
  have hg₁ := (replay_evolves hg hrun).greets hg
  obtain ⟨o, ho, hrouted⟩ := ih (hforwards.upTo (List.prefix_append _ _))
  rw [looks, attempts, outcomes, collect_concat hrun hnext, collect_concat hrun hnext,
    collect_concat hrun hnext]
  by_cases he : ∃ m, e = .move (.task t m)
  · obtain ⟨m, rfl⟩ := he
    obtain ⟨b₃, r, seen₃, bs, -, hprogress, hresumes, hstream, -⟩ := progress_of_step ho hnext
    have hput (c : ConnId) : putBy t c more = if o.at? = some c then bs else [] := by
      rw [(onlyBy_of_next hnext).putBy, hstream]
    obtain ⟨o', ho'⟩ := isForwarding_iff.1 (hforwards _ b₂ (seen₁ ++ more) (List.prefix_refl _)
      (replay_concat_eq_some.2 ⟨b₁, seen₁, more, hrun, hnext, rfl⟩))
    -- It is not done, for it goes on forwarding.
    have hfanOut := hresumes.fanOut
    rcases r with o₂ | n
    · refine ⟨o₂, hfanOut, ?_⟩
      rw [noted_task ho, noted_task ho, noted_task ho]
      exact hrouted.progress hnodup hprogress hput
    · rw [ho'] at hfanOut
      cases hfanOut
  · have he : ∀ m, e ≠ .move (.task t m) := fun m h => he ⟨m, h⟩
    obtain ⟨ho', hput⟩ := fanOut?_of_others hg₁ hnext he ho
    refine ⟨o, ho', ?_⟩
    rw [noted_of_others he, noted_of_others he, noted_of_others he, Option.toList_none,
      Option.toList_none, Option.toList_none, List.append_nil, List.append_nil, List.append_nil]
    exact hrouted.rest hput

/-! ### What comes next -/

/-- What a task can do next with its message, and what it touches by that. -/
structure Onward (t : Task) (b : Broker) (o : FanOut) : Prop where
  /-- Behind a write it can go on, however that one has ended. -/
  reaches : o.current = none → (b.next? (.move (.task t .reach))).isSome = true
  /-- During a write it can stop if and only if its token is cancelled. -/
  stops : o.current ≠ none →
    ((b.next? (.move (.task t .stop))).isSome = true ↔ b.token t = true)
  /-- Whoever is to blame for the failure of a write is told to end, and nobody else. Of the other
  sessions nothing changes. -/
  touches : ∀ m b' more, b.next? (.move (.task t m)) = some (b', more) →
    b.Touches b' o.at? ((b.outcomeOf t o m).bind culprit?) ∧
      ∀ c, o.at? ≠ some c → streamOf c more = []
  /-- The task is done when it has been everywhere, and when it stops. The number that it returns is
  that of the writes that have succeeded. -/
  ends : ∀ m b' more, b.next? (.move (.task t m)) = some (b', more) → b'.isForwarding t = false →
    (o.current = none ∧ o.left = [] ∨ m = .stop ∧ b.token t = true) ∧
      (∃ b₁ seen, b.fanOutStep t (b.token t) o m = some (b₁, .inr o.delivered, seen)) ∧
      ∀ n, t = .host n → .answered n (.delivered o.delivered) ∈ more

/-- A task can move when its forwarding can. -/
theorem isSome_next?_of_fanOutStep (ha : ∀ c, Attends c b seen) (ho : b.fanOut? t = some o)
    (h : (b.fanOutStep t (b.token t) o m).isSome = true) :
    (b.next? (.move (.task t m))).isSome = true := by
  obtain ⟨w, hwork, ho⟩ := Option.bind_eq_some_iff.1 ho
  cases t with
  | conn c =>
    obtain ⟨k, hk, hwork⟩ := Option.bind_eq_some_iff.1 hwork
    cases hat : k.phase with
    | forwarding p o' =>
      rw [hat] at hwork
      cases hwork
      cases ho
      obtain ⟨s, hs⟩ := (ha c).exists_session hk (by rw [hat]; rfl)
      refine isSome_connStep_of_forwarding hk hat hs ?_
      rwa [token, session?_of_conn hk, hs] at h
    | _ =>
      rw [hat] at hwork
      cases hwork <;> cases ho
  | host n =>
    obtain ⟨call, hcall, hwork⟩ := Option.bind_eq_some_iff.1 hwork
    cases call with
    | publish o' =>
      cases hwork
      cases ho
      exact isSome_callStep_of_publish hcall h
    | _ => cases hwork <;> cases ho

theorem onward_of_fanOut (ha : ∀ c, Attends c b seen) (ho : b.fanOut? t = some o) :
    Onward t b o where
  reaches hcurrent := by
    refine isSome_next?_of_fanOutStep ha ho ?_
    rcases hleft : o.left with _ | ⟨c, rest⟩ <;> simp [fanOutStep, hcurrent, hleft]
  stops hcurrent := by
    obtain ⟨d, hcurrent⟩ := Option.ne_none_iff_exists'.1 hcurrent
    refine ⟨fun h => ?_, fun htoken => ?_⟩
    · -- The rule for stopping asks for the token.
      obtain ⟨⟨b', more⟩, hnext⟩ := Option.isSome_iff_exists.1 h
      obtain ⟨b₁, r, seen, hforwards, -⟩ := forwards_of_step ho hnext
      cases hforwards with
      | stops _ htoken => exact htoken
    · refine isSome_next?_of_fanOutStep ha ho ?_
      simp [fanOutStep, hcurrent, htoken]
  touches m b' more hnext := by
    obtain ⟨-, -, -, bs, -, -, -, hstream, htouches⟩ := progress_of_step ho hnext
    refine ⟨htouches, fun c hc => ?_⟩
    rw [hstream, if_neg hc]
  ends m b' more hnext hidle := by
    obtain ⟨b₁, r, seen, hforwards, hresumes⟩ := forwards_of_step ho hnext
    rcases r with o' | n
    · rw [isForwarding_iff.2 ⟨o', hresumes.fanOut⟩] at hidle
      cases hidle
    · refine ⟨?_, ⟨b₁, seen, ?_⟩, ?_⟩
      · cases hforwards with
        | exhausts hcurrent hleft => exact .inl ⟨hcurrent, hleft⟩
        | stops _ htoken => exact .inr ⟨rfl, htoken⟩
      · rw [fanOutStep_of_forwards hforwards]
        cases hforwards <;> rfl
      · rintro k rfl
        have hanswered := hresumes.answered n k rfl rfl
        cases hforwards <;> exact hanswered

/-! ### When the token is cancelled -/

/-- A task whose token is cancelled goes on with a write instead of stopping, and by that takes the
success of one, or begins one to another session than this. -/
def Overruns (t : Task) (c : ConnId) (b : Broker) (e : Event) : Prop :=
  b.token t = true ∧ ∃ o m, b.fanOut? t = some o ∧ e = .move (.task t (.send m)) ∧
    ((∃ d, b.outcomeOf t o (.send m) = some (d, .ok ())) ∨
      ∃ d ≠ c, o.attempt? (.send m) = some d)

/-- A write is ended by a move that goes on with it. -/
theorem exists_send_of_outcomeOf {x : ConnId × Except Fault Unit}
    (h : b.outcomeOf t o m = some x) : ∃ sm, m = .send sm := by
  unfold outcomeOf at h
  split at h
  · exact ⟨_, rfl⟩
  · cases h

/-- A write is begun by a move that goes on with it. -/
theorem exists_send_of_attempt? (h : o.attempt? m = some c) : ∃ sm, m = .send sm := by
  unfold FanOut.attempt? at h
  split at h
  · exact ⟨_, rfl⟩
  · cases h

/-- A token stays cancelled. -/
theorem Evolves.token (h : b.Evolves b') (htoken : b.token t = true) : b'.token t = true := by
  cases t with
  | conn c =>
    rw [Broker.token] at htoken ⊢
    rcases hs : b.session? c with _ | s
    · rw [hs] at htoken
      cases htoken
    · rw [hs] at htoken
      obtain ⟨s', hs', hcancelled⟩ := h.exists_cancelled hs htoken
      rw [hs']
      exact hcancelled
  | host n => exact h.shutdown htoken

/-- **When a cancelled token is heeded.** The task begins to write to no other session and counts no
further write if and only if it does not overrun. -/
theorem never_overruns_iff (hg : b.Greets) (htoken : b.token t = true)
    (h : b.replay es = some (b', seen)) :
    ((∀ d ∈ b.attempts t es, d = c) ∧ (b.outcomes t es).countP (fun x => x.2.isOk) = 0) ↔
      b.Never es (Overruns t c) := by
  rw [attempts, outcomes, List.countP_eq_zero, forall_mem_collect_iff h, forall_mem_collect_iff h]
  constructor
  · -- An overrun is itself the note of an attempt, or of a success.
    rintro ⟨hattempts, houtcomes⟩ es₁ e b₁ seen₁ hp hrun ⟨-, o, m, ho, rfl, ⟨d, hd⟩ | ⟨d, hne, hd⟩⟩
    · refine houtcomes es₁ _ b₁ seen₁ hp hrun ⟨(d, .ok ()), ?_, not_not.2 rfl⟩
      rw [noted_task ho, hd]
    · refine hattempts es₁ _ b₁ seen₁ hp hrun ⟨d, ?_, hne⟩
      rw [noted_task ho, hd]
  · intro hnever
    -- The token was cancelled at the beginning, and stays so.
    have htoken {es₁ : List Event} {b₁ : Broker} {seen₁ : List Observation}
        (hrun : b.replay es₁ = some (b₁, seen₁)) : b₁.token t = true :=
      (replay_evolves hg hrun).token htoken
    refine ⟨?_, ?_⟩
    · rintro es₁ e b₁ seen₁ hp hrun ⟨d, hnote, hne⟩
      obtain ⟨o, m, ho, rfl, hd⟩ := noted_eq_some.1 hnote
      obtain ⟨sm, rfl⟩ := exists_send_of_attempt? hd
      exact hnever es₁ _ b₁ seen₁ hp hrun ⟨htoken hrun, o, sm, ho, rfl, .inr ⟨d, hne, hd⟩⟩
    · rintro es₁ e b₁ seen₁ hp hrun ⟨⟨d, r⟩, hnote, hr⟩
      obtain ⟨o, m, ho, rfl, hd⟩ := noted_eq_some.1 hnote
      obtain ⟨sm, rfl⟩ := exists_send_of_outcomeOf hd
      rcases r with f | ⟨⟩
      · exact absurd Bool.false_ne_true hr
      · exact hnever es₁ _ b₁ seen₁ hp hrun ⟨htoken hrun, o, sm, ho, rfl, .inl ⟨d, hd⟩⟩

/-- **How a message is routed.** A task that begins to forward a message has before it all sessions
that are registered then, each one once. Whatever comes of the single writes, at any moment on its
way it has begun to write to those that wanted the message when it looked at them, each once and in
that order, and has counted those that have got the frame. With its next move it tells whoever is to
blame for the failure of a write to end, and touches no others. It can always go on, and the number
that it returns in the end is the one that it has counted.

If its token is cancelled during a write, it can stop at once. No session behind is attempted and
the count stays what it was if and only if it does not overrun. -/
theorem routed_of_replay {maxPacketSize now : Nat} {es₁ : List Event}
    (h₁ : (start maxPacketSize now).replay es₁ = some (b₁, seen₁))
    (hidle : b₁.isForwarding t = false) (hbegins : b₁.next? e = some (b₀, more))
    (h : b₀.replay es = some (b, seen))
    (hforwards : b₀.Always es fun b _ => b.isForwarding t = true) :
    ∃ topic f o, b₀.fanOut? t = some (b₀.fanOut topic f) ∧ b₀.registry.Nodup ∧
      b.fanOut? t = some o ∧ Onward t b o ∧
      Routed t (b₀.fanOut topic f) (b₀.looks t es) (b₀.attempts t es) (b₀.outcomes t es) seen o ∧
      (b.token t = true → ∀ d, o.current = some d → ∀ es' b' more,
        b.replay es' = some (b', more) → (b.Always es' fun b _ => b.isForwarding t = true) →
        ∃ o', b'.fanOut? t = some o' ∧ Onward t b' o' ∧
          (((∀ c ∈ b.attempts t es', c = d.target) ∧ o'.delivered = o.delivered) ↔
            b.Never es' (Overruns t d.target))) := by
  have h₀ : (start maxPacketSize now).replay (es₁ ++ [e]) = some (b₀, seen₁ ++ more) :=
    replay_concat_eq_some.2 ⟨b₁, seen₁, more, h₁, hbegins, rfl⟩
  have hb : (start maxPacketSize now).replay (es₁ ++ [e] ++ es) =
      some (b, seen₁ ++ more ++ seen) := Machine.replay_append h₀ h
  obtain ⟨hw₁, -⟩ := exclusive_of_replay h₁
  obtain ⟨hw₀, -⟩ := exclusive_of_replay h₀
  obtain ⟨hw, -⟩ := exclusive_of_replay hb
  have hnodup := (registered_of_replay h₀).nodup
  -- The message begins its way with the sessions that are registered.
  obtain ⟨o₀, ho₀⟩ := isForwarding_iff.1 (hforwards [] b₀ [] List.nil_prefix rfl)
  have hnone : b₁.fanOut? t = none := by
    by_contra hne
    rw [isForwarding_iff.2 (Option.ne_none_iff_exists'.1 hne)] at hidle
    cases hidle
  obtain ⟨topic, f, rfl⟩ := exists_fanOut_of_next hw₁.greets hbegins hnone ho₀
  obtain ⟨o, ho, hrouted⟩ := routed_of_always hw₀.greets hnodup ho₀ h hforwards
  -- The account so far. What follows is about the run after a cancellation.
  refine ⟨topic, f, o, ho₀, hnodup, ho, onward_of_fanOut (attends_of_replay hb) ho, hrouted, ?_⟩
  intro htoken d hcurrent es' b' more' h' hforwards'
  have hrun : b₀.replay (es ++ es') = some (b', seen ++ more') :=
    Machine.replay_append h h'
  obtain ⟨o', ho', hrouted'⟩ :=
    routed_of_always hw₀.greets hnodup ho₀ hrun (hforwards.append h hforwards')
  have hb' : (start maxPacketSize now).replay (es₁ ++ [e] ++ es ++ es') =
      some (b', seen₁ ++ more ++ seen ++ more') := Machine.replay_append hb h'
  refine ⟨o', ho', onward_of_fanOut (attends_of_replay hb') ho', ?_⟩
  -- The count is that of the successes noted, so it stays if no success is noted.
  rw [← never_overruns_iff hw.greets htoken h', hrouted'.delivered, hrouted.delivered]
  rw [outcomes, collect_append h, List.countP_append]
  simp [outcomes]

/-- Two clients subscribe to what a third one publishes. -/
def threeClients : List Event :=
  let connect : Bytes := [0x10, 13, 0, 4, 0x4d, 0x51, 0x54, 0x54, 4, 2, 0, 60, 0, 1, 0x73]
  let join (c : ConnId) : List Event :=
    [.input (.opens "peer" 16), .input (.peerWrites c connect)] ++ answering c
  let subscribe (c : ConnId) : List Event :=
    [.input (.peerWrites c [0x82, 6, 0, 1, 0, 1, 0x74, 0])] ++ answering c
  join 0 ++ subscribe 0 ++ join 1 ++ subscribe 1 ++ join 2 ++
    [.input (.peerReads 1 16), .input (.peerWrites 2 [0x30, 8, 0, 1, 0x74, 1, 2, 3, 4, 5]),
      .move (.task (.conn 2) .receive)]

/-- The message gets stuck in the stream of the first client. Then both that client and the one that
publishes are told to end. -/
def stuckMessage : List Event :=
  ([.reach, .send .enter, .send .layOut, .send .push].map fun m => .move (.task (.conn 2) m)) ++
    [.input (.closes 0), .input (.closes 2)]

/-- The write to the first client ends, and the task goes on with the second one. -/
def passedOnMessage : List Event :=
  [.send .giveUp, .reach, .send .enter, .send .layOut, .send .push].map fun m =>
    .move (.task (.conn 2) m)

/-- The second client gets a message whose sender was told to end before its turn came. -/
theorem not_never_overruns_passedOnMessage :
    ∃ b₁ seen₁ b₀ more b seen b' more', (start 1000 0).replay threeClients = some (b₁, seen₁) ∧
      b₁.isForwarding (.conn 2) = false ∧
      b₁.next? (.move (.task (.conn 2) .dispatch)) = some (b₀, more) ∧
      b₀.replay stuckMessage = some (b, seen) ∧
      (b₀.Always stuckMessage fun b _ => b.isForwarding (.conn 2) = true) ∧
      b.token (.conn 2) = true ∧ b.replay passedOnMessage = some (b', more') ∧
      b.attempts (.conn 2) passedOnMessage = [1] ∧
      ¬b.Never passedOnMessage (Overruns (.conn 2) 0) := by
  have hend : ((start 1000 0).replay threeClients).bind (fun r₁ =>
      (r₁.1.next? (.move (.task (.conn 2) .dispatch))).bind fun r₀ =>
        (r₀.1.replay stuckMessage).bind fun r =>
          (r.1.replay passedOnMessage).map fun r' =>
            ((r₁.1.isForwarding (.conn 2),
              decide (r₀.1.Always stuckMessage fun b _ => b.isForwarding (.conn 2) = true),
              decide (r.1.Always passedOnMessage fun b _ => b.isForwarding (.conn 2) = true)),
            r.1.token (.conn 2), (r.1.fanOut? (.conn 2)).bind FanOut.at?,
            r.1.attempts (.conn 2) passedOnMessage)) =
      some ((false, true, true), true, some 0, [1]) := by
    decide +kernel
  obtain ⟨⟨b₁, seen₁⟩, h₁, hend⟩ := Option.bind_eq_some_iff.1 hend
  obtain ⟨⟨b₀, more⟩, h₀, hend⟩ := Option.bind_eq_some_iff.1 hend
  obtain ⟨⟨b, seen⟩, h, hend⟩ := Option.bind_eq_some_iff.1 hend
  obtain ⟨⟨b', more'⟩, h', hend⟩ := Option.map_eq_some_iff.1 hend
  obtain ⟨hforwards, hend⟩ := Prod.mk.inj hend
  obtain ⟨hidle, hforwards⟩ := Prod.mk.inj hforwards
  obtain ⟨hstuck, hpassedOn⟩ := Prod.mk.inj hforwards
  obtain ⟨htoken, hend⟩ := Prod.mk.inj hend
  obtain ⟨hat, hattempts⟩ := Prod.mk.inj hend
  have hstuck := of_decide_eq_true hstuck
  refine ⟨b₁, seen₁, b₀, more, b, seen, b', more', h₁, hidle, h₀, h, hstuck, htoken, h',
    hattempts, fun hnever => ?_⟩
  obtain ⟨-, -, o, -, -, ho, -, -, hcancelled⟩ := routed_of_replay h₁ hidle h₀ h hstuck
  obtain ⟨d, hcurrent, htarget⟩ : ∃ d, o.current = some d ∧ d.target = 0 := by
    rw [ho] at hat
    exact Option.map_eq_some_iff.1 hat
  obtain ⟨_, -, -, hiff⟩ := hcancelled htoken d hcurrent _ b' more' h' (of_decide_eq_true hpassedOn)
  rw [htarget] at hiff
  have hsecond := (hiff.2 hnever).1 1 (by rw [hattempts]; exact List.mem_singleton_self _)
  cases hsecond

end Broker
end Mqtt
