import Mqtt.Proofs.Broker.Framing
import Mqtt.Proofs.Broker.Turns
/-!
# Who still writes to a session that is to end

Once a session is to end, nobody comes to its turnstile any more. What a task may still put into the
stream is what is left of the frame with which it stands there (`Broker.due`), and in every event
what it puts there comes off the front of that (`next?_prefix_due`). So nobody begins a second
frame, and a message that has not reached the turnstile does not reach it, however old the list of
sessions is by which it goes round.

But whoever stands in line may come inside before it gives up, and then lay out its frame and push
it: of two things that are possible it does the one or the other. `shutsOut_iff` says that this is
the only way in which a frame is begun for a session that is to end, and that a look at the token
between coming inside and laying out the frame would close it.
-/

namespace Mqtt

/-- The bytes that are left of a frame that is being pushed, and, if so said, those of a frame in
line. -/
def Delivery.due (d : Delivery) (inLine : Bool) : Bytes :=
  match d.state, d.frame with
  | .inLine, .ok bs => if inLine then bs else []
  | .pushing left, _ => left
  | _, _ => []

namespace Broker

variable {b b' b₁ b₂ : Broker} {c : ConnId} {t t' : Task} {m : Move} {e : Event}
  {es es₁ es₂ : List Event} {k : Conn} {s : Session} {seen seen₁ more : List Observation}
  {inLine : Bool}

/-! ### What a task has put into a stream, and what is left -/

/-- The bytes that a stream has taken from a task. -/
def putBy (t : Task) (c : ConnId) (seen : List Observation) : Bytes :=
  seen.flatMap fun o =>
    match o with
    | .wrote c' t' bs => if c' = c ∧ t' = t then bs else []
    | _ => []

/-- The bytes that are left of the frame with which a task stands at the turnstile of a session. -/
def due (b : Broker) (t : Task) (c : ConnId) (inLine : Bool) : Bytes :=
  match b.delivery? t with
  | some d => if d.target = c then d.due inLine else []
  | none => []

theorem putBy_append : putBy t c (seen ++ more) = putBy t c seen ++ putBy t c more :=
  List.flatMap_append

theorem due_of_delivery {d : Delivery} (hd : b.delivery? t = some d) :
    b.due t c inLine = if d.target = c then d.due inLine else [] := by
  rw [due, hd]

theorem due_of_none (h : b.delivery? t = none) : b.due t c inLine = [] := by
  rw [due, h]

theorem due_congr (h : b'.work? t = b.work? t) : b'.due t c inLine = b.due t c inLine := by
  rw [due, delivery?, h, due, delivery?]

/-- All bytes that are seen are of one task. -/
def OnlyBy (t : Task) (seen : List Observation) : Prop :=
  ∀ c t' bs, .wrote c t' bs ∈ seen → t' = t

theorem OnlyBy.append (h : OnlyBy t seen) (h' : OnlyBy t more) : OnlyBy t (seen ++ more) := by
  intro c t' bs hmem
  rcases List.mem_append.1 hmem with hmem | hmem
  · exact h c t' bs hmem
  · exact h' c t' bs hmem

theorem onlyBy_of_silent (h : ∀ c t' bs, .wrote c t' bs ∉ seen) : OnlyBy t seen :=
  fun c t' bs hmem => absurd hmem (h c t' bs)

theorem OnlyBy.putBy (h : OnlyBy t seen) : putBy t c seen = streamOf c seen := by
  rw [Broker.putBy, streamOf]
  refine List.flatMap_congr fun o ho => ?_
  cases o with
  | wrote d t' bs => simp [h d t' bs ho]
  | _ => rfl

theorem OnlyBy.putBy_of_ne (h : OnlyBy t seen) (hne : t' ≠ t) :
    Broker.putBy t' c seen = [] := by
  rw [Broker.putBy, List.flatMap_eq_nil_iff]
  intro o ho
  cases o with
  | wrote d t'' bs =>
    rw [h d t'' bs ho]
    exact if_neg fun heq => hne heq.2.symm
  | _ => rfl

/-- What a stream has not taken at all it has not taken from a task. -/
theorem putBy_of_streamOf (h : streamOf c seen = []) : putBy t c seen = [] := by
  rw [streamOf, List.flatMap_eq_nil_iff] at h
  rw [putBy, List.flatMap_eq_nil_iff]
  intro o ho
  cases o with
  | wrote d t' bs =>
    have hbs : (if d = c then bs else []) = [] := h _ ho
    show (if d = c ∧ t' = t then bs else []) = []
    split_ifs with hd
    · rwa [if_pos hd.1] at hbs
    · rfl
  | _ => rfl

theorem Sends.onlyBy {d : Delivery} {m : SendMove} {r : Sending ⊕ Except Fault Unit}
    (h : Sends b t d m b' r seen) : OnlyBy t seen := by
  cases h with
  | @intro k s sent _ _ _ _ =>
    intro c t' bs hmem
    rw [wrote] at hmem
    split_ifs at hmem
    · cases hmem
    · cases List.mem_singleton.1 hmem
      rfl

theorem Forwards.onlyBy {stopped : Bool} {o : FanOut} {r : FanOut ⊕ Nat}
    (h : Forwards b t stopped o m b' r seen) : OnlyBy t seen := by
  cases h with
  | exhausts _ _ | passes _ _ _ | reaches _ _ _ | stops _ _ => exact onlyBy_of_silent (by simp)
  | goesOn _ hsends | delivers _ hsends | fails _ hsends => exact hsends.onlyBy

theorem Serves.onlyBy (h : Serves b c k m b' seen) : OnlyBy (.conn c) seen := by
  cases h with
  | answers _ _ hsends | answerFails _ _ hsends => exact hsends.onlyBy
  | @answered _ after _ _ _ _ _ _ hsends =>
    refine hsends.onlyBy.append (onlyBy_of_silent ?_)
    cases after <;> simp [afterReply]
  | forwards _ _ hforwards => exact hforwards.onlyBy
  | forwarded _ _ hforwards => exact hforwards.onlyBy.append (onlyBy_of_silent (by simp))
  | _ => exact onlyBy_of_silent (by simp [refuse])

theorem Calls.onlyBy {n : Nat} {call : HostCall} (h : Calls b n call m b' seen) :
    OnlyBy (.host n) seen := by
  cases h with
  | publishes hforwards => exact hforwards.onlyBy
  | published hforwards => exact hforwards.onlyBy.append (onlyBy_of_silent (by simp))
  | writes hsends => exact hsends.onlyBy
  | written hsends => exact hsends.onlyBy.append (onlyBy_of_silent (by simp))
  | served _ => exact onlyBy_of_silent (by simp)

/-- Whoever moves is the only one that puts bytes into streams. -/
theorem onlyBy_of_next (h : b.next? (.move (.task t m)) = some (b', seen)) : OnlyBy t seen := by
  cases step_cases h with
  | conn _ hserves => exact hserves.onlyBy
  | host _ hcalls => exact hcalls.onlyBy

/-! ### One event -/

/-- A task lays out a frame for a session. -/
def LaysOut (c : ConnId) (b : Broker) (e : Event) : Prop :=
  ∃ t d, e = .move (.task t (.send .layOut)) ∧ b.delivery? t = some d ∧ d.target = c

/-- A session that is to end takes no more of a frame than what is due. -/
theorem Sends.prefix_due {d : Delivery} {m : SendMove} {r : Sending ⊕ Except Fault Unit}
    (h : Sends b t d m b' r seen) (hs : b.session? d.target = some s)
    (hcancelled : b.isCancelled s = true) (hm : inLine = true ∨ m ≠ .layOut) :
    streamOf d.target seen ++
      (r.elim (fun s => { d with state := s }.due inLine) fun _ => []) <+: d.due inLine := by
  cases h with
  | @intro k s' sent hk hs' hallowed hmoves =>
    obtain rfl : s' = s := Option.some.inj ((session?_eq_some.2 ⟨k, hk, hs'⟩).symm.trans hs)
    rw [streamOf_wrote, if_pos rfl]
    generalize hstate : d.state = state at hallowed hmoves
    cases hmoves with
    -- Nobody comes to the turnstile any more.
    | enter => exact absurd ⟨hcancelled, rfl, nofun⟩ hallowed
    | @layOut bs _ hframe =>
      obtain rfl := hm.resolve_right (not_not.2 rfl)
      have hdue : d.due true = bs := by
        rw [Delivery.due, hstate, hframe]
        rfl
      rw [hdue]
      exact List.prefix_refl _
    | @part left _ _ _ hwrite _ | @whole left _ _ hwrite =>
      have hdue : d.due inLine = left := by rw [Delivery.due, hstate]
      rw [hdue, ← Pipe.append_of_write hwrite]
      exact List.prefix_refl _
    | fault _ _ | broken _ | giveUpOutside _ | giveUpInLine _ | giveUpPushing _ =>
      exact List.nil_prefix

/-- **What a session takes from a task in an event was due**, once it is to end. Frames in line
count only if frames are still laid out. -/
theorem next?_prefix_due (hg : b.Greets) (h : b.next? e = some (b', seen))
    (hs : b.session? c = some s) (hcancelled : b.isCancelled s = true)
    (he : inLine = true ∨ ¬LaysOut c b e) (t : Task) :
    putBy t c seen ++ b'.due t c inLine <+: b.due t c inLine := by
  obtain ⟨t₀, lm, heffect, hmove⟩ := next?_effect hg h
  -- Nothing is put into the stream, and nothing new is due.
  have hquiet (hseen : streamOf c seen = [])
      (hdue : b'.due t c inLine = b.due t c inLine ∨ b'.due t c inLine = []) :
      putBy t c seen ++ b'.due t c inLine <+: b.due t c inLine := by
    rw [putBy_of_streamOf hseen, List.nil_append]
    rcases hdue with hdue | hdue
    · rw [hdue]
    · rw [hdue]
      exact List.nil_prefix
  by_cases ht : t = t₀
  · subst ht
    cases heffect.acts with
    | rests hwork _ hseen => exact hquiet (hseen c) (.inl (due_congr hwork))
    | begins _ hnew _ hseen =>
      refine hquiet (hseen c) (.inr ?_)
      rcases hd : b'.delivery? t with _ | d
      · exact due_of_none hd
      · rw [due_of_delivery hd, Delivery.due, (hnew d hd).1]
        exact ite_self _
    | enters _ hnone _ => exact hquiet rfl (.inr (due_of_none hnone))
    | leaves _ hnone _ hseen | stops _ hnone _ hseen =>
      exact hquiet (hseen c) (.inr (due_of_none hnone))
    | @sends d m b₁ _ r seen₁ _ hd hsends hd' _ hseen =>
      have hdue : b'.due t c inLine = if d.target = c
          then r.elim (fun s => { d with state := s }.due inLine) fun _ => [] else [] := by
        rcases r with state | r
        · rw [due_of_delivery hd']
          rfl
        · rw [due_of_none hd']
          exact (ite_self _).symm
      obtain rfl := hmove _ rfl
      rw [(onlyBy_of_next h).putBy, hseen, hdue, due_of_delivery hd]
      by_cases hc : d.target = c
      · subst hc
        rw [if_pos rfl, if_pos rfl]
        refine hsends.prefix_due hs hcancelled (he.imp_right ?_)
        rintro hnot rfl
        exact hnot ⟨t, d, rfl, hd, rfl⟩
      · rw [if_neg hc, if_neg hc, List.append_nil]
        cases hsends with
        | intro _ _ _ _ =>
          rw [streamOf_wrote, if_neg hc]
  · -- Others have not moved.
    have hothers : b'.due t c inLine = b.due t c inLine := due_congr (heffect.others t ht)
    cases heffect.acts with
    | rests _ _ hseen | begins _ _ _ hseen | leaves _ _ _ hseen | stops _ _ _ hseen =>
      exact hquiet (hseen c) (.inl hothers)
    | enters _ _ _ => exact hquiet rfl (.inl hothers)
    | sends _ _ _ _ _ =>
      obtain rfl := hmove _ rfl
      rw [(onlyBy_of_next h).putBy_of_ne ht, hothers]
      exact List.prefix_refl _

/-! ### Every run -/

/-- Whoever is to end stays so. -/
theorem Evolves.exists_cancelled (h : b.Evolves b') (hs : b.session? c = some s)
    (hcancelled : b.isCancelled s = true) :
    ∃ s', b'.session? c = some s' ∧ b'.isCancelled s' = true := by
  obtain ⟨s', hs', hsame⟩ := h.exists_session hs
  refine ⟨s', hs', ?_⟩
  rw [isCancelled, Bool.or_eq_true] at hcancelled ⊢
  exact hcancelled.imp hsame.cancelled h.shutdown

/-- **What a session takes from a task in a run was due**, once it is to end. -/
theorem putBy_prefix_due (hg : b₁.Greets) (hs : b₁.session? c = some s)
    (hcancelled : b₁.isCancelled s = true) (h : b₁.replay es = some (b₂, more))
    (hes : inLine = true ∨ b₁.Never es (LaysOut c)) (t : Task) :
    putBy t c more ++ b₂.due t c inLine <+: b₁.due t c inLine := by
  refine replay_induction (P := fun es b more => inLine = true ∨ b₁.Never es (LaysOut c) →
    putBy t c more ++ b.due t c inLine <+: b₁.due t c inLine)
    (fun _ => List.prefix_refl _) ?_ h hes
  intro es e b seen b' more hrun hnext ih hes
  rw [never_concat hrun] at hes
  have hevolves := replay_evolves hg hrun
  obtain ⟨s', hs', hcancelled'⟩ := hevolves.exists_cancelled hs hcancelled
  have hstep := next?_prefix_due (hevolves.greets hg) hnext hs' hcancelled'
    (hes.imp_right And.right) t
  rw [putBy_append, List.append_assoc]
  exact ((List.prefix_append_right_inj _).2 hstep).trans (ih (hes.imp_right And.left))

/-- Only frames that are being pushed put bytes into the stream of a session. -/
def ShutsOut (c : ConnId) (b : Broker) (more : List Observation) : Prop :=
  ∀ t, putBy t c more ≠ [] → ∃ d left, b.delivery? t = some d ∧ d.target = c ∧
    d.state = .pushing left ∧ putBy t c more <+: left

/-- What is due without the frames in line is due of a frame that is being pushed. -/
theorem shutsOut_of_prefix_due (h : ∀ t, putBy t c more <+: b.due t c false) :
    ShutsOut c b more := by
  intro t hne
  have hprefix := h t
  rcases hd : b.delivery? t with _ | d
  · rw [due_of_none hd, List.prefix_nil] at hprefix
    exact absurd hprefix hne
  rw [due_of_delivery hd] at hprefix
  split_ifs at hprefix with hc
  · rcases hstate : d.state with _ | _ | left <;> rw [Delivery.due, hstate] at hprefix
    · exact absurd (List.prefix_nil.1 hprefix) hne
    · refine absurd ?_ hne
      rcases hframe : d.frame with f | bs <;> rw [hframe] at hprefix
      · exact List.prefix_nil.1 hprefix
      · exact List.prefix_nil.1 hprefix
    · exact ⟨d, left, rfl, hc, hstate, hprefix⟩
  · exact absurd (List.prefix_nil.1 hprefix) hne

/-- **Who writes to a session that is to end.** From the moment at which a session is to end, every
task puts into its stream at most what is left of the frame with which it stands at the turnstile
then. Only frames that are being pushed at that moment go on, if and only if nobody who stands in
line then gets to write; and so it is if nobody lays out a frame for the session any more. -/
theorem shutsOut_iff {maxPacketSize now : Nat}
    (h₁ : (start maxPacketSize now).replay es₁ = some (b₁, seen₁)) (hs : b₁.session? c = some s)
    (hcancelled : b₁.isCancelled s = true) (h₂ : b₁.replay es₂ = some (b₂, more)) :
    (∀ t, putBy t c more <+: b₁.due t c true) ∧
      (ShutsOut c b₁ more ↔ ∀ t d, b₁.delivery? t = some d → d.target = c → d.state = .inLine →
        putBy t c more = []) ∧
      (b₁.Never es₂ (LaysOut c) → ShutsOut c b₁ more) := by
  have hg := (exclusive_of_replay h₁).1.greets
  have hdue (inLine : Bool) (hes : inLine = true ∨ b₁.Never es₂ (LaysOut c)) (t : Task) :
      putBy t c more <+: b₁.due t c inLine :=
    (List.prefix_append _ _).trans (putBy_prefix_due hg hs hcancelled h₂ hes t)
  refine ⟨hdue true (.inl rfl), ⟨fun hshuts t d hd hc hstate => ?_, fun hsilent => ?_⟩,
    fun hnever => shutsOut_of_prefix_due (hdue false (.inr hnever))⟩
  · by_contra hne
    obtain ⟨d', left, hd', -, hstate', -⟩ := hshuts t hne
    obtain rfl := Option.some.inj (hd.symm.trans hd')
    rw [hstate] at hstate'
    cases hstate'
  · refine shutsOut_of_prefix_due fun t => ?_
    by_cases hline : ∃ d, b₁.delivery? t = some d ∧ d.target = c ∧ d.state = .inLine
    · obtain ⟨d, hd, hc, hstate⟩ := hline
      rw [hsilent t d hd hc hstate]
      exact List.nil_prefix
    · -- Of a frame that is not in line the same is due either way.
      have hsame : b₁.due t c true = b₁.due t c false := by
        rcases hd : b₁.delivery? t with _ | d
        · rw [due_of_none hd, due_of_none hd]
        rw [due_of_delivery hd, due_of_delivery hd]
        split_ifs with hc
        · rcases hstate : d.state with _ | _ | left
          · rw [Delivery.due, Delivery.due, hstate]
          · exact absurd ⟨d, hd, hc, hstate⟩ hline
          · rw [Delivery.due, Delivery.due, hstate]
        · rfl
      rw [← hsame]
      exact hdue true (.inl rfl) t

/-- Two frames are on their way to a session when it is closed: one inside the turnstile, which is
being pushed, and one in line behind it. -/
def closing : List Event :=
  let connect : Bytes := [0x10, 13, 0, 4, 0x4d, 0x51, 0x54, 0x54, 4, 2, 0, 60, 0, 1, 0x73]
  [.input (.opens "s" 16), .input (.peerWrites 0 connect)] ++ answering 0 ++
    [.input (.writesPacket 0 0 .pingResp), .move (.task (.host 0) (.send .enter)),
      .move (.task (.host 0) (.send .layOut)), .input (.writesPacket 1 0 .pingResp),
      .move (.task (.host 1) (.send .enter)), .input (.closes 0)]

/-- The first one is given up, and the second one gets to write. -/
def belated : List Event :=
  [.move (.task (.host 0) (.send .giveUp)), .move (.task (.host 1) (.send .layOut)),
    .move (.task (.host 1) (.send .push))]

/-- The session takes a frame whose writing has begun after the session was closed. -/
theorem not_shutsOut_belated :
    ∃ b₁ seen₁ s b₂ more, (start 1000 0).replay closing = some (b₁, seen₁) ∧
      b₁.session? 0 = some s ∧ b₁.isCancelled s = true ∧ b₁.replay belated = some (b₂, more) ∧
      putBy (.host 1) 0 more = [0xd0, 0] ∧ ¬ShutsOut 0 b₁ more := by
  have hend : ((start 1000 0).replay closing).bind (fun r => (r.1.replay belated).map fun r' =>
      ((r.1.session? 0).map r.1.isCancelled,
        (r.1.delivery? (.host 1)).map fun d => (d.target, d.state),
        putBy (.host 1) 0 r'.2)) = some (some true, some (0, .inLine), [0xd0, 0]) := by
    decide +kernel
  obtain ⟨⟨b₁, seen₁⟩, h₁, hend⟩ := Option.bind_eq_some_iff.1 hend
  obtain ⟨⟨b₂, more⟩, h₂, hend⟩ := Option.map_eq_some_iff.1 hend
  obtain ⟨hcancelled, hend⟩ := Prod.mk.inj hend
  obtain ⟨hdelivery, hput⟩ := Prod.mk.inj hend
  obtain ⟨s, hs, hcancelled⟩ := Option.map_eq_some_iff.1 hcancelled
  obtain ⟨d, hd, hinLine⟩ := Option.map_eq_some_iff.1 hdelivery
  obtain ⟨htarget, hstate⟩ := Prod.mk.inj hinLine
  refine ⟨b₁, seen₁, s, b₂, more, h₁, hs, hcancelled, h₂, hput, ?_⟩
  rw [(shutsOut_iff h₁ hs hcancelled h₂).2.1]
  intro hsilent
  have hnothing := hsilent (.host 1) d hd htarget hstate
  rw [show putBy (.host 1) 0 more = [0xd0, 0] from hput] at hnothing
  cases hnothing

end Broker
end Mqtt
