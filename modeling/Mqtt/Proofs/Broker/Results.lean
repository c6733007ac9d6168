import Mqtt.Proofs.Broker.KeepAlive
/-!
# The result of a connection

A connection is served to an orderly end if its client keeps to the rules (`Frame.Obeys`) and is
heard in time: it says DISCONNECT, or no more comes from it, or a token is cancelled. The error that
is reported otherwise says which of the two it was.

There is one more way to an error. That the client is gone is an orderly end only where the task
learns of it by reading. If it learns of it by writing an answer (`BreaksAnswer`), then what is
reported is the failed write, whatever the client has sent. `returns_iff` says that this is the only
exception, and that it always is one.

A result is traced back to the moment at which the session was ended or the connection refused
(`concluded_of_replay`). What has come by then is the beginning of all that ever comes, so a client
that keeps to the rules in the whole run has kept to them at that moment.
-/

namespace Mqtt

/-- What a running session allows its client to send. -/
def Packet.IsAllowed : Packet → Prop
  | .connect _ => False
  | .publish p => Topic.validate p.topic = .ok ()
  | _ => True

namespace Frame

variable {limit : Nat} {bs bs' : Bytes} {frames frames' : List Frame} {f : Frame} {v : Version}

/-- The first frame is a CONNECT that can be accepted, and the others are what the session that it
opens allows. -/
def Allowed : List Frame → Prop
  | [] => True
  | f :: more => ∃ v p, Broker.greet f = .ok (v, p) ∧
    ∀ g ∈ more, ∃ q, Packet.decode v g = .ok q ∧ q.IsAllowed

/-- What a client sends that keeps to the rules: frames that are allowed, and behind them at most
the beginning of one. -/
structure Obeys (limit : Nat) (bs : Bytes) : Prop where
  allowed : Allowed (split limit bs).1
  wellFormed : ∀ e, look limit (split limit bs).2 ≠ .error e

/-- A DISCONNECT is among the frames. -/
def Parts (frames : List Frame) : Prop :=
  ∃ f more v p, frames = f :: more ∧ Broker.greet f = .ok (v, p) ∧
    ∃ g ∈ more, Packet.decode v g = .ok .disconnect

theorem Allowed.of_prefix (h : Allowed frames') (hp : frames <+: frames') : Allowed frames := by
  obtain ⟨more, rfl⟩ := hp
  cases frames with
  | nil => trivial
  | cons f frames =>
    obtain ⟨v, p, hgreet, hall⟩ := h
    exact ⟨v, p, hgreet, fun g hg => hall g (List.mem_append_left _ hg)⟩

/-- Whoever keeps to the rules in the end has always kept to them. -/
theorem Obeys.of_prefix (h : Obeys limit bs') (hp : bs <+: bs') : Obeys limit bs := by
  obtain ⟨more, rfl⟩ := hp
  obtain ⟨hallowed, hformed⟩ := h
  rw [split_append] at hallowed hformed
  refine ⟨hallowed.of_prefix (List.prefix_append _ _), fun e he => ?_⟩
  have hmore := look_append_of_error he more
  rw [split_of_error hmore] at hformed
  exact hformed e hmore

/-- The frame behind those that have opened a session and not ended it. -/
theorem Allowed.exists_decode (h : Allowed (frames ++ [f])) (hgoes : GoesOn v frames) :
    ∃ q, Packet.decode v f = .ok q ∧ q.IsAllowed := by
  obtain ⟨g, p, more, rfl, hg, -⟩ := hgoes
  obtain ⟨v', p', hg', hall⟩ := h
  obtain ⟨rfl, rfl⟩ := Prod.mk.inj (Except.ok.inj (hg.symm.trans hg'))
  exact hall f (List.mem_append_right _ (List.mem_singleton_self f))

theorem Allowed.exists_greet (h : Allowed [f]) : ∃ r, Broker.greet f = .ok r := by
  obtain ⟨v, p, hgreet, -⟩ := h
  exact ⟨_, hgreet⟩

/-- No DISCONNECT is among frames that have not ended a session. -/
theorem GoesOn.not_parts (h : GoesOn v frames) : ¬Parts frames := by
  rintro ⟨f, more, v', p', rfl, hf, g, hg, hdecode⟩
  obtain ⟨f', p, more', heq, hf', hmore⟩ := h
  obtain ⟨rfl, rfl⟩ := List.cons.inj heq
  obtain ⟨rfl, rfl⟩ := Prod.mk.inj (Except.ok.inj (hf.symm.trans hf'))
  refine hmore g hg ?_
  rw [response, hdecode]
  rfl

end Frame

namespace Broker

variable {b b' b₁ : Broker} {c : ConnId} {m : Move} {e : Event} {es es₁ : List Event} {k : Conn}
  {s : Session} {r : Except Fault Unit} {f : Fault} {since : Nat} {seen more : List Observation}

/-! ### What has come of a client that keeps to the rules -/

/-- What has come by some moment is the beginning of what comes. -/
theorem arrived_isPrefix (h : b.replay es = some (b', seen)) (hp : es₁ <+: es) :
    arrived c (b.history es₁) <+: arrived c (b.history es) := by
  refine replay_induction (P := fun es _ _ => es₁ <+: es →
    arrived c (b.history es₁) <+: arrived c (b.history es)) (fun hp => ?_) ?_ h hp
  · rw [List.prefix_nil.1 hp]
  · intro es e b₁ seen₁ b₂ more hrun hnext ih hp
    rcases List.prefix_concat_iff.1 hp with rfl | hp
    · exact List.prefix_refl _
    · rw [history_concat hrun hnext, arrived_append]
      exact (ih hp).trans (List.prefix_append _ _)

/-- What a task that listens finds in front of it, if the client keeps to the rules: nothing that is
no frame, and no frame that is not allowed. -/
theorem allowed_of_next {maxPacketSize now : Nat}
    (h : (start maxPacketSize now).replay es = some (b, seen)) (hk : b.conns[c]? = some k)
    (hlistens : k.Listens)
    (hobeys : Frame.Obeys maxPacketSize (arrived c ((start maxPacketSize now).history es))) :
    (∀ e, k.assembler.next ≠ .error e) ∧ ∀ f a, k.assembler.next = .ok (some (f, a)) →
      Frame.Allowed (framesRead c (start maxPacketSize now) es ++ [f]) := by
  have hread := (hasRead_of_replay h c).read k hk
  rw [show b.maxPacketSize = maxPacketSize from
    (replay_evolves (greets_start _ _) h).maxPacketSize] at hread
  obtain ⟨front, behind, harrived, hsplit, hrest⟩ := hread.taken
  -- What the task has in front of it is the rest of what has come.
  obtain rfl := hrest hlistens.not_isRefused
  have hpending := hread.steady hlistens.waits
  rw [harrived] at hobeys
  obtain ⟨hallowed, hformed⟩ := hobeys
  rw [Frame.split_append, hsplit, List.nil_append] at hallowed hformed
  refine ⟨fun e hnext => ?_, fun f a hnext => ?_⟩
  · have hlook : Frame.look maxPacketSize k.rest = .error e := by
      rw [Conn.rest, Assembler.rest_of_retired hpending, ← hread.limit]
      -- More bytes do not mend what is malformed.
      exact Frame.look_append_of_error (Assembler.look_of_next_eq_error hnext) _
    rw [Frame.split_of_error hlook] at hformed
    exact hformed e hlook
  · obtain ⟨n, hlook, -, -⟩ := Conn.look_rest hpending hnext
    rw [hread.limit] at hlook
    rw [Frame.split_of_some hlook] at hallowed
    exact hallowed.of_prefix ⟨_, List.append_assoc _ [f] _⟩

/-- The packet in front of a session whose client keeps to the rules. -/
theorem exists_decode_of_obeys {maxPacketSize now : Nat} {f : Frame} {a : Assembler}
    (h : (start maxPacketSize now).replay es = some (b, seen)) (hk : b.conns[c]? = some k)
    (hphase : k.phase = .reading since) (hs : k.session = some s)
    (hnext : k.assembler.next = .ok (some (f, a)))
    (hobeys : Frame.Obeys maxPacketSize (arrived c ((start maxPacketSize now).history es))) :
    ∃ q, Packet.decode s.version f = .ok q ∧ q.IsAllowed := by
  have hlistens : k.Listens := .inr ⟨since, s, hphase, hs⟩
  have hanswered := answered_of_replay h c
  rw [phase?_of_conn hk, hphase, session?_of_conn hk, hs] at hanswered
  obtain ⟨v, hv, hgoes, -⟩ := hanswered
  obtain rfl := Option.some.inj hv
  exact ((allowed_of_next h hk hlistens hobeys).2 f a hnext).exists_decode hgoes

/-! ### Why a connection ends with an error -/

/-- The task of a connection finds its stream closed when it writes an answer. -/
def BreaksAnswer (c : ConnId) (b : Broker) (e : Event) : Prop :=
  ∃ k d after left, e = .move (.task (.conn c) (.send .push)) ∧ b.conns[c]? = some k ∧
    k.phase = .replying d after ∧ d.state = .pushing left ∧ k.link.down.closed = true

/-- **Why the loop that serves a session ends with an error**, if the end is not an orderly one. -/
theorem Quits.cause {maxPacketSize now : Nat}
    (h : (start maxPacketSize now).replay es = some (b, seen)) (hquits : Quits c b e (.error f)) :
    f.isDisconnect = true ∨
      f.IsBreach ∧ ¬Frame.Obeys maxPacketSize (arrived c ((start maxPacketSize now).history es)) ∨
      f.kind = .timeout ∧ e = .move (.task (.conn c) .expire) ∨
      f = brokenPipe ∧ BreaksAnswer c b e := by
  generalize hr : (.error f : Except Fault Unit) = r at hquits
  cases hquits with
  | disconnects _ _ _ _ _ => cases hr
  | repeats hk hphase hs hnext hdecode =>
    cases hr
    refine .inr (.inl ⟨Violation.isBreach _, fun hobeys => ?_⟩)
    -- The packet in front is one that the rules allow, and this is none.
    obtain ⟨q, hq, hallowed⟩ := exists_decode_of_obeys h hk hphase hs hnext hobeys
    rw [hdecode] at hq
    cases hq
    exact hallowed
  | misnames hk hphase hs hnext hdecode hvalid =>
    cases hr
    refine .inr (.inl ⟨Topic.validate_blames _ _ hvalid, fun hobeys => ?_⟩)
    obtain ⟨q, hq, hallowed⟩ := exists_decode_of_obeys h hk hphase hs hnext hobeys
    rw [hdecode] at hq
    cases hq
    rw [Packet.IsAllowed, hvalid] at hallowed
    cases hallowed
  | undecodable hk hphase hs hnext hdecode =>
    cases hr
    refine .inr (.inl ⟨Packet.decode_blames _ _ _ hdecode, fun hobeys => ?_⟩)
    obtain ⟨q, hq, -⟩ := exists_decode_of_obeys h hk hphase hs hnext hobeys
    rw [hdecode] at hq
    cases hq
  | @givesUp k s since m f' hk hphase hs hends =>
    cases hr
    cases hends with
    | ended _ _ | cancelled _ => exact .inl rfl
    | malformed hnext =>
      refine .inr (.inl ⟨k.assembler.next_blames _ hnext, fun hobeys => ?_⟩)
      exact (allowed_of_next h hk (.inr ⟨since, s, hphase, hs⟩) hobeys).1 _ hnext
    | expired _ _ _ => exact .inr (.inr (.inl ⟨rfl, rfl⟩))
  | @fails k s d after m b' f' seen hk hphase hs hsends =>
    cases hr
    have hφ : b.phase? c = some (.replying d after) := phase?_eq_some.2 ⟨k, hk, hphase⟩
    obtain ⟨k', s', hk', -, hfault | ⟨rfl, -⟩ | ⟨rfl, hclosed, rfl, left, hstate⟩⟩ := hsends.cause
    · -- What a session answers can be laid out, so the frame is not at fault.
      obtain ⟨bs, hbs⟩ := exists_frame_of_replying h hφ
      rw [hbs] at hfault
      cases hfault
    · exact .inl rfl
    · -- The stream that is closed is that of its own client.
      rw [(attends_of_replay h c).target d after hφ, hk] at hk'
      obtain rfl := Option.some.inj hk'
      exact .inr (.inr (.inr ⟨rfl, k, d, after, left, rfl, hk, hphase, hstate, hclosed⟩))

/-- A connection is refused with an error only for what the client has sent. -/
theorem Refuses.cause {maxPacketSize now : Nat}
    (h : (start maxPacketSize now).replay es = some (b, seen)) (hk : b.conns[c]? = some k)
    (hphase : k.phase = .greeting) (hrefuses : Refuses b k m f) :
    f.isDisconnect = true ∨ f.IsBreach ∧
      ¬Frame.Obeys maxPacketSize (arrived c ((start maxPacketSize now).history es)) := by
  cases hrefuses with
  | ended _ _ | cancelled _ => exact .inl rfl
  | malformed hnext =>
    refine .inr ⟨k.assembler.next_blames _ hnext, fun hobeys => ?_⟩
    exact (allowed_of_next h hk (.inl hphase) hobeys).1 _ hnext
  | @unwelcome g a e hnext hgreet =>
    refine .inr ⟨greet_blames _ _ hgreet, fun hobeys => ?_⟩
    have hallowed := (allowed_of_next h hk (.inl hphase) hobeys).2 g a hnext
    have hanswered := answered_of_replay h c
    rw [phase?_of_conn hk, hphase] at hanswered
    rw [hanswered.1, List.nil_append] at hallowed
    obtain ⟨r, hr⟩ := hallowed.exists_greet
    rw [hgreet] at hr
    cases hr

/-- **Why an error is reported of a connection.** -/
theorem cause_of_ended {maxPacketSize now : Nat}
    (h : (start maxPacketSize now).replay es = some (b, seen))
    (hended : .ended c (.error f) ∈ seen) :
    f.IsBreach ∧ ¬Frame.Obeys maxPacketSize (arrived c ((start maxPacketSize now).history es)) ∨
      f.kind = .timeout ∧ .move (.task (.conn c) .expire) ∈ es ∨
      f = brokenPipe ∧ ¬(start maxPacketSize now).Never es (BreaksAnswer c) := by
  -- Who has broken the rules at some moment has broken them.
  have hbroken {es₁ : List Event} {e : Event} (hp : es₁ ++ [e] <+: es)
      (hnot : ¬Frame.Obeys maxPacketSize (arrived c ((start maxPacketSize now).history es₁))) :
      ¬Frame.Obeys maxPacketSize (arrived c ((start maxPacketSize now).history es)) :=
    fun hobeys => hnot (hobeys.of_prefix (arrived_isPrefix h ((List.prefix_append _ _).trans hp)))
  rcases concluded_of_replay h (over_of_ended h hended) with
    ⟨r, ⟨es₁, e, b₁, seen₁, hp, hrun, hquits⟩, hr⟩ |
    ⟨es₁, m, b₁, seen₁, k, f', hp, hrun, hk, hphase, hrefuses, hr⟩
  · obtain ⟨rfl, hf⟩ := settle_eq_error.1 hr.symm
    rcases hquits.cause hrun with horderly | ⟨hbreach, hnot⟩ | ⟨htimeout, rfl⟩ | ⟨rfl, hbreaks⟩
    · rw [hf] at horderly
      cases horderly
    · exact .inl ⟨hbreach, hbroken hp hnot⟩
    · exact .inr (.inl ⟨htimeout, hp.subset (by simp)⟩)
    · exact .inr (.inr ⟨rfl, fun hnever => hnever es₁ e b₁ seen₁ hp hrun hbreaks⟩)
  · obtain ⟨heq, hf⟩ := settle_eq_error.1 hr.symm
    obtain rfl := Except.error.inj heq
    rcases hrefuses.cause hrun hk hphase with horderly | ⟨hbreach, hnot⟩
    · rw [hf] at horderly
      cases horderly
    · exact .inl ⟨hbreach, hbroken hp hnot⟩

/-! ### What becomes of a failed answer -/

/-- A failed answer ends the session. -/
theorem BreaksAnswer.quits {maxPacketSize now : Nat} (hbreaks : BreaksAnswer c b e)
    (h : (start maxPacketSize now).replay es = some (b, seen)) :
    Quits c b e (.error brokenPipe) := by
  obtain ⟨k, d, after, left, rfl, hk, hphase, hstate, hclosed⟩ := hbreaks
  have hφ : b.phase? c = some (.replying d after) := phase?_eq_some.2 ⟨k, hk, hphase⟩
  have hattends := attends_of_replay h c
  obtain ⟨s, hs⟩ := hattends.exists_session hk (by rw [hphase]; rfl)
  have htarget := hattends.target d after hφ
  have hmoves : Outlet.Moves ⟨s.turnstile, k.link.down⟩ (.conn c) d.frame (b.isCancelled s) d.state
      .push ⟨Outlet.leave ⟨s.turnstile, k.link.down⟩ (.conn c), .inr (.error brokenPipe), []⟩ := by
    rw [hstate]
    exact .broken hclosed
  exact .fails hk hphase hs (.intro (htarget.symm ▸ hk) hs (by simp [hstate]) hmoves)

/-- The loop that serves a session leaves its task with the result. -/
theorem Quits.phase? {maxPacketSize now : Nat} (hquits : Quits c b e r)
    (h : (start maxPacketSize now).replay es = some (b, seen))
    (hnext : b.next? e = some (b', more)) : b'.phase? c = some (.closing r) := by
  obtain ⟨b₁, seen₁, -, hfinish⟩ := hquits.exists_finish
  obtain ⟨rfl, -⟩ := Prod.mk.inj (Option.some.inj (hfinish.symm.trans hnext))
  obtain ⟨s, hs⟩ := hquits.exists_session
  obtain ⟨s', hs', -⟩ := (next?_evolves (exclusive_of_replay h).1.greets hnext).exists_session hs
  rcases hk : b₁.conns[c]? with _ | k
  · simp [session?, finish, setPhase, cancelSession, modifySession, modifyConn, hk] at hs'
  · exact phase?_finish hk

/-- **The result of the loop stays**, until the stream is shut and it is settled. -/
theorem phase?_of_hasQuit {maxPacketSize now : Nat}
    (h : (start maxPacketSize now).replay es = some (b, seen))
    (hquit : HasQuit c (start maxPacketSize now) es r) :
    b.phase? c = some (.closing r) ∨ b.phase? c = some (.shutting r) ∨
      b.phase? c = some (.over (settle r)) := by
  refine replay_induction (P := fun es b _ => HasQuit c (start maxPacketSize now) es r →
    b.phase? c = some (.closing r) ∨ b.phase? c = some (.shutting r) ∨
      b.phase? c = some (.over (settle r))) ?_ ?_ h hquit
  · rintro ⟨es₁, e, -, -, hp, -⟩
    simp at hp
  · rintro es e b₁ seen₁ b₂ more hrun hnext ih ⟨es₁, e₁, b', seen', hp, hrun', hquits⟩
    rcases List.prefix_concat_iff.1 hp with heq | hp
    · -- The loop is left in this very event.
      obtain ⟨rfl, rfl⟩ := List.append_singleton_inj.1 heq
      obtain ⟨rfl, rfl⟩ := Prod.mk.inj (Option.some.inj (hrun.symm.trans hrun'))
      exact .inl (hquits.phase? hrun hnext)
    have hbefore := ih ⟨es₁, e₁, b', seen', hp, hrun', hquits⟩
    rcases turns_of_replay hrun hnext c with ⟨m, k, φ, f, a, rfl, hk, hφ, hturns, -⟩ | hleaves
    · rw [phase?_of_conn hk] at hbefore
      rw [hφ]
      generalize reports c more = heard at hturns
      -- It was left before. From then on the task closes and shuts, and every other turn belongs to
      -- another phase.
      cases hturns with
      | closes hphase _ =>
        obtain rfl : _ = r := by simpa [hphase] using hbefore
        exact .inr (.inl rfl)
      | shuts hphase _ _ =>
        obtain rfl : _ = r := by simpa [hphase] using hbefore
        exact .inr (.inr rfl)
      | goesOn howes _ _ | passes howes _ _ _ _ | answers howes _ _ _ _ | ends howes _ _ _ =>
        rcases hbefore with hat | hat | hat <;>
        · rw [Option.some.inj hat] at howes
          cases howes
      | waits hphase _ | refuses hphase _ _ | opens hphase _ _ _ _ | writes hphase _
      | fails hphase _ _ _ | announces hphase _ _ _ _ | answered hphase _ _ _ _ =>
        simp [hphase] at hbefore
    · rcases hleaves.phase with hsame | ⟨hnone, -⟩
      · rw [hsame]
        exact hbefore
      · simp [hnone] at hbefore

/-- **An answer that fails is what is reported.** -/
theorem eq_brokenPipe_of_ended {maxPacketSize now : Nat}
    (h : (start maxPacketSize now).replay es = some (b, seen)) (hended : .ended c r ∈ seen)
    (hbreaks : ¬(start maxPacketSize now).Never es (BreaksAnswer c)) :
    r = .error brokenPipe := by
  obtain ⟨es₁, e, b₁, seen₁, hp, hrun, hbreaks⟩ := Machine.not_never_iff.1 hbreaks
  have hphase := phase?_of_hasQuit h ⟨es₁, e, b₁, seen₁, hp, hrun, hbreaks.quits hrun⟩
  simpa [over_of_ended h hended, settle, brokenPipe, Fault.isDisconnect] using hphase

/-! ### When a connection comes to its end -/

/-- **A client that goes is not kept**, unless its task is held up by somebody who does not read. -/
theorem ended_of_going {maxPacketSize now : Nat}
    (h : (start maxPacketSize now).replay es = some (b, seen)) (hquiescent : b.Quiescent)
    (hk : b.conns[c]? = some k)
    (hgoes : k.link.up.closed = true ∨
      Frame.Parts (Frame.split maxPacketSize
        (arrived c ((start maxPacketSize now).history es))).1) :
    (∃ r, .ended c r ∈ seen) ∨ b.IsHeldUp (.conn c) := by
  have hattends := attends_of_replay h c
  have hφ := phase?_of_conn hk
  have hsession := hattends.exists_session hk
  -- A task that listens has taken all that has come, and more may come: so there was a DISCONNECT.
  have hparts (hlistens : k.Listens) :
      Frame.Parts (framesRead c (start maxPacketSize now) es) := by
    have hstarved := hquiescent.isStarved hk hlistens
    rw [framesRead_of_starved h hk hlistens hstarved]
    refine hgoes.resolve_left fun hclosed => ?_
    obtain ⟨-, hdry⟩ := isStarved_iff.1 hstarved
    rw [Pipe.isDry, hclosed] at hdry
    simp at hdry
  -- A session that has ended is to end.
  have hends (hserving : k.phase.isServing = false) (hending : k.phase.isEnding = true) :
      ∃ r, .ended c r ∈ seen := by
    obtain ⟨s, hs⟩ := hsession (by rw [hending, Bool.or_true])
    have hcancelled := cancelled_of_not_serving h hφ hserving ((session?_of_conn hk).trans hs)
    obtain ⟨r, -, hr⟩ :=
      exists_ended_of_quiescent h hquiescent hk (.inr (.inr ⟨s, hs, hcancelled⟩))
    exact ⟨r, hr⟩
  have hanswered := answered_of_replay h c
  rw [hφ] at hanswered
  cases hphase : k.phase with
  | greeting =>
    rw [hphase] at hanswered
    obtain ⟨f, more, v, p, heq, -⟩ := hparts (.inl hphase)
    rw [hanswered.1] at heq
    cases heq
  | reading since =>
    obtain ⟨s, hs⟩ := hsession (by rw [hphase]; rfl)
    rw [hphase] at hanswered
    obtain ⟨v, -, hgoesOn, -⟩ := hanswered
    exact absurd (hparts (.inr ⟨since, s, hphase, hs⟩)) hgoesOn.not_parts
  | replying d after =>
    refine .inr (isHeldUp_of_delivery (d := d) h hquiescent ?_)
    rw [delivery?_of_phase hk hphase]
    rfl
  | forwarding p o =>
    obtain ⟨s, hs⟩ := hsession (by rw [hphase]; rfl)
    rcases ho : o.current with _ | d
    · refine absurd ?_ (hquiescent.not_isSome (.task (.conn c) .reach))
      refine isSome_connStep_of_forwarding hk hphase hs ?_
      rcases hleft : o.left with _ | ⟨c', rest⟩ <;> simp [fanOutStep, ho, hleft]
    · refine .inr (isHeldUp_of_delivery (d := d) h hquiescent ?_)
      rw [delivery?_of_phase hk hphase]
      exact ho
  | closing r | shutting r => exact .inl (hends (by rw [hphase]; rfl) (by rw [hphase]; rfl))
  | _ => exact .inl ⟨_, hattends.ended _ (by rw [hφ, hphase])⟩

/-! ### The whole of it -/

/-- A client that keeps to the rules and is heard in time is served to an orderly end, however it
goes, and nothing but a breach of the rules or silence is an error. -/
structure Returns (c : ConnId) (b₀ : Broker) (es : List Event) (b : Broker)
    (seen : List Observation) : Prop where
  /-- The end is an orderly one if all that has come keeps to the rules and no patience has run
  out. -/
  orderly : Frame.Obeys b₀.maxPacketSize (arrived c (b₀.history es)) →
    .move (.task (.conn c) .expire) ∉ es → ∀ r, .ended c r ∈ seen → r = .ok ()
  /-- An error is a breach of the rules, or a timeout. -/
  only : ∀ f, .ended c (.error f) ∈ seen → f.IsBreach ∨ f.kind = .timeout
  /-- When no task can move, a connection that is to end has ended. -/
  stopped : b.Quiescent → ∀ k, b.conns[c]? = some k → b.IsToEnd k → ∃ r, .ended c r ∈ seen
  /-- So has one whose client has said DISCONNECT, or has closed its end, unless the task is held up
  by a stream that nobody reads. -/
  parted : b.Quiescent → ∀ k, b.conns[c]? = some k → k.link.up.closed = true ∨
    Frame.Parts (Frame.split b₀.maxPacketSize (arrived c (b₀.history es))).1 →
      (∃ r, .ended c r ∈ seen) ∨ b.IsHeldUp (.conn c)

/-- **When a connection comes to the result that it should have.** In every run of a broker, of
every connection: it does if and only if no answer has failed to be written because the client was
gone, or there is no result yet. Where one has failed, the failed write is reported. -/
theorem returns_iff {maxPacketSize now : Nat}
    (h : (start maxPacketSize now).replay es = some (b, seen)) (c : ConnId) :
    (Returns c (start maxPacketSize now) es b seen ↔
      ∀ r, .ended c r ∈ seen → (start maxPacketSize now).Never es (BreaksAnswer c)) ∧
    ∀ r, .ended c r ∈ seen → ¬(start maxPacketSize now).Never es (BreaksAnswer c) →
      r = .error brokenPipe := by
  refine ⟨⟨fun hreturns r hended => ?_, fun hnever => ⟨?_, ?_, ?_, ?_⟩⟩,
    fun r hended => eq_brokenPipe_of_ended h hended⟩
  · -- A broken pipe is neither a breach of the rules nor a timeout.
    by_contra hbreaks
    rw [eq_brokenPipe_of_ended h hended hbreaks] at hended
    rcases hreturns.only brokenPipe hended with (hkind | hkind) | hkind <;> cases hkind
  · intro hobeys hpunctual r hended
    rcases r with f | ⟨⟩
    · rcases cause_of_ended h hended with ⟨-, hnot⟩ | ⟨-, hexpires⟩ | ⟨-, hbreaks⟩
      · exact absurd hobeys hnot
      · exact absurd hexpires hpunctual
      · exact absurd (hnever _ hended) hbreaks
    · rfl
  · intro f hended
    rcases cause_of_ended h hended with ⟨hbreach, -⟩ | ⟨htimeout, -⟩ | ⟨-, hbreaks⟩
    · exact .inl hbreach
    · exact .inr htimeout
    · exact absurd (hnever _ hended) hbreaks
  · intro hquiescent k hk hend
    obtain ⟨r, -, hr⟩ := exists_ended_of_quiescent h hquiescent hk hend
    exact ⟨r, hr⟩
  · exact fun hquiescent k hk => ended_of_going h hquiescent hk

/-- A CONNECT. -/
def hastyConnect : Bytes := [0x10, 13, 0, 4, 0x4d, 0x51, 0x54, 0x54, 4, 2, 0, 0, 0, 1, 0x70]

/-- A client connects, and is gone before its CONNACK is written. -/
def hastyClient : List Event :=
  let moves (ms : List Move) : List Event := ms.map fun m => .move (.task (.conn 0) m)
  [.input (.opens "p" 64), .input (.peerWrites 0 hastyConnect)] ++ moves [.receive, .dispatch] ++
    [.input (.peerDrops 0)] ++ moves [.send .enter, .send .layOut, .send .push, .close, .shut]

theorem obeys_hastyConnect : Frame.Obeys 1000 hastyConnect := by
  have hlook : Frame.look 1000 hastyConnect = .ok (some (⟨0x10, hastyConnect.drop 2⟩, 15)) := by
    decide +kernel
  have hsplit : Frame.split 1000 hastyConnect = ([⟨0x10, hastyConnect.drop 2⟩], []) := by
    rw [Frame.split_of_some hlook, show hastyConnect.drop 15 = [] from rfl, Frame.split_nil]
  have hgreet : (greet ⟨0x10, hastyConnect.drop 2⟩).isOk = true := by
    decide +kernel
  refine ⟨?_, by rw [hsplit]; nofun⟩
  rw [hsplit]
  rcases hr : greet ⟨0x10, hastyConnect.drop 2⟩ with e | ⟨v, p⟩
  · rw [hr] at hgreet
    cases hgreet
  · exact ⟨v, p, hr, nofun⟩

/-- It has kept to the rules, and the failed CONNACK is reported all the same. -/
theorem not_returns_hastyClient :
    ∃ b seen, (start 1000 0).replay hastyClient = some (b, seen) ∧ b.Quiescent ∧
      Frame.Obeys 1000 (arrived 0 ((start 1000 0).history hastyClient)) ∧
      .move (.task (.conn 0) .expire) ∉ hastyClient ∧ .ended 0 (.error brokenPipe) ∈ seen ∧
      ¬Returns 0 (start 1000 0) hastyClient b seen ∧
      ¬(start 1000 0).Never hastyClient (BreaksAnswer 0) := by
  have hend : ((start 1000 0).replay hastyClient).map
      (fun r => (decide r.1.Quiescent, r.1.result? 0)) = some (true, some (.error brokenPipe)) := by
    decide +kernel
  have harrived : arrived 0 ((start 1000 0).history hastyClient) = hastyConnect := by
    decide +kernel
  obtain ⟨⟨b, seen⟩, hrun, hb⟩ := Option.map_eq_some_iff.1 hend
  obtain ⟨hquiescent, hover⟩ := Prod.mk.inj hb
  have hended : .ended 0 (.error brokenPipe) ∈ seen :=
    (attends_of_replay hrun 0).ended _ (result?_eq_some.1 hover)
  have hobeys : Frame.Obeys 1000 (arrived 0 ((start 1000 0).history hastyClient)) := by
    rw [harrived]
    exact obeys_hastyConnect
  have hpunctual : .move (.task (.conn 0) .expire) ∉ hastyClient := by simp [hastyClient]
  have hnot : ¬Returns 0 (start 1000 0) hastyClient b seen := fun hreturns =>
    nomatch hreturns.orderly hobeys hpunctual _ hended
  exact ⟨b, seen, hrun, of_decide_eq_true hquiescent, hobeys, hpunctual, hended, hnot,
    fun hnever => hnot ((returns_iff hrun 0).1.2 fun _ _ => hnever)⟩

end Broker
end Mqtt
