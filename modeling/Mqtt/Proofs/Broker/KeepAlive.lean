import Mqtt.Proofs.Broker.Membership
import Mqtt.Proofs.Broker.Quiescence
import Mqtt.Proofs.Packet.Faults
/-!
# How long a session waits for its client

A client promises in its CONNECT to be heard every so many seconds (`Frame.keepAlive?`), and its
session waits for half as long again. What counts is how long the task of the connection has had
nothing to do: since it has last done something other than to take bytes (`lastStirred`). So the
bytes of a frame that is not whole do not begin the waiting anew, and the time in which the task
answers or forwards is none of it.

`Proceeds` lists where the task can stand after a move, and the two things that are followed through
a run are read off it: since when the task waits (`lastStirred_of_reading`), and where the result of
a connection comes from (`concluded_of_replay`). Of all the reasons to end a session, only that it
is overdue is a timeout (`Quits.expired`), for what can be wrong with what a client has sent never
is. `punctual_of_replay` puts this together, and adds that no session is overdue when no task can
move.
-/

namespace Mqtt

/-- The keep-alive that the client promises in the CONNECT that its frames begin with. -/
def Frame.keepAlive? (frames : List Frame) : Option UInt16 :=
  frames.head?.bind fun f => (Broker.greet f).toOption.map fun accepted => accepted.2.keepAlive

theorem Frame.keepAlive?_append {frames : List Frame} {k : UInt16} (h : keepAlive? frames = some k)
    (more : List Frame) : keepAlive? (frames ++ more) = some k := by
  cases frames with
  | nil => cases h
  | cons f rest => exact h

theorem Frame.keepAlive?_singleton {f : Frame} {v : Version} {p : Connect}
    (h : Broker.greet f = .ok (v, p)) : keepAlive? [f] = some p.keepAlive := by
  rw [keepAlive?, List.head?_cons, Option.bind_some, h]
  rfl

theorem Fault.IsBreach.ne_timeout {f : Fault} (h : f.IsBreach) : f.kind ≠ .timeout := by
  rcases h with h | h <;> simp [h]

namespace Conn

variable {k : Conn}

/-- The task waits for the first frame, or for the next one of its session. -/
def Listens (k : Conn) : Prop :=
  k.phase = .greeting ∨ ∃ since s, k.phase = .reading since ∧ k.session = some s

theorem Listens.waits (h : k.Listens) : k.Waits :=
  h.imp_right fun ⟨since, _, hphase, _⟩ => ⟨since, hphase⟩

theorem Listens.not_isRefused (h : k.Listens) : ¬k.IsRefused := by
  rintro ⟨hnone, hgreeting⟩
  rcases h with hphase | ⟨since, s, -, hs⟩
  · exact hgreeting hphase
  · rw [hnone] at hs
    cases hs

end Conn

theorem Session.patienceFor_eq_some {k : UInt16} {limit : Nat} :
    patienceFor k = some limit ↔ k ≠ 0 ∧ limit = 1500 * k.toNat := by
  rw [patienceFor]
  split_ifs with h
  · simp [h]
  · rw [Option.some.injEq, Nat.mul_comm, eq_comm]
    exact (and_iff_right h).symm

namespace Broker

variable {b b' b₁ : Broker} {c d : ConnId} {t : Task} {m : Move} {e : Event} {es es' : List Event}
  {k : Conn} {s : Session} {r : Except Fault Unit} {f f' : Fault} {since : Nat} {φ : Phase}
  {seen seen₁ more : List Observation}

/-! ### What the client has promised -/

/-- Who has a session now has had it before, or it has just been opened. -/
theorem Enrols.session_or_opened (h : Enrols b b' e) (hj : Joins b b' e)
    (hs : (b'.session? c).isSome = true) :
    (b.session? c).isSome = true ∨ ∃ k f a v p, e = .move (.task (.conn c) .dispatch) ∧
      b.conns[c]? = some k ∧ k.phase = .greeting ∧ k.assembler.next = .ok (some (f, a)) ∧
      greet f = .ok (v, p) ∧ b'.session? c = some (b.newSession v p) := by
  cases h with
  | stays hregistry _ => exact .inl (hj.session_of_length_le (by rw [hregistry]) hs)
  | goes _ hregistry _ =>
    refine .inl (hj.session_of_length_le ?_ hs)
    rw [hregistry]
    exact List.length_erase_le
  | @comes d k f a v p hk hphase _ hframe hgreet hsession hregistry _ =>
    rcases hj.session_or_mem hs with hold | ⟨-, hadded⟩
    · exact .inl hold
    · obtain rfl : d = c := by simpa [hregistry] using hadded
      exact .inr ⟨k, f, a, v, p, rfl, hk, hphase, hframe, hgreet, hsession⟩

/-- A session is as patient as its client has promised to be heard. -/
theorem exists_keepAlive_of_replay {maxPacketSize now : Nat}
    (h : (start maxPacketSize now).replay es = some (b, seen)) (hs : b.session? c = some s) :
    ∃ k, Frame.keepAlive? (framesRead c (start maxPacketSize now) es) = some k ∧
      s.patience = Session.patienceFor k := by
  refine replay_induction (P := fun es b _ => ∀ s, b.session? c = some s →
    ∃ k, Frame.keepAlive? (framesRead c (start maxPacketSize now) es) = some k ∧
      s.patience = Session.patienceFor k) (fun s hs => by cases hs) ?_ h s hs
  intro es e b₁ seen₁ b₂ more hrun hnext ih s hs
  have hg := (exclusive_of_replay hrun).1.greets
  rw [framesRead_concat hrun hnext]
  rcases (next?_enrols hg hnext).session_or_opened (next?_joins hg hnext) (by rw [hs]; rfl) with
    hold | ⟨k, f, a, v, p, rfl, hk, hphase, hframe, hgreet, hsession⟩
  · obtain ⟨s₁, hs₁⟩ := Option.isSome_iff_exists.1 hold
    obtain ⟨s', hs', hsame⟩ := (next?_evolves hg hnext).exists_session hs₁
    obtain rfl := Option.some.inj (hs.symm.trans hs')
    obtain ⟨k, hk, hpatience⟩ := ih s₁ hs₁
    exact ⟨k, Frame.keepAlive?_append hk _, hsame.patience.trans hpatience⟩
  · -- Nothing has been taken before the first frame.
    have hanswered := answered_of_replay hrun c
    rw [phase?_of_conn hk, hphase] at hanswered
    obtain rfl := Option.some.inj (hs.symm.trans hsession)
    rw [hanswered.1, List.nil_append, framesTaken_dispatch hk, frame?_of_greeting hphase hframe]
    exact ⟨p.keepAlive, Frame.keepAlive?_singleton hgreet, rfl⟩

/-! ### Since when a session waits -/

/-- The task of a connection does something other than to take bytes. -/
def stirs (c : ConnId) : Event → Bool
  | .move (.task (.conn d) m) => d = c && m ≠ .receive
  | _ => false

/-- When the task of a connection has last done something other than to take bytes. -/
def lastStirred (c : ConnId) (b : Broker) (es : List Event) : Option Nat :=
  (machine.collect (fun b e _ _ => if stirs c e then [b.now] else []) b es).getLast?

theorem lastStirred_concat (h : b.replay es = some (b₁, seen))
    (hnext : b₁.next? e = some (b', more)) :
    lastStirred c b (es ++ [e]) = if stirs c e then some b₁.now else lastStirred c b es := by
  rw [lastStirred, lastStirred, Machine.collect_concat h hnext]
  split_ifs
  · exact List.getLast?_concat
  · rw [List.append_nil]

theorem Sends.now {d : Delivery} {m : SendMove} {r : Sending ⊕ Except Fault Unit}
    (h : Sends b t d m b' r seen) : b'.now = b.now := by
  cases h with
  | intro _ _ _ _ => rfl

theorem Forwards.now {stopped : Bool} {o : FanOut} {r : FanOut ⊕ Nat}
    (h : Forwards b t stopped o m b' r seen) : b'.now = b.now := by
  cases h with
  | exhausts _ _ | passes _ _ _ | reaches _ _ _ | stops _ _ => rfl
  | goesOn _ hsends | delivers _ hsends => exact hsends.now
  | fails _ hsends => split_ifs <;> exact hsends.now

/-- Where the task of a connection stands after a move, in view of the time and of its result. -/
inductive Proceeds (b : Broker) (c : ConnId) (k : Conn) (m : Move) : Phase → Prop
  /-- It waits for the first frame. -/
  | greets : Proceeds b c k m .greeting
  /-- It has taken bytes, and waits as before. -/
  | receives {since : Nat} : m = .receive → k.phase = .reading since →
    Proceeds b c k m (.reading since)
  /-- It is done with everything else, and waits from now on. -/
  | waits : m ≠ .receive → Proceeds b c k m (.reading b.now)
  | answers {d : Delivery} {after : AfterReply} : Proceeds b c k m (.replying d after)
  | forwards {p : Publish} {o : FanOut} : Proceeds b c k m (.forwarding p o)
  | quits {r : Except Fault Unit} : Quits c b (.move (.task (.conn c) m)) r →
    Proceeds b c k m (.closing r)
  | closes {r : Except Fault Unit} : k.phase = .closing r → Proceeds b c k m (.shutting r)
  | shuts {r : Except Fault Unit} : k.phase = .shutting r →
    Proceeds b c k m (.over (settle r))
  | refuses {f : Fault} : k.phase = .greeting → Refuses b k m f →
    Proceeds b c k m (.over (settle (.error f)))

theorem Handles.proceeds {f : Frame} {a : Assembler} {p : Packet} {since : Nat}
    (hk : b.conns[c]? = some k) (hphase : k.phase = .reading since) (hs : k.session = some s)
    (hnext : k.assembler.next = .ok (some (f, a))) (hdecode : Packet.decode s.version f = .ok p)
    (h : Handles (b.takeFrame c a) c s f p b') :
    ∃ φ, b'.phase? c = some φ ∧ Proceeds b c k .dispatch φ := by
  have htake : (b.takeFrame c a).conns[c]? = some { k with assembler := a } :=
    conns_modifyConn_self hk
  cases h with
  | unexpected =>
    exact ⟨_, phase?_finish htake, .quits (.repeats hk hphase hs hnext hdecode)⟩
  | invalid hvalid =>
    exact ⟨_, phase?_finish htake, .quits (.misnames hk hphase hs hnext hdecode hvalid)⟩
  | disconnects =>
    exact ⟨_, phase?_finish htake, .quits (.disconnects hk hphase hs hnext hdecode)⟩
  | acknowledges _ _ | releases | pings => exact ⟨_, phase?_setPhase _ htake, .answers⟩
  | subscribes | unsubscribes =>
    exact ⟨_, phase?_setPhase _ (conns_modifySession_self htake), .answers⟩
  | forwards _ _ => exact ⟨_, phase?_setPhase _ htake, .forwards⟩
  | ignores _ => exact ⟨_, phase?_readOn htake, .waits nofun⟩

theorem Forwards.ne_receive {stopped : Bool} {o : FanOut} {r : FanOut ⊕ Nat}
    (h : Forwards b t stopped o m b' r seen) : m ≠ .receive := by
  cases h with
  | _ => nofun

/-- **Where the task of a connection stands after a move.** -/
theorem Serves.proceeds (hk : b.conns[c]? = some k) (h : Serves b c k m b' seen) :
    ∃ φ, b'.phase? c = some φ ∧ Proceeds b c k m φ := by
  have htake {a : Assembler} : (b.takeFrame c a).conns[c]? = some { k with assembler := a } :=
    conns_modifyConn_self hk
  have hstays {bs : Bytes} {up : Pipe} {φ : Phase} (hphase : k.phase = φ) :
      (b.takeBytes c bs up).phase? c = some φ :=
    phase?_eq_some.2 ⟨_, conns_modifyConn_self hk, hphase⟩
  cases h with
  | greets hphase _ _ => exact ⟨_, hstays hphase, .greets⟩
  | refuses hphase hrefuses =>
    exact ⟨_, phase?_of_conn (conns_modifyConn_self hk), .refuses hphase hrefuses⟩
  | opens _ _ _ => exact ⟨_, phase?_openSession htake, .answers⟩
  | reads hphase _ _ _ => exact ⟨_, hstays hphase, .receives rfl hphase⟩
  | handles hphase hs hnext hdecode => exact (handles_handle _).proceeds hk hphase hs hnext hdecode
  | undecodable hphase hs hnext hdecode =>
    exact ⟨_, phase?_finish htake, .quits (.undecodable hk hphase hs hnext hdecode)⟩
  | ends hphase hs hends => exact ⟨_, phase?_finish hk, .quits (.givesUp hk hphase hs hends)⟩
  | answers _ _ hsends =>
    obtain ⟨k₁, hk₁⟩ := hsends.evolves.exists_conn hk
    exact ⟨_, phase?_setPhase _ hk₁, .answers⟩
  | answerFails hphase hs hsends =>
    obtain ⟨k₁, hk₁⟩ := hsends.evolves.exists_conn hk
    exact ⟨_, phase?_finish hk₁, .quits (.fails hk hphase hs hsends)⟩
  | @answered _ after _ m₁ b₁ _ _ _ hsends =>
    obtain ⟨k₁, hk₁⟩ := hsends.evolves.exists_conn hk
    -- The deadline is set anew whenever the task begins to wait, at the time that it is then.
    have hreads : ∃ φ, (b₁.readOn c).phase? c = some φ ∧ Proceeds b c k (.send m₁) φ := by
      refine ⟨_, phase?_readOn hk₁, ?_⟩
      rw [hsends.now]
      exact .waits nofun
    cases after with
    | announce | read => exact hreads
    | forward p f => exact ⟨_, phase?_setPhase _ hk₁, .forwards⟩
  | forwards _ _ hforwards =>
    obtain ⟨k₁, hk₁⟩ := hforwards.evolves.exists_conn hk
    exact ⟨_, phase?_setPhase _ hk₁, .forwards⟩
  | forwarded _ _ hforwards =>
    obtain ⟨k₁, hk₁⟩ := hforwards.evolves.exists_conn hk
    refine ⟨_, phase?_readOn hk₁, ?_⟩
    rw [hforwards.now]
    exact .waits hforwards.ne_receive
  | closes hphase _ =>
    exact ⟨_, phase?_setPhase _ (conns_modifySession_self hk), .closes hphase⟩
  | shuts hphase _ _ => exact ⟨_, phase?_of_conn (conns_modifyConn_self hk), .shuts hphase⟩

theorem exists_of_stirs (h : stirs c e = true) : ∃ m, e = .move (.task (.conn c) m) := by
  unfold stirs at h
  split at h
  · next d m =>
    rw [Bool.and_eq_true, decide_eq_true_eq] at h
    exact ⟨m, by rw [h.1]⟩
  · cases h

/-- The task of a connection proceeds, or stays where it stands. -/
theorem proceeds_of_next {maxPacketSize now : Nat}
    (hrun : (start maxPacketSize now).replay es = some (b, seen))
    (hnext : b.next? e = some (b', more)) (hφ : b'.phase? c = some φ) :
    (∃ m k, e = .move (.task (.conn c) m) ∧ b.conns[c]? = some k ∧ Proceeds b c k m φ) ∨
      stirs c e = false ∧ (b.phase? c = some φ ∨ φ = .greeting) := by
  by_cases hown : ∃ m, e = .move (.task (.conn c) m)
  · obtain ⟨m, rfl⟩ := hown
    obtain ⟨k, hk, hserves⟩ := serves_of_connStep hnext
    obtain ⟨φ', hφ', hproceeds⟩ := hserves.proceeds hk
    obtain rfl := Option.some.inj (hφ.symm.trans hφ')
    exact .inl ⟨m, k, rfl, hk, hproceeds⟩
  · refine .inr ⟨?_, ?_⟩
    · rw [← Bool.not_eq_true]
      exact fun h => hown (exists_of_stirs h)
    rcases turns_of_replay hrun hnext c with ⟨m, -, -, -, -, rfl, -⟩ | hleaves
    · exact absurd ⟨m, rfl⟩ hown
    · rcases hleaves.phase with hsame | ⟨-, hgreeting⟩
      · exact .inl (hsame.symm.trans hφ)
      · exact .inr (Option.some.inj (hφ.symm.trans hgreeting))

/-- **A session waits since its task has last done something else.** -/
theorem lastStirred_of_reading {maxPacketSize now : Nat}
    (h : (start maxPacketSize now).replay es = some (b, seen))
    (hφ : b.phase? c = some (.reading since)) :
    lastStirred c (start maxPacketSize now) es = some since := by
  refine replay_induction (P := fun es b _ => ∀ since, b.phase? c = some (.reading since) →
    lastStirred c (start maxPacketSize now) es = some since) (fun _ hφ => by cases hφ) ?_ h since hφ
  intro es e b₁ seen₁ b₂ more hrun hnext ih since hφ
  rw [lastStirred_concat hrun hnext]
  rcases proceeds_of_next hrun hnext hφ with ⟨m, k, rfl, hk, hproceeds⟩ | ⟨hothers, hsame⟩
  · cases hproceeds with
    | receives hm hphase =>
      subst hm
      rw [if_neg (by simp [stirs])]
      exact ih since (phase?_eq_some.2 ⟨k, hk, hphase⟩)
    | waits hm => rw [if_pos (by simp [stirs, hm])]
  · rw [if_neg (by simp [hothers])]
    exact ih since (hsame.resolve_right nofun)

/-! ### How a connection comes to its result -/

/-- The loop that serves a session has ended in a run with this result. -/
def HasQuit (c : ConnId) (b : Broker) (es : List Event) (r : Except Fault Unit) : Prop :=
  ∃ es₁ e b₁ seen₁, es₁ ++ [e] <+: es ∧ b.replay es₁ = some (b₁, seen₁) ∧ Quits c b₁ e r

theorem HasQuit.mono (h : HasQuit c b es r) (hp : es <+: es') : HasQuit c b es' r := by
  obtain ⟨es₁, e, b₁, seen₁, hp₁, hrun, hquits⟩ := h
  exact ⟨es₁, e, b₁, seen₁, hp₁.trans hp, hrun, hquits⟩

/-- A connection has been refused in a run with this result. -/
def HasRefused (c : ConnId) (b : Broker) (es : List Event) (r : Except Fault Unit) : Prop :=
  ∃ es₁ m b₁ seen₁ k f, es₁ ++ [.move (.task (.conn c) m)] <+: es ∧
    b.replay es₁ = some (b₁, seen₁) ∧ b₁.conns[c]? = some k ∧ k.phase = .greeting ∧
    Refuses b₁ k m f ∧ r = settle (.error f)

theorem HasRefused.mono (h : HasRefused c b es r) (hp : es <+: es') : HasRefused c b es' r := by
  obtain ⟨es₁, m, b₁, seen₁, k, f, hp₁, h⟩ := h
  exact ⟨es₁, m, b₁, seen₁, k, f, hp₁.trans hp, h⟩

/-- Where the result of a connection comes from, once there is one. -/
def Concluded (c : ConnId) (b : Broker) (es : List Event) : Phase → Prop
  | .closing r | .shutting r => HasQuit c b es r
  -- A connection without a session has been refused.
  | .over r => (∃ r', HasQuit c b es r' ∧ r = settle r') ∨ HasRefused c b es r
  | _ => True

theorem Concluded.mono (h : Concluded c b es φ) (hp : es <+: es') : Concluded c b es' φ := by
  unfold Concluded at h ⊢
  split at h
  · exact h.mono hp
  · exact h.mono hp
  · refine h.imp ?_ fun hrefused => hrefused.mono hp
    rintro ⟨r', hquit, rfl⟩
    exact ⟨r', hquit.mono hp, rfl⟩
  · trivial

theorem settle_eq_error : settle r = .error f ↔ r = .error f ∧ f.isDisconnect = false := by
  rcases r with f' | ⟨⟩
  · rw [settle]
    split_ifs with horderly
    · refine iff_of_false nofun ?_
      rintro ⟨⟨⟩, hf⟩
      rw [horderly] at hf
      cases hf
    · rw [Except.error.injEq, and_iff_left_of_imp]
      rintro rfl
      simpa using horderly
  · exact iff_of_false nofun nofun

/-- A connection is refused without a fault, or for what the client has sent. -/
theorem Refuses.isBreach (h : Refuses b k m f) (hr : settle (.error f) = .error f') :
    f'.IsBreach := by
  obtain rfl := Except.error.inj (settle_eq_error.1 hr).1
  cases h with
  | ended _ _ | cancelled _ => cases hr
  | malformed hnext => exact k.assembler.next_blames _ hnext
  | unwelcome _ hgreet => exact greet_blames _ _ hgreet

/-- **A result is that of the loop that has served the session**, or the connection has been
refused. -/
theorem concluded_of_replay {maxPacketSize now : Nat}
    (h : (start maxPacketSize now).replay es = some (b, seen)) (hφ : b.phase? c = some φ) :
    Concluded c (start maxPacketSize now) es φ := by
  refine replay_induction (P := fun es b _ => ∀ φ, b.phase? c = some φ →
    Concluded c (start maxPacketSize now) es φ) (fun _ hφ => by cases hφ) ?_ h φ hφ
  intro es e b₁ seen₁ b₂ more hrun hnext ih φ hφ
  have hp : es <+: es ++ [e] := List.prefix_append _ _
  rcases proceeds_of_next hrun hnext hφ with ⟨m, k, rfl, hk, hproceeds⟩ | ⟨-, hsame | rfl⟩
  · have hbefore := ih _ (phase?_of_conn hk)
    cases hproceeds with
    | quits hquits => exact ⟨es, _, b₁, seen₁, List.prefix_refl _, hrun, hquits⟩
    | closes hphase =>
      rw [hphase] at hbefore
      exact HasQuit.mono hbefore hp
    | shuts hphase =>
      rw [hphase] at hbefore
      exact .inl ⟨_, HasQuit.mono hbefore hp, rfl⟩
    | refuses hphase hrefuses =>
      exact .inr ⟨es, m, b₁, seen₁, k, _, List.prefix_refl _, hrun, hk, hphase, hrefuses, rfl⟩
    | _ => trivial
  · exact (ih φ hsame).mono hp
  · trivial

/-- A session can lay out the answer that it is at. -/
theorem exists_frame_of_replying {maxPacketSize now : Nat} {d : Delivery} {after : AfterReply}
    (h : (start maxPacketSize now).replay es = some (b, seen))
    (hφ : b.phase? c = some (.replying d after)) : ∃ bs, d.frame = .ok bs := by
  have hanswered := answered_of_replay h c
  rw [hφ] at hanswered
  obtain ⟨-, -, hlast, -⟩ := hanswered
  have hmem : d.frame ∈ Frame.replies (framesRead c (start maxPacketSize now) es) := by
    rw [hlast]
    exact List.mem_append_right _ (List.mem_singleton_self _)
  exact Frame.exists_bytes_of_mem_replies (fun f hf => length_body_of_mem_framesRead h hf) hmem

/-- **No other reason to end a session is a timeout.** -/
theorem Quits.expired (h : Quits c b e (.error f)) (hf : f.kind = .timeout)
    (hframe : ∀ d after, b.phase? c = some (.replying d after) → ∃ bs, d.frame = .ok bs) :
    e = .move (.task (.conn c) .expire) ∧ ∃ k s since limit, b.conns[c]? = some k ∧
      k.phase = .reading since ∧ k.session = some s ∧ s.patience = some limit ∧
      since + limit ≤ b.now ∧ isStarved k = true ∧ f = .keepAliveExpired limit := by
  generalize hr : (.error f : Except Fault Unit) = r at h
  cases h with
  | disconnects _ _ _ _ _ => cases hr
  | repeats _ _ _ _ _ =>
    cases hr
    -- The other reasons are breaches of the rules, and a breach is no timeout.
    exact absurd hf (Violation.isBreach _).ne_timeout
  | misnames _ _ _ _ _ hvalid =>
    cases hr
    exact absurd hf (Topic.validate_blames _ _ hvalid).ne_timeout
  | undecodable _ _ _ _ hdecode =>
    cases hr
    exact absurd hf (Packet.decode_blames _ _ _ hdecode).ne_timeout
  | @givesUp k s since m f' hk hphase hs hends =>
    cases hr
    cases hends with
    | ended _ _ | cancelled _ => cases hf
    | malformed hnext => exact absurd hf (k.assembler.next_blames _ hnext).ne_timeout
    | @expired limit hpatience hlate hstarved =>
      exact ⟨rfl, k, s, since, limit, hk, hphase, hs, hpatience, hlate, hstarved, rfl⟩
  | @fails k s d after m b' f' seen hk hphase hs hsends =>
    cases hr
    -- A write that fails is a broken pipe or a cancellation, for the answer can be laid out.
    obtain ⟨-, -, -, -, hfault | ⟨rfl, -⟩ | ⟨rfl, -⟩⟩ := hsends.cause
    · obtain ⟨bs, hbs⟩ := hframe d after (phase?_eq_some.2 ⟨k, hk, hphase⟩)
      rw [hbs] at hfault
      cases hfault
    · cases hf
    · cases hf

/-! ### What has come while a task listens -/


theorem isStarved_iff : isStarved k = true ↔
    k.assembler.next = .ok none ∧ k.link.up.isDry = true := by
  unfold isStarved
  split
  · next h => simp [h]
  · next h => exact iff_of_false nofun fun h' => h h'.1

/-- A task that has nothing to take has taken every frame that has come. -/
theorem framesRead_of_starved {maxPacketSize now : Nat}
    (h : (start maxPacketSize now).replay es = some (b, seen)) (hk : b.conns[c]? = some k)
    (hlistens : k.Listens) (hstarved : isStarved k = true) :
    framesRead c (start maxPacketSize now) es =
      (Frame.split maxPacketSize (arrived c ((start maxPacketSize now).history es))).1 := by
  obtain ⟨hnext, hdry⟩ := isStarved_iff.1 hstarved
  have hread := (hasRead_of_replay h c).read k hk
  obtain ⟨front, behind, harrived, hsplit, hrest⟩ := hread.taken
  have hmax : b.maxPacketSize = maxPacketSize := (replay_evolves (greets_start _ _) h).maxPacketSize
  -- No frame begins in what is left, for all of it has been looked at.
  have hleft : k.rest = k.assembler.buffer.toList := by
    rw [Pipe.isDry, Bool.and_eq_true, ByteQueue.isEmpty_iff] at hdry
    rw [Conn.rest, Assembler.rest_of_retired (hread.steady hlistens.waits), hdry.1, List.append_nil]
  have hnone : Frame.split maxPacketSize behind = ([], behind) := by
    rw [hrest hlistens.not_isRefused, hleft]
    refine Frame.split_of_none ?_
    rw [← hmax, ← hread.limit]
    exact Assembler.look_of_next_eq_none hnext
  rw [hmax] at hsplit
  rw [harrived, Frame.split_append, hsplit, List.nil_append, hnone, List.append_nil]

/-- A task that listens can move if there is something to take. -/
theorem isSome_connStep_of_listens (hk : b.conns[c]? = some k) (hlistens : k.Listens) :
    (k.assembler.next ≠ .ok none → (b.connStep c .dispatch).isSome = true) ∧
      (k.assembler.next = .ok none → k.link.up.read readSize ≠ .nothing →
        (b.connStep c .receive).isSome = true) := by
  constructor
  · intro hne
    rcases hnext : k.assembler.next with e | _ | ⟨f, a⟩
    · -- What is in front is malformed: the task stops at it.
      rcases hlistens with hphase | ⟨since, s, hphase, hs⟩
      · simp [connStep, hk, hphase, hnext]
      · simp [connStep, hk, hphase, hs, hnext]
    · exact absurd hnext hne
    · -- A frame is in front. It is taken, whatever the version makes of it.
      rcases hlistens with hphase | ⟨since, s, hphase, hs⟩
      · rcases hgreet : greet f with e | p <;> simp [connStep, hk, hphase, hnext, hgreet]
      · rcases hdecode : Packet.decode s.version f with e | p <;>
          simp [connStep, hk, hphase, hs, hnext, hdecode]
  · intro hnext hne
    -- No frame is in front, but there are bytes in the pipe, or its end.
    have hreceive : ∃ r, b.receive c k = some r := by
      rcases hread : k.link.up.read readSize with _ | _ | ⟨bs, up⟩
      · exact absurd hread hne
      · simp [receive, hnext, hread]
      · simp [receive, hnext, hread]
    obtain ⟨⟨b', _ | f⟩, hreceive⟩ := hreceive <;>
      rcases hlistens with hphase | ⟨since, s, hphase, hs⟩
    · simp [connStep, hk, hphase, hreceive]
    · simp [connStep, hk, hphase, hs, hreceive]
    · simp [connStep, hk, hphase, hreceive]
    · simp [connStep, hk, hphase, hs, hreceive]

/-- A task that listens when no task can move has nothing to take. -/
theorem Quiescent.isStarved (h : b.Quiescent) (hk : b.conns[c]? = some k) (hlistens : k.Listens) :
    isStarved k = true := by
  obtain ⟨hdispatch, hreceive⟩ := isSome_connStep_of_listens hk hlistens
  have hstuck (m : Move) : ¬(b.connStep c m).isSome = true := h.not_isSome (.task (.conn c) m)
  rw [isStarved_iff]
  have hnext : k.assembler.next = .ok none := by
    by_contra hne
    exact hstuck .dispatch (hdispatch hne)
  have hread : k.link.up.read readSize = .nothing := by
    by_contra hne
    exact hstuck .receive (hreceive hnext hne)
  obtain ⟨hempty, hopen⟩ := Pipe.unread_of_nothing hread
  exact ⟨hnext, by simp [Pipe.isDry, (ByteQueue.isEmpty_iff _).2 hempty, hopen]⟩

/-! ### The whole of it -/

/-- A session waits for a frame for half as long again as its client has promised to be heard, or
for longer. -/
structure Overdue (c : ConnId) (b₀ : Broker) (es : List Event) (b : Broker) (k : UInt16) :
    Prop where
  registered : c ∈ b.registry
  promised : Frame.keepAlive? (framesRead c b₀ es) = some k
  ne_zero : k ≠ 0
  waits : ∃ since, b.phase? c = some (.reading since) ∧ lastStirred c b₀ es = some since ∧
    since + 1500 * k.toNat ≤ b.now

/-- What a session does about the silence of its client in a run. -/
structure Punctual (c : ConnId) (b₀ : Broker) (es : List Event) (b : Broker)
    (seen : List Observation) : Prop where
  /-- A session waits for a frame since its task has last done anything but take bytes: neither the
  bytes of a frame that is not whole nor the time in which the task is at something else count. -/
  since : ∀ since, b.phase? c = some (.reading since) → lastStirred c b₀ es = some since
  /-- If a timeout is reported of a connection, the loop that served its session has ended so. -/
  ended : ∀ f, .ended c (.error f) ∈ seen → f.kind = .timeout → HasQuit c b₀ es (.error f)
  /-- It does so only if the client has promised to be heard, the session is overdue, and every
  whole frame that has come by then has been taken. -/
  quits : ∀ es₁ e b₁ seen₁ f, es₁ ++ [e] <+: es → b₀.replay es₁ = some (b₁, seen₁) →
    Quits c b₁ e (.error f) → f.kind = .timeout →
    e = .move (.task (.conn c) .expire) ∧ ∃ k, Overdue c b₀ es₁ b₁ k ∧
      f = .keepAliveExpired (1500 * k.toNat) ∧
      framesRead c b₀ es₁ = (Frame.split b₀.maxPacketSize (arrived c (b₀.history es₁))).1
  /-- When no task can move, no session is overdue. -/
  prompt : b.Quiescent → ∀ k, ¬Overdue c b₀ es b k

theorem result?_eq_some : b.result? c = some r ↔ b.phase? c = some (.over r) := by
  refine ⟨fun h => ?_, fun h => result?_of_phase h⟩
  obtain ⟨φ, hφ, hresult⟩ := Option.bind_eq_some_iff.1 h
  unfold Phase.result? at hresult
  split at hresult
  · cases hresult
    exact hφ
  · cases hresult

theorem over_of_ended {maxPacketSize now : Nat}
    (h : (start maxPacketSize now).replay es = some (b, seen)) (hr : .ended c r ∈ seen) :
    b.phase? c = some (.over r) := by
  have hmem : .ended c r ∈ reports c seen := List.mem_filter.2 ⟨hr, by simp [Observation.client?]⟩
  rw [(told_of_replay h c).account, ended_mem_account] at hmem
  exact result?_eq_some.1 hmem

/-- The loop that serves a session ends with a timeout only if the session is overdue. -/
theorem overdue_of_quits {maxPacketSize now : Nat}
    (h : (start maxPacketSize now).replay es = some (b, seen)) (hquits : Quits c b e (.error f))
    (hf : f.kind = .timeout) :
    e = .move (.task (.conn c) .expire) ∧ ∃ k, Overdue c (start maxPacketSize now) es b k ∧
      f = .keepAliveExpired (1500 * k.toNat) ∧
      framesRead c (start maxPacketSize now) es =
        (Frame.split maxPacketSize (arrived c ((start maxPacketSize now).history es))).1 := by
  obtain ⟨rfl, k, s, since, limit, hk, hphase, hs, hpatience, hlate, hstarved, rfl⟩ :=
    hquits.expired hf fun _ _ => exists_frame_of_replying h
  have hreading : b.phase? c = some (.reading since) := phase?_eq_some.2 ⟨k, hk, hphase⟩
  obtain ⟨keepAlive, hpromised, hpatience'⟩ :=
    exists_keepAlive_of_replay h (session?_eq_some.2 ⟨k, hk, hs⟩)
  obtain ⟨hne, rfl⟩ := Session.patienceFor_eq_some.1 (hpatience'.symm.trans hpatience)
  refine ⟨rfl, keepAlive, ⟨?_, hpromised, hne, since, hreading, ?_, hlate⟩, rfl, ?_⟩
  · exact (attends_of_replay h c).registry.2 ⟨_, hreading, rfl⟩
  · exact lastStirred_of_reading h hreading
  · exact framesRead_of_starved h hk (.inr ⟨since, s, hphase, hs⟩) hstarved

/-- When no task can move, no session is overdue. -/
theorem Quiescent.not_overdue {maxPacketSize now : Nat} {keepAlive : UInt16}
    (hquiescent : b.Quiescent) (h : (start maxPacketSize now).replay es = some (b, seen)) :
    ¬Overdue c (start maxPacketSize now) es b keepAlive := by
  intro hoverdue
  obtain ⟨since, hreading, -, hlate⟩ := hoverdue.waits
  obtain ⟨s, hsession⟩ :=
    Option.isSome_iff_exists.1 ((attends_of_replay h c).session _ hreading rfl)
  obtain ⟨k, hk, hs⟩ := session?_eq_some.1 hsession
  have hphase : k.phase = .reading since :=
    Option.some.inj ((phase?_of_conn hk).symm.trans hreading)
  obtain ⟨keepAlive', hpromised, hpatience⟩ := exists_keepAlive_of_replay h hsession
  obtain rfl := Option.some.inj (hpromised.symm.trans hoverdue.promised)
  rw [Session.patienceFor_eq_some.2 ⟨hoverdue.ne_zero, rfl⟩] at hpatience
  refine hquiescent.not_isSome (.task (.conn c) .expire) ?_
  show (b.connStep c .expire).isSome = true
  simp [connStep, hk, hphase, hs, hpatience, hlate,
    hquiescent.isStarved hk (.inr ⟨since, s, hphase, hs⟩)]

/-- **A session times out when it has waited long enough, and never before.** In every run of a
broker, of every connection: a timeout is reported only of a session that has promised to be heard
and whose task has waited for half as long again without a whole frame, and whenever no task can
move, no such session is left. -/
theorem punctual_of_replay {maxPacketSize now : Nat}
    (h : (start maxPacketSize now).replay es = some (b, seen)) (c : ConnId) :
    Punctual c (start maxPacketSize now) es b seen where
  since _ := lastStirred_of_reading h
  ended f hended hf := by
    rcases concluded_of_replay h (over_of_ended h hended) with
      ⟨r, hquit, hr⟩ | ⟨es₁, m, b₁, seen₁, k, f', -, -, -, -, hrefuses, hr⟩
    · rw [(settle_eq_error.1 hr.symm).1] at hquit
      exact hquit
    · exact absurd hf (hrefuses.isBreach hr.symm).ne_timeout
  quits _ _ _ _ _ _ hrun hquits hf := overdue_of_quits hrun hquits hf
  prompt hquiescent _ := hquiescent.not_overdue h

/-- A client that has promised to be heard every second sends half a PINGREQ and then nothing. -/
def silentClient : List Event :=
  let connect : Bytes := [0x10, 13, 0, 4, 0x4d, 0x51, 0x54, 0x54, 4, 2, 0, 1, 0, 1, 0x73]
  let moves (ms : List Move) : List Event := ms.map fun m => .move (.task (.conn 0) m)
  [.input (.opens "s" 64), .input (.peerWrites 0 connect)] ++ answering 0 ++
    [.input (.elapses 1000), .input (.peerWrites 0 [0xc0])] ++ moves [.receive] ++
    [.input (.elapses 500)] ++ moves [.expire, .close, .shut]

/-- Its session times out half a second later. -/
theorem punctual_silentClient :
    ∃ b seen, (start 1000 0).replay silentClient = some (b, seen) ∧
      Punctual 0 (start 1000 0) silentClient b seen ∧ b.Quiescent ∧
      .ended 0 (.error (.keepAliveExpired 1500)) ∈ seen := by
  have hend : ((start 1000 0).replay silentClient).map
      (fun r => (decide r.1.Quiescent, r.1.result? 0)) =
        some (true, some (.error (.keepAliveExpired 1500))) := by
    decide +kernel
  obtain ⟨⟨b, seen⟩, hrun, hb⟩ := Option.map_eq_some_iff.1 hend
  obtain ⟨hquiescent, hover⟩ := Prod.mk.inj hb
  exact ⟨b, seen, hrun, punctual_of_replay hrun 0, of_decide_eq_true hquiescent,
    (attends_of_replay hrun 0).ended _ (result?_eq_some.1 hover)⟩

end Broker
end Mqtt
