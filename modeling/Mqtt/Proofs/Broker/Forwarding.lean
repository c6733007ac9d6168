import Mqtt.Proofs.Broker.Latecomers
import Mqtt.Proofs.Broker.Registry
/-!
# What a task does that forwards a message

A task that forwards a message goes round the sessions that were registered when it began
(`exists_fanOut_of_next`). It looks at one after the other, and writes to those that want the
message then. So there are three things to note of its moves: at whom it looks (`lookOf`), to whom
it begins to write (`FanOut.attempt?`), and how a write ends (`outcomeOf`). They say how far a move
takes the message (`Forwards.progress`).

A move touches no session but the one that the message is at, and of that one only the stream,
unless that session is to blame for the failure of its write (`Touches`). Other tasks and the world
outside have no part in this: whatever they do, the task stays where it is, and nothing is put into
a stream in its name (`fanOut?_of_others`).
-/

namespace Mqtt

/-- The message that a task forwards. -/
def Work.spread? : Work → Option FanOut
  | single _ => none
  | spread o => some o

/-- The session that a message is at. -/
def FanOut.at? (o : FanOut) : Option ConnId := o.current.map Delivery.target

/-- The session to which a message is being written. -/
def FanOut.begun? (o : FanOut) : Option ConnId :=
  (o.current.filter fun d => d.state ≠ .starting).map Delivery.target

/-- The session to which a move of a forwarding begins to write. -/
def FanOut.attempt? (o : FanOut) (m : Move) : Option ConnId :=
  match o.current, m with
  | some d, .send _ => if d.state = .starting then some d.target else none
  | _, _ => none

/-- Of the frame that is delivered, these bytes have been put into the stream. -/
def Delivery.HasPut (d : Delivery) (put : Bytes) : Prop :=
  match d.state with
  | .starting | .inLine => put = []
  | .pushing left => d.frame = .ok (put ++ left)

namespace Broker

variable {b b' b₁ b₂ : Broker} {c d : ConnId} {t t' : Task} {m : Move} {e : Event} {o o' : FanOut}
  {r : FanOut ⊕ Nat} {stopped : Bool} {seen more : List Observation} {target blamed : Option ConnId}

/-- The message that a task forwards. -/
def fanOut? (b : Broker) (t : Task) : Option FanOut := (b.work? t).bind Work.spread?

/-- Whether the token is cancelled that a task looks at while it forwards a message: the one of its
session, or that of the broker. -/
def token (b : Broker) : Task → Bool
  | .conn c => (b.session? c).any b.isCancelled
  | .host _ => b.shutdown

/-- The connection of a session. -/
def link? (b : Broker) (c : ConnId) : Option Link := b.conns[c]?.map Conn.link

/-- At whom a move of a forwarding looks, and whether that session wants the message then. -/
def lookOf (b : Broker) (o : FanOut) (m : Move) : Option (ConnId × Bool) :=
  match o.current, m with
  | none, .reach => o.left.head?.map fun c => (c, b.isSubscribed c o.topic)
  | _, _ => none

/-- The write that a move of a forwarding ends, and how it ends. -/
def outcomeOf (b : Broker) (t : Task) (o : FanOut) (m : Move) :
    Option (ConnId × Except Fault Unit) :=
  match o.current, m with
  | some d, .send m =>
    (b.sendStep t d m).bind fun (_, r, _) => r.getRight?.map fun r => (d.target, r)
  | _, _ => none

/-- The session that is to blame for the failure of a write, and is told to end. -/
def culprit? : ConnId × Except Fault Unit → Option ConnId
  | (c, .error f) => if f.isDisconnect then none else some c
  | (_, .ok ()) => none

/-! ### The task itself -/

theorem work?_of_fanOut? (h : b.fanOut? t = some o) : b.work? t = some (.spread o) := by
  obtain ⟨w, hw, ho⟩ := Option.bind_eq_some_iff.1 h
  cases w with
  | single d => cases ho
  | spread o' =>
    cases ho
    exact hw

theorem fanOut?_of_work? {w : Option Work} (h : b.work? t = w) :
    b.fanOut? t = w.bind Work.spread? := by
  rw [fanOut?, h]

theorem fanOut?_congr (h : b'.work? t = b.work? t) : b'.fanOut? t = b.fanOut? t :=
  fanOut?_of_work? h

theorem fanOutStep_of_forwards (h : Forwards b t stopped o m b' r seen) :
    b.fanOutStep t stopped o m = some (b', r, seen) := by
  cases h with
  | exhausts hcurrent hleft => simp [fanOutStep, hcurrent, hleft]
  | passes hcurrent hleft hsub | reaches hcurrent hleft hsub =>
    simp [fanOutStep, hcurrent, hleft, hsub]
  | goesOn hcurrent hsends | delivers hcurrent hsends | fails hcurrent hsends =>
    simp [fanOutStep, hcurrent, sendStep_of_sends hsends]
  | stops hcurrent hstopped => simp [fanOutStep, hcurrent, hstopped]

/-- The task takes note of what a move of its forwarding has led to. -/
structure Resumes (b₁ b' : Broker) (t : Task) (r : FanOut ⊕ Nat) (seen more : List Observation) :
    Prop where
  fanOut : b'.fanOut? t = r.elim some fun _ => none
  shutdown : b'.shutdown = b₁.shutdown
  session : ∀ c, b'.session? c = b₁.session? c
  link : ∀ c, b'.link? c = b₁.link? c
  stream : ∀ c, streamOf c more = streamOf c seen
  answered : ∀ n k, r = .inr n → t = .host k → .answered k (.delivered n) ∈ more

theorem link?_modifyConn {f : Conn → Conn} : (b.modifyConn c f).link? d =
    if d = c then b.conns[d]?.map fun k => (f k).link else b.link? d := by
  rw [link?, conns_modifyConn]
  split_ifs with h
  · rw [Option.map_map]
    rfl
  · rfl

theorem link?_modifyConn_same {f : Conn → Conn} (hf : ∀ k, (f k).link = k.link) :
    (b.modifyConn c f).link? d = b.link? d := by
  rw [link?_modifyConn]
  simp only [hf, link?, ite_self]

/-- **A task that forwards a message moves by the rules of forwarding.** -/
theorem forwards_of_step (ho : b.fanOut? t = some o)
    (h : b.step (.task t m) = some (b', more)) :
    ∃ b₁ r seen, Forwards b t (b.token t) o m b₁ r seen ∧ Resumes b₁ b' t r seen more := by
  have hwork := work?_of_fanOut? ho
  cases step_cases h with
  | @conn c k _ _ _ hk hserves =>
    have hphase (phase : Phase) (h : k.phase = phase) : phase.work? = some (.spread o) :=
      (work?_of_phase hk h).symm.trans hwork
    have htoken {s : Session} (hs : k.session = some s) : b.token (.conn c) = b.isCancelled s := by
      rw [token, session?_eq_some.2 ⟨k, hk, hs⟩]
      rfl
    cases hserves with
    -- A session forwards what its client has published.
    | @forwards p o₁ o' s _ b₁ seen hp hs hforwards =>
      cases hphase _ hp
      obtain ⟨k₁, hk₁⟩ := hforwards.evolves.exists_conn hk
      refine ⟨b₁, .inl o', more, (htoken hs).symm ▸ hforwards, ?_, rfl, fun _ => session?_setPhase,
        fun _ => link?_modifyConn_same fun _ => rfl, fun _ => rfl, nofun⟩
      rw [fanOut?, work?_setPhase hk₁, if_pos rfl]
      rfl
    | @forwarded p o₁ s _ b₁ n seen hp hs hforwards =>
      cases hphase _ hp
      refine ⟨b₁, .inr n, seen, (htoken hs).symm ▸ hforwards, ?_, rfl, fun _ => session?_readOn,
        fun _ => link?_modifyConn_same fun _ => rfl, fun c' => ?_, nofun⟩
      · rw [fanOut?, work?_readOn, if_pos rfl]
        rfl
      · rw [streamOf_append]
        exact List.append_nil _
    -- In every other phase the task has no message to forward.
    | greets hp _ _ | reads hp _ _ _ | refuses hp _ | opens hp _ _ | handles hp _ _ _
    | undecodable hp _ _ _ | ends hp _ _ | answers hp _ _ | answerFails hp _ _ | answered hp _ _
    | closes hp _ | shuts hp _ _ => cases hphase _ hp
  | @host n call _ _ _ hcall hcalls =>
    have hcallWork : call.work? = some (.spread o) := (work?_of_call hcall).symm.trans hwork
    cases hcalls with
    | @publishes o₁ o' _ b₁ seen hforwards =>
      cases hcallWork
      obtain ⟨old, hold⟩ := exists_call_of_work? ((hforwards.work? (.host n)).trans hwork)
      refine ⟨b₁, .inl o', more, hforwards, ?_, rfl, fun _ => rfl, fun _ => rfl, fun _ => rfl,
        nofun⟩
      rw [fanOut?, work?_setCall hold, if_pos rfl]
      rfl
    | @published o₁ _ b₁ count seen hforwards =>
      cases hcallWork
      -- The call is answered with the number of sessions, and is gone.
      refine ⟨b₁, .inr count, seen, hforwards, ?_, rfl, fun _ => rfl, fun _ => rfl, fun c => ?_, ?_⟩
      · rw [fanOut?, work?_dropCall, if_pos rfl]
        rfl
      · rw [streamOf_append]
        exact List.append_nil _
      · rintro _ _ ⟨⟩ ⟨⟩
        exact List.mem_append_right _ (List.mem_singleton_self _)
    | writes _ | written _ | served _ => cases hcallWork

/-! ### Everything else -/

/-- A call that begins changes what a task has to do only if it makes the task. -/
theorem work?_of_addCall {n : Nat} {call : HostCall} :
    (b.addCall n call).work? t = b.work? t ∨
      b.work? t = none ∧ (b.addCall n call).work? t = call.work? := by
  by_cases hnew : t = .host n ∧ b.call? n = none
  · refine .inr ⟨?_, ?_⟩
    · rw [hnew.1, work?, hnew.2]
      rfl
    · rw [work?_addCall, if_pos hnew]
  · exact .inl (by rw [work?_addCall, if_neg hnew])

/-- An input changes what a task has to do only if it makes the task. And if that one forwards a
message, it begins with the sessions that are registered. -/
theorem Accepts.work? {i : BrokerInput} (h : Accepts b i b' seen) (t : Task) :
    b'.work? t = b.work? t ∨ b.work? t = none ∧ ∀ o,
      b'.work? t = some (.spread o) → ∃ topic f, o = b'.fanOut topic f := by
  cases h with
  | opens => exact .inl work?_addConn
  | links _ _ _ | cancels => exact .inl (work?_modifyConn_same fun _ => rfl)
  | closes => exact .inl work?_modifySession
  | shutsDown | elapses => exact .inl (work?_congr rfl rfl)
  | begins hrequests =>
    refine work?_of_addCall.imp_right fun ⟨hnone, hcall⟩ => ⟨hnone, fun o ho => ?_⟩
    rw [hcall] at ho
    cases hrequests with
    | @publishes _ topic _ f _ =>
      cases ho
      exact ⟨topic, f, rfl⟩
    | writesPacket _ | writesFrame _ => cases ho
  | serves _ => exact .inl work?_serve
  | declines _ => exact .inl rfl

/-- Who does not send puts nothing into a stream. -/
theorem Acts.streamOf (h : Acts b t .apart b' seen) : streamOf c seen = [] := by
  cases h with
  | rests _ _ hseen | begins _ _ _ hseen | leaves _ _ _ hseen => exact hseen c
  | enters _ _ _ => rfl

/-- Whoever else moves and whatever happens, a task stays with its message where it is, and nothing
is written in its name. -/
theorem fanOut?_of_others (hg : b.Greets) (h : b.next? e = some (b', more))
    (he : ∀ m, e ≠ .move (.task t m)) (ho : b.fanOut? t = some o) :
    b'.fanOut? t = some o ∧ ∀ c, putBy t c more = [] := by
  have hwork := work?_of_fanOut? ho
  have hgoal (hw : b'.work? t = some (.spread o)) : b'.fanOut? t = some o := fanOut?_of_work? hw
  cases e with
  | input i =>
    have haccepts := accepts_of_next h
    obtain ⟨t', heffect⟩ := haccepts.effect
    refine ⟨?_, fun c => putBy_of_streamOf heffect.acts.streamOf⟩
    rcases haccepts.work? t with hsame | ⟨hnone, -⟩
    · exact hgoal (hsame.trans hwork)
    · rw [hwork] at hnone
      cases hnone
  | move a =>
    -- Only the task that moves writes.
    have hput (t' : Task) (m : Move) (ha : a = .task t' m) (c : ConnId) :
        t ≠ t' ∧ putBy t c more = [] := by
      subst ha
      have hne : t ≠ t' := by
        rintro rfl
        exact he m rfl
      exact ⟨hne, (onlyBy_of_next h).putBy_of_ne hne⟩
    cases step_cases h with
    | @conn c k m _ _ hk hserves =>
      obtain ⟨lm, heffect, -⟩ := hserves.effect hg hk
      refine ⟨hgoal ?_, fun c' => (hput _ _ rfl c').2⟩
      rw [heffect.others t (hput _ _ rfl c).1, hwork]
    | @host n call m _ _ hcall hcalls =>
      obtain ⟨lm, heffect, -⟩ := hcalls.effect hcall
      refine ⟨hgoal ?_, fun c' => (hput _ _ rfl c').2⟩
      rw [heffect.others t (hput _ _ rfl 0).1, hwork]
    | relay _ _ _ _ => exact ⟨hgoal (work?_modifySession.trans hwork), fun _ => rfl⟩

/-! ### What is touched -/

/-- Of all sessions at most one is touched, and of that one at most the stream; and at most one is
told to end. -/
structure Touches (b b' : Broker) (target blamed : Option ConnId) : Prop where
  shutdown : b'.shutdown = b.shutdown
  others : ∀ c, target ≠ some c → b'.session? c = b.session? c ∧ b'.link? c = b.link? c
  filters : ∀ c, (b'.session? c).map Session.filters = (b.session? c).map Session.filters
  cancelled : ∀ c, (b'.session? c).map Session.cancelled =
    (b.session? c).map fun s => s.cancelled || blamed = some c

theorem Touches.refl (b : Broker) (target : Option ConnId) : b.Touches b target none where
  shutdown := rfl
  others _ _ := ⟨rfl, rfl⟩
  filters _ := rfl
  cancelled _ := by simp

theorem Touches.trans (h : b.Touches b₁ target none) (h' : b₁.Touches b₂ target blamed) :
    b.Touches b₂ target blamed where
  shutdown := h'.shutdown.trans h.shutdown
  others c hc :=
    ⟨(h'.others c hc).1.trans (h.others c hc).1, (h'.others c hc).2.trans (h.others c hc).2⟩
  filters c := (h'.filters c).trans (h.filters c)
  cancelled c := by
    have hsame := h.cancelled c
    simp only [reduceCtorEq, decide_false, Bool.or_false] at hsame
    rw [h'.cancelled c, ← Function.comp_def (· || decide (blamed = some c)) Session.cancelled,
      ← Option.map_map, hsame, Option.map_map]

/-- A session is changed at most in its turnstile and in being told to end. -/
theorem touches_modifyConn {f : Conn → Conn} {g : Session → Session} (blamed : Bool)
    (hf : ∀ k, (f k).session = k.session.map g) (hfilters : ∀ s, (g s).filters = s.filters)
    (hcancelled : ∀ s, (g s).cancelled = (s.cancelled || blamed)) :
    b.Touches (b.modifyConn c f) (some c) (if blamed then some c else none) where
  shutdown := rfl
  others d hd := by
    have hne : d ≠ c := fun h => hd (congrArg some h.symm)
    rw [session?_modifyConn, if_neg hne, link?_modifyConn, if_neg hne]
    exact ⟨rfl, rfl⟩
  filters d := by
    rw [session?_modifyConn]
    split_ifs with h
    · simp only [hf, session?, Option.bind_eq_bind, Option.map_bind, Function.comp_def,
        Option.map_map, hfilters]
    · rfl
  cancelled d := by
    rw [session?_modifyConn]
    split_ifs with h hblamed hblamed
    · subst h
      simp only [hf, session?, Option.bind_eq_bind, Option.map_bind, Function.comp_def,
        Option.map_map, hcancelled, hblamed, decide_true]
    · simp only [hf, session?, Option.bind_eq_bind, Option.map_bind, Function.comp_def,
        Option.map_map, hcancelled, hblamed, decide_false]
    · simp [Ne.symm h]
    · simp

theorem Sends.touches {dl : Delivery} {m : SendMove} {r : Sending ⊕ Except Fault Unit}
    (h : Sends b t dl m b' r seen) : b.Touches b' (some dl.target) none := by
  cases h with
  | intro _ _ _ _ =>
    exact touches_modifyConn false (fun _ => rfl) (fun _ => rfl) fun _ => by simp

theorem touches_cancelSession : b.Touches (b.cancelSession c) (some c) (some c) :=
  touches_modifyConn true (fun _ => rfl) (fun _ => rfl) fun _ => by simp

/-- How far a move takes a message: what is noted of it, the forwarding after it or the number that
is returned, and the bytes that the stream takes. -/
inductive Progress (b : Broker) (o : FanOut) : Option (ConnId × Bool) → Option ConnId →
    Option (ConnId × Except Fault Unit) → FanOut ⊕ Nat → Bytes → Prop
  | exhausts : o.current = none → o.left = [] → Progress b o none none none (.inr o.delivered) []
  | looks {c : ConnId} {rest : List ConnId} : o.current = none → o.left = c :: rest →
    Progress b o (some (c, b.isSubscribed c o.topic)) none none
      (.inl { o with
        left := rest
        current := if b.isSubscribed c o.topic then some ⟨c, o.frame, .starting⟩ else none }) []
  | goesOn {d : Delivery} {s : Sending} {bs : Bytes} : o.current = some d → s ≠ .starting →
    (∀ put, d.HasPut put → { d with state := s }.HasPut (put ++ bs)) →
    Progress b o none (if d.state = .starting then some d.target else none) none
      (.inl { o with current := some { d with state := s } }) bs
  | delivers {d : Delivery} {bs : Bytes} : o.current = some d →
    (∀ put, d.HasPut put → d.frame = .ok (put ++ bs)) →
    Progress b o none (if d.state = .starting then some d.target else none)
      (some (d.target, .ok ())) (.inl { o with delivered := o.delivered + 1, current := none }) bs
  | fails {d : Delivery} {f : Fault} : o.current = some d →
    Progress b o none (if d.state = .starting then some d.target else none)
      (some (d.target, .error f)) (.inl { o with current := none }) []
  | stops {d : Delivery} : o.current = some d →
    Progress b o none none none (.inr o.delivered) []

/-- What a move of a delivery puts into the stream is the next part of the frame. -/
theorem Sends.hasPut {d : Delivery} {m : SendMove} {r : Sending ⊕ Except Fault Unit} {put : Bytes}
    (h : Sends b t d m b' r seen) (hput : d.HasPut put) :
    (∀ s, r = .inl s → { d with state := s }.HasPut (put ++ streamOf d.target seen)) ∧
      (r = .inr (.ok ()) → d.frame = .ok (put ++ streamOf d.target seen)) := by
  cases h with
  | @intro k s sent _ _ _ hmoves =>
    rw [streamOf_wrote, if_pos rfl]
    rw [Delivery.HasPut] at hput
    generalize d.state = state at hmoves hput
    cases hmoves with
    | enter =>
      refine ⟨?_, nofun⟩
      rintro _ ⟨⟩
      exact (List.append_nil _).trans hput
    | layOut _ hframe =>
      -- Until it is laid out nothing of a frame has been written.
      obtain rfl : put = [] := hput
      refine ⟨?_, nofun⟩
      rintro _ ⟨⟩
      exact hframe
    | fault _ _ | broken _ | giveUpOutside _ | giveUpInLine _ | giveUpPushing _ =>
      exact ⟨nofun, nofun⟩
    | part hwrite _ =>
      refine ⟨?_, nofun⟩
      rintro _ ⟨⟩
      -- What the pipe takes is the front of what is left.
      rw [hput, ← Pipe.append_of_write hwrite, ← List.append_assoc]
      rfl
    | whole hwrite =>
      refine ⟨nofun, fun _ => ?_⟩
      rw [hput, ← Pipe.append_of_write hwrite, List.append_nil]

/-- Whoever goes on with a frame has begun to write it. -/
theorem Sends.ne_starting {d : Delivery} {m : SendMove} {s : Sending}
    (h : Sends b t d m b' (.inl s) seen) : s ≠ .starting := by
  generalize hr : (Sum.inl s : Sending ⊕ Except Fault Unit) = r at h
  cases h with
  | intro _ _ _ hmoves =>
    generalize d.state = state at hmoves
    cases hmoves <;> cases hr <;> nofun

theorem Sends.streamOf_of_ne {d : Delivery} {m : SendMove} {r : Sending ⊕ Except Fault Unit}
    (h : Sends b t d m b' r seen) (hc : d.target ≠ c) : streamOf c seen = [] := by
  cases h with
  | intro _ _ _ _ => rw [streamOf_wrote, if_neg hc]

/-- **What a move of a forwarding does.** It takes the message further, touches the session that the
message is at and no other, and tells it to end if it is to blame. -/
theorem Forwards.progress (h : Forwards b t stopped o m b' r seen) :
    ∃ bs, Progress b o (b.lookOf o m) (o.attempt? m) (b.outcomeOf t o m) r bs ∧
      (∀ c, streamOf c seen = if o.at? = some c then bs else []) ∧
      b.Touches b' o.at? ((b.outcomeOf t o m).bind culprit?) := by
  -- Of all streams only that of the session that the message is at takes anything.
  have hstream {d : Delivery} {m : SendMove} {b₁ : Broker} {r : Sending ⊕ Except Fault Unit}
      {seen : List Observation} (hcurrent : o.current = some d) (hsends : Sends b t d m b₁ r seen)
      (c : ConnId) : streamOf c seen = if o.at? = some c then streamOf d.target seen else [] := by
    simp only [FanOut.at?, hcurrent, Option.map_some, Option.some.injEq]
    split_ifs with hc
    · rw [hc]
    · exact hsends.streamOf_of_ne hc
  have hsilent (c : ConnId) : streamOf c [] = if o.at? = some c then [] else [] :=
    (ite_self _).symm
  have hlook {d : Delivery} {m : SendMove} (hcurrent : o.current = some d) :
      b.lookOf o (.send m) = none := by
    simp only [lookOf, hcurrent]
  have hattempt {d : Delivery} {m : SendMove} (hcurrent : o.current = some d) :
      o.attempt? (.send m) = if d.state = .starting then some d.target else none := by
    simp only [FanOut.attempt?, hcurrent]
  have houtcome {d : Delivery} {m : SendMove} {b₁ : Broker} {r : Sending ⊕ Except Fault Unit}
      {seen : List Observation} (hcurrent : o.current = some d) (hsends : Sends b t d m b₁ r seen) :
      b.outcomeOf t o (.send m) = r.getRight?.map fun r => (d.target, r) := by
    simp only [outcomeOf, hcurrent, sendStep_of_sends hsends, Option.bind_some]
  cases h with
  | exhausts hcurrent hleft =>
    have hnotes : b.lookOf o .reach = none ∧ o.attempt? .reach = none ∧
        b.outcomeOf t o .reach = none := by
      simp [lookOf, FanOut.attempt?, outcomeOf, hcurrent, hleft]
    rw [hnotes.1, hnotes.2.1, hnotes.2.2]
    exact ⟨[], .exhausts hcurrent hleft, hsilent, .refl b _⟩
  | @passes c _ hcurrent hleft hsub | @reaches c _ hcurrent hleft hsub =>
    have hnotes : b.lookOf o .reach = some (c, b.isSubscribed c o.topic) ∧
        o.attempt? .reach = none ∧ b.outcomeOf t o .reach = none := by
      simp [lookOf, FanOut.attempt?, outcomeOf, hcurrent, hleft]
    rw [hnotes.1, hnotes.2.1, hnotes.2.2]
    have hprogress := Progress.looks (b := b) hcurrent hleft
    rw [hsub] at hprogress ⊢
    exact ⟨[], hprogress, hsilent, .refl b _⟩
  | @goesOn d m _ _ _ hcurrent hsends =>
    rw [hlook hcurrent, hattempt hcurrent, houtcome hcurrent hsends]
    refine ⟨streamOf d.target seen, ?_, hstream hcurrent hsends, ?_⟩
    · exact .goesOn hcurrent hsends.ne_starting fun _ hput => (hsends.hasPut hput).1 _ rfl
    · rw [FanOut.at?, hcurrent]
      exact hsends.touches
  | @delivers d m _ _ hcurrent hsends =>
    rw [hlook hcurrent, hattempt hcurrent, houtcome hcurrent hsends]
    refine ⟨streamOf d.target seen, ?_, hstream hcurrent hsends, ?_⟩
    · exact .delivers hcurrent fun _ hput => (hsends.hasPut hput).2 rfl
    · rw [FanOut.at?, hcurrent]
      exact hsends.touches
  | @fails d m b₁ f _ hcurrent hsends =>
    rw [hlook hcurrent, hattempt hcurrent, houtcome hcurrent hsends]
    refine ⟨[], .fails hcurrent, fun c => ?_, ?_⟩
    · rw [ite_self, hsends.streamOf_of_error c]
    · rw [FanOut.at?, hcurrent]
      show b.Touches _ _ (if f.isDisconnect then none else some d.target)
      split_ifs
      · exact hsends.touches
      · exact hsends.touches.trans touches_cancelSession
  | @stops d hcurrent _ =>
    have hnotes : b.lookOf o .stop = none ∧ o.attempt? .stop = none ∧
        b.outcomeOf t o .stop = none := by
      simp [lookOf, FanOut.attempt?, outcomeOf, hcurrent]
    rw [hnotes.1, hnotes.2.1, hnotes.2.2]
    refine ⟨[], .stops hcurrent, hsilent, ?_⟩
    rw [FanOut.at?, hcurrent]
    exact touches_modifyConn false (fun _ => rfl) (fun _ => rfl) fun _ => by simp

theorem Touches.resumes (h : b.Touches b₁ target blamed) (h' : Resumes b₁ b' t r seen more) :
    b.Touches b' target blamed where
  shutdown := h'.shutdown.trans h.shutdown
  others c hc :=
    ⟨(h'.session c).trans (h.others c hc).1, (h'.link c).trans (h.others c hc).2⟩
  filters c := by rw [h'.session c, h.filters c]
  cancelled c := by rw [h'.session c, h.cancelled c]

/-- **What a move of a task that forwards a message does.** -/
theorem progress_of_step (ho : b.fanOut? t = some o)
    (h : b.step (.task t m) = some (b', more)) :
    ∃ b₁ r seen bs, Forwards b t (b.token t) o m b₁ r seen ∧
      Progress b o (b.lookOf o m) (o.attempt? m) (b.outcomeOf t o m) r bs ∧
      Resumes b₁ b' t r seen more ∧
      (∀ c, streamOf c more = if o.at? = some c then bs else []) ∧
      b.Touches b' o.at? ((b.outcomeOf t o m).bind culprit?) := by
  obtain ⟨b₁, r, seen, hforwards, hresumes⟩ := forwards_of_step ho h
  obtain ⟨bs, hprogress, hstream, htouches⟩ := hforwards.progress
  refine ⟨b₁, r, seen, bs, hforwards, hprogress, hresumes, fun c => ?_, htouches.resumes hresumes⟩
  rw [hresumes.stream c, hstream c]

/-! ### How a message begins its way -/

/-- A task that answers does not forward. -/
theorem not_spread_reply {k : Conn} {v : Version} {p : Packet} {after : AfterReply}
    (hk : b.conns[c]? = some k) : (b.reply c v p after).work? (.conn c) ≠ some (.spread o) := by
  intro hwork
  rw [reply, work?_setPhase hk, if_pos rfl] at hwork
  cases hwork

/-- A packet that is to be forwarded begins its way. -/
theorem Handles.exists_fanOut {s : Session} {f : Frame} {p : Packet} {k : Conn}
    (h : Handles b₁ c s f p b') (hk : b₁.conns[c]? = some k)
    (hwork : b'.work? (.conn c) = some (.spread o)) : ∃ topic f, o = b'.fanOut topic f := by
  cases h with
  | unexpected | invalid _ | disconnects =>
    rw [work?_finish, if_pos rfl] at hwork
    cases hwork
  | acknowledges _ _ | releases | pings => exact absurd hwork (not_spread_reply hk)
  | @forwards p _ _ =>
    rw [forward, work?_setPhase hk, if_pos rfl] at hwork
    cases hwork
    exact ⟨p.topic, f, rfl⟩
  | subscribes | unsubscribes => exact absurd hwork (not_spread_reply (conns_modifySession_self hk))
  | ignores _ =>
    rw [work?_readOn, if_pos rfl] at hwork
    cases hwork

/-- The task of a connection takes up a message. -/
theorem Serves.exists_fanOut {k : Conn} (hk : b.conns[c]? = some k) (h : Serves b c k m b' more)
    (hnone : b.fanOut? (.conn c) = none) (hwork : b'.work? (.conn c) = some (.spread o)) :
    ∃ topic f, o = b'.fanOut topic f := by
  -- Without a message before, one that is there now was begun in this move.
  have hidle (hsame : b'.work? (.conn c) = b.work? (.conn c)) : False := by
    rw [fanOut?, ← hsame, hwork] at hnone
    cases hnone
  have hfinish {b₁ : Broker} {result : Except Fault Unit} :
      (b₁.finish c result).work? (.conn c) ≠ some (.spread o) := by
    rw [work?_finish, if_pos rfl]
    nofun
  cases h with
  | greets _ _ _ | reads _ _ _ _ => exact (hidle work?_takeBytes).elim
  | refuses _ _ =>
    rw [refuse, work?_modifyConn, if_pos rfl, hk] at hwork
    cases hwork
  | @opens _ a v p _ _ _ =>
    let join (k : Conn) : Conn := { k with session := some ((b.takeFrame c a).newSession v p) }
    have hconn : ((b.takeFrame c a).modifyConn c join).conns[c]? =
        some (join { k with assembler := a }) :=
      conns_modifyConn_self (conns_modifyConn_self hk)
    exact absurd hwork (not_spread_reply hconn)
  | handles _ _ _ _ => exact (handles_handle _).exists_fanOut (conns_modifyConn_self hk) hwork
  | undecodable _ _ _ _ | ends _ _ _ | answerFails _ _ _ => exact absurd hwork hfinish
  | answers _ _ hsends =>
    obtain ⟨k₁, hk₁⟩ := hsends.evolves.exists_conn hk
    rw [work?_setPhase hk₁, if_pos rfl] at hwork
    cases hwork
  | @answered d after _ _ b₁ _ _ _ hsends =>
    obtain ⟨k₁, hk₁⟩ := hsends.evolves.exists_conn hk
    cases after with
    | announce | read =>
      rw [afterReply, work?_readOn, if_pos rfl] at hwork
      cases hwork
    | forward p f =>
      -- A PUBLISH at QoS 1 is forwarded after its PUBACK.
      rw [afterReply, forward, work?_setPhase hk₁, if_pos rfl] at hwork
      cases hwork
      exact ⟨p.topic, f, rfl⟩
  | forwards hphase _ _ | forwarded hphase _ _ =>
    -- There was a message already.
    rw [fanOut?, work?_of_phase hk hphase] at hnone
    cases hnone
  | closes _ _ =>
    rw [work?_setPhase (conns_modifySession_self hk), if_pos rfl] at hwork
    cases hwork
  | shuts _ _ _ =>
    rw [shutStream, work?_modifyConn, if_pos rfl, hk] at hwork
    cases hwork

/-- **A message begins its way with the sessions that are registered then**, and has been
nowhere. -/
theorem exists_fanOut_of_next (hg : b.Greets) (h : b.next? e = some (b', more))
    (hnone : b.fanOut? t = none) (ho : b'.fanOut? t = some o) :
    ∃ topic f, o = b'.fanOut topic f := by
  have hwork := work?_of_fanOut? ho
  have hidle (hsame : b'.work? t = b.work? t) : False := by
    rw [fanOut?_congr hsame, hnone] at ho
    cases ho
  cases e with
  | input i =>
    rcases (accepts_of_next h).work? t with hsame | ⟨-, hbegins⟩
    · exact (hidle hsame).elim
    · exact hbegins o hwork
  | move a =>
    cases step_cases h with
    | @conn c k m _ _ hk hserves =>
      by_cases ht : t = .conn c
      · subst ht
        exact hserves.exists_fanOut hk hnone hwork
      · obtain ⟨lm, heffect, -⟩ := hserves.effect hg hk
        exact (hidle (heffect.others t ht)).elim
    | @host n call m _ _ hcall hcalls =>
      by_cases ht : t = .host n
      · subst ht
        cases hcalls with
        | publishes _ | published _ =>
          -- A call has its message from the moment in which it is made, and that is an input.
          rw [fanOut?, work?_of_call hcall] at hnone
          cases hnone
        | writes hsends =>
          obtain ⟨old, hold⟩ :=
            exists_call_of_work? ((hsends.work? (.host n)).trans (work?_of_call hcall))
          rw [work?_setCall hold, if_pos rfl] at hwork
          cases hwork
        | written _ | served _ =>
          rw [work?_dropCall, if_pos rfl] at hwork
          cases hwork
      · obtain ⟨lm, heffect, -⟩ := hcalls.effect hcall
        exact (hidle (heffect.others t ht)).elim
    | relay _ _ _ _ => exact (hidle work?_modifySession).elim

end Broker
end Mqtt
