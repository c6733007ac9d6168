import Mqtt.Proofs.Broker.Advances
import Mqtt.Proofs.Stream.Lines
/-!
# Who stands in front of a stream

The tasks that are inside a turnstile or in line stand there for a reason: each has a frame for the
stream behind it, or is the task of the connection itself, which is about to shut the stream. A task
stands in front of one stream at most (`Broker.place?`), and every move of it either leaves the
lines alone or is to come to the end of one or to go away from one (`Queues`). So in every run the
line in front of a stream is made up of exactly those who have a place there, each once
(`lined_of_replay`).
-/

namespace Mqtt

/-! ### Places -/

/-- The stream in front of which a task stands that has come to the turnstile with a frame. -/
def Delivery.place? (d : Delivery) : Option ConnId :=
  match d.state with
  | .starting => none
  | .inLine | .pushing _ => some d.target

def FanOut.place? (o : FanOut) : Option ConnId := o.current.bind Delivery.place?

/-- The stream in front of which the task of the connection `c` stands. -/
def Phase.place? (c : ConnId) : Phase → Option ConnId
  | .replying d _ => d.place?
  | .forwarding _ o => o.place?
  | .shutting _ => some c
  | _ => none

def HostCall.place? : HostCall → Option ConnId
  | .publish o => o.place?
  | .write d => d.place?
  | .serve => none

namespace Broker

variable {b b' b₁ : Broker} {c : ConnId} {t : Task} {x y : Option ConnId} {k : Conn} {e : Event}
  {seen : List Observation}

/-- The stream in front of which a task stands. -/
def place? (b : Broker) : Task → Option ConnId
  | .conn c => (b.phase? c).bind (Phase.place? c)
  | .host n => (b.call? n).bind HostCall.place?

/-- What a task does to the lines, with where it stands before and after. -/
inductive Queues (b b' : Broker) (t : Task) : Option ConnId → Option ConnId → Prop
  | stays {x : Option ConnId} : (∀ c, b'.turnstile c = b.turnstile c) → Queues b b' t x x
  | comes {c : ConnId} :
    (∀ c', b'.turnstile c' = if c' = c then (b.turnstile c).enter t else b.turnstile c') →
    Queues b b' t none (some c)
  | goes {c : ConnId} :
    (∀ c', b'.turnstile c' = if c' = c then (b.turnstile c).leave t else b.turnstile c') →
    Queues b b' t (some c) none

/-- The line in front of every stream is made up of those who have a place there, each once. -/
structure Lined (b : Broker) : Prop where
  orderly : ∀ c, (b.turnstile c).Orderly
  nodup : ∀ c, (b.turnstile c).members.Nodup
  place : ∀ c t, t ∈ (b.turnstile c).members ↔ b.place? t = some c

theorem place?_of_phase {phase : Phase} (h : b.phase? c = some phase) :
    b.place? (.conn c) = phase.place? c := by
  rw [place?, h]
  rfl

theorem place?_of_call {n : Nat} {call : HostCall} (h : b.call? n = some call) :
    b.place? (.host n) = call.place? := by
  rw [place?, h]
  rfl

theorem Delivery.target_of_place? {d : Delivery} (h : d.place? = some c) : d.target = c := by
  unfold Delivery.place? at h
  split at h
  · cases h
  all_goals exact Option.some.inj h

/-- Whoever stands in front of a stream has a frame for it, or is about to shut it. -/
theorem cases_of_place? (h : b.place? t = some c) :
    (∃ d, b.delivery? t = some d ∧ d.target = c) ∨
      t = .conn c ∧ ∃ r, b.phase? c = some (.shutting r) := by
  have hforwarding {o : FanOut} (ho : o.place? = some c) :
      ∃ d, o.current = some d ∧ d.target = c := by
    obtain ⟨d, hd, hplace⟩ := Option.bind_eq_some_iff.1 ho
    exact ⟨d, hd, Delivery.target_of_place? hplace⟩
  cases t with
  | conn c' =>
    obtain ⟨phase, hphase, hplace⟩ := Option.bind_eq_some_iff.1 h
    obtain ⟨k, hk, rfl⟩ := phase?_eq_some.1 hphase
    cases hat : k.phase with
    | replying d after =>
      rw [hat] at hplace
      refine .inl ⟨d, ?_, Delivery.target_of_place? hplace⟩
      rw [delivery?_of_phase hk hat]
      rfl
    | forwarding p o =>
      rw [hat] at hplace
      obtain ⟨d, hd, htarget⟩ := hforwarding hplace
      refine .inl ⟨d, ?_, htarget⟩
      rw [delivery?_of_phase hk hat]
      exact hd
    | shutting r =>
      -- Here alone a task stands in line without a frame.
      rw [hat] at hplace
      obtain rfl := Option.some.inj hplace
      exact .inr ⟨rfl, r, hphase.trans (congrArg some hat)⟩
    | _ =>
      rw [hat] at hplace
      cases hplace
  | host n =>
    obtain ⟨call, hcall, hplace⟩ := Option.bind_eq_some_iff.1 h
    have hdelivery : b.delivery? (.host n) = call.work?.bind Work.delivery? := by
      rw [delivery?, work?, hcall]
      rfl
    cases call with
    | publish o =>
      obtain ⟨d, hd, htarget⟩ := hforwarding hplace
      exact .inl ⟨d, hdelivery.trans hd, htarget⟩
    | write d => exact .inl ⟨d, hdelivery, Delivery.target_of_place? hplace⟩
    -- A call that waits for the end stands nowhere.
    | serve => cases hplace

/-- Whoever writes a frame stands where the frame stands. -/
theorem place?_of_delivery {d : Delivery} (h : b.delivery? t = some d) : b.place? t = d.place? := by
  obtain ⟨w, hwork, hd⟩ := Option.bind_eq_some_iff.1 h
  have hspreads {o : FanOut} (ho : o.current = some d) : o.place? = d.place? := by
    rw [FanOut.place?, ho, Option.bind_some]
  cases t with
  | conn c =>
    obtain ⟨k, hk, hwork⟩ := Option.bind_eq_some_iff.1 hwork
    rw [place?_of_phase (phase?_of_conn hk)]
    cases hat : k.phase with
    | replying d' after =>
      rw [hat] at hwork
      cases hwork
      cases hd
      rfl
    | forwarding p o =>
      rw [hat] at hwork
      cases hwork
      exact hspreads hd
    | _ =>
      rw [hat] at hwork
      cases hwork
  | host n =>
    obtain ⟨call, hcall, hwork⟩ := Option.bind_eq_some_iff.1 hwork
    rw [place?_of_call hcall]
    cases call with
    | publish o =>
      cases hwork
      exact hspreads hd
    | write d' =>
      cases hwork
      cases hd
      rfl
    | serve => cases hwork

theorem Queues.congr (h : Queues b b₁ t x y) (hturn : ∀ c, b'.turnstile c = b₁.turnstile c) :
    Queues b b' t x y := by
  cases h with
  | stays hsame => exact .stays fun c => (hturn c).trans (hsame c)
  | comes henter => exact .comes fun c => (hturn c).trans (henter c)
  | goes hleave => exact .goes fun c => (hturn c).trans (hleave c)

/-! ### Deliveries -/

/-- A move of a delivery. -/
theorem Sends.queues {d : Delivery} {m : SendMove} {r : Sending ⊕ Except Fault Unit}
    (h : Sends b t d m b' r seen) :
    Queues b b' t d.place? (r.elim (fun s => ({ d with state := s } : Delivery).place?)
      fun _ => none) := by
  cases h with
  | @intro k s sent hk hs _ hmoves =>
    have hturn (c : ConnId) : (b.putSent d.target sent).turnstile c =
        if c = d.target then sent.outlet.turnstile else b.turnstile c := turnstile_putSent hk hs
    have hbefore := turnstile_eq hk hs
    have hstays (hsame : sent.outlet.turnstile = s.turnstile) (c : ConnId) :
        (b.putSent d.target sent).turnstile c = b.turnstile c := by
      rw [hturn]
      by_cases hc : c = d.target
      · rw [if_pos hc, hc, hsame, hbefore]
      · rw [if_neg hc]
    have hgoes (hleaves : sent.outlet.turnstile = s.turnstile.leave t) (c : ConnId) :
        (b.putSent d.target sent).turnstile c =
          if c = d.target then (b.turnstile d.target).leave t else b.turnstile c := by
      rw [hturn, hleaves, hbefore]
    have hplace {state : Sending} (hstate : d.state = state) :
        d.place? = ({ d with state := state } : Delivery).place? := by
      rw [← hstate]
    -- Where the frame stands is told by its state alone.
    generalize hstate : d.state = state at hmoves
    rw [hplace hstate]
    cases hmoves with
    | enter =>
      refine .comes fun c => ?_
      rw [hturn, hbefore]
    -- Outside the line giving up changes nothing; in it and inside the turnstile it means leaving.
    | layOut _ _ | part _ _ | giveUpOutside _ => exact .stays (hstays rfl)
    | fault _ _ | broken _ | whole _ | giveUpInLine _ | giveUpPushing _ => exact .goes (hgoes rfl)

/-- A delivery is dropped. -/
theorem queues_abandon {d : Delivery} (h : (b.session? d.target).isSome = true) :
    Queues b (b.abandon t d) t d.place? none := by
  have hturn (c : ConnId) := turnstile_abandon (c := c) (t := t) h
  rw [Delivery.place?]
  rcases hstate : d.state with _ | _ | left
  · -- A frame that has not come to the line yet is not in it.
    refine .stays fun c => ?_
    rw [hturn, if_neg fun h => h.2 hstate]
  · refine .goes fun c => ?_
    rw [hturn, hstate]
    by_cases hc : c = d.target <;> simp [hc]
  · refine .goes fun c => ?_
    rw [hturn, hstate]
    by_cases hc : c = d.target <;> simp [hc]

/-- A move of a forwarding. -/
theorem Forwards.queues {stopped : Bool} {o : FanOut} {m : Move} {r : FanOut ⊕ Nat}
    (h : Forwards b t stopped o m b' r seen)
    (htarget : ∀ d, o.current = some d → (b.session? d.target).isSome = true) :
    Queues b b' t o.place? (r.elim FanOut.place? fun _ => none) := by
  have hplace {d : Delivery} (hd : o.current = some d) : o.place? = d.place? := by
    rw [FanOut.place?, hd]
    rfl
  have hnone (hd : o.current = none) : o.place? = none := by
    rw [FanOut.place?, hd]
    rfl
  cases h with
  | exhausts hcurrent _ | passes hcurrent _ _ | reaches hcurrent _ _ =>
    rw [hnone hcurrent]
    exact .stays fun _ => rfl
  | goesOn hcurrent hsends | delivers hcurrent hsends =>
    rw [hplace hcurrent]
    exact hsends.queues
  | fails hcurrent hsends =>
    rw [hplace hcurrent]
    refine hsends.queues.congr fun c => ?_
    split_ifs
    · rfl
    · exact turnstile_cancelSession
  | stops hcurrent _ =>
    rw [hplace hcurrent]
    exact queues_abandon (htarget _ hcurrent)

/-! ### The task of a connection -/

/-- The task goes on without coming to a line or leaving one. -/
theorem queues_of_phase {phase : Phase} (hphase : b'.phase? c = some phase)
    (hplace : phase.place? c = x) (hturn : ∀ c, b'.turnstile c = b.turnstile c) :
    ∃ φ, b'.phase? c = some φ ∧ Queues b b' (.conn c) x (φ.place? c) := by
  refine ⟨phase, hphase, ?_⟩
  rw [hplace]
  exact .stays hturn

/-- A task that takes a packet is in front of no stream before and after. -/
theorem Handles.queues {s : Session} {f : Frame} {p : Packet} (h : Handles b₁ c s f p b')
    (hk : b₁.conns[c]? = some k) (hturn : ∀ c, b₁.turnstile c = b.turnstile c) :
    ∃ φ, b'.phase? c = some φ ∧ Queues b b' (.conn c) none (φ.place? c) := by
  have hreply {b₂ : Broker} {k₂ : Conn} {v : Version} {q : Packet} {after : AfterReply}
      (hk₂ : b₂.conns[c]? = some k₂) (hturn₂ : ∀ c, b₂.turnstile c = b.turnstile c) :
      ∃ φ, (b₂.reply c v q after).phase? c = some φ ∧
        Queues b (b₂.reply c v q after) (.conn c) none (φ.place? c) :=
    queues_of_phase (phase?_setPhase _ hk₂) rfl fun c' => turnstile_setPhase.trans (hturn₂ c')
  cases h with
  | unexpected | invalid _ | disconnects =>
    exact queues_of_phase (phase?_finish hk) rfl fun c' => turnstile_finish.trans (hturn c')
  | acknowledges _ _ | releases | pings => exact hreply hk hturn
  | forwards _ _ =>
    exact queues_of_phase (phase?_setPhase _ hk) rfl fun c' => turnstile_setPhase.trans (hturn c')
  | subscribes | unsubscribes =>
    refine hreply (conns_modifySession_self hk) fun c' => ?_
    rw [← hturn c']
    exact turnstile_modifySession fun _ => rfl
  | ignores _ =>
    exact queues_of_phase (phase?_readOn hk) rfl fun c' => turnstile_readOn.trans (hturn c')

/-- What a move of the task of a connection does to the lines. -/
theorem Serves.queues {m : Move} (hw : b.Wired) (hk : b.conns[c]? = some k)
    (h : Serves b c k m b' seen) :
    ∃ φ, b'.phase? c = some φ ∧ Queues b b' (.conn c) (k.phase.place? c) (φ.place? c) := by
  have htake {a : Assembler} : (b.takeFrame c a).conns[c]? = some { k with assembler := a } :=
    conns_modifyConn_self hk
  have hdelivery {phase : Phase} (hphase : k.phase = phase) :
      b.delivery? (.conn c) = phase.work?.bind Work.delivery? := delivery?_of_phase hk hphase
  cases h with
  | greets _ _ _ | reads _ _ _ _ =>
    -- Until its CONNACK is due the task stands in no line, and reading does not change that.
    exact queues_of_phase (phase?_of_conn (conns_modifyConn_self hk)) rfl fun _ =>
      turnstile_takeBytes
  | refuses hphase _ =>
    rw [hphase]
    exact queues_of_phase (phase?_of_conn (conns_modifyConn_self hk)) rfl fun _ =>
      turnstile_modifyConn_same fun _ => rfl
  | @opens _ a _ _ hphase _ _ =>
    rw [hphase]
    exact queues_of_phase (phase?_openSession htake) rfl fun _ =>
      (turnstile_openSession (htake (a := a)) (hw.greets c k hk hphase)).trans turnstile_takeFrame
  | handles hphase _ _ _ =>
    rw [hphase]
    exact (handles_handle _).queues htake fun _ => turnstile_takeFrame
  | undecodable hphase _ _ _ =>
    rw [hphase]
    exact queues_of_phase (phase?_finish htake) rfl fun _ =>
      turnstile_finish.trans turnstile_takeFrame
  | ends hphase _ _ =>
    rw [hphase]
    -- Ending a session cancels its token, and whoever stands in its line stays there until its own
    -- next move.
    exact queues_of_phase (phase?_finish hk) rfl fun _ => turnstile_finish
  | answers hphase _ hsends =>
    obtain ⟨k₁, hk₁⟩ := hsends.evolves.exists_conn hk
    -- Whether the task comes, stays or goes is up to the move of the frame that it writes.
    refine ⟨_, phase?_setPhase _ hk₁, ?_⟩
    rw [hphase]
    exact hsends.queues.congr fun _ => turnstile_setPhase
  | answerFails hphase _ hsends =>
    obtain ⟨k₁, hk₁⟩ := hsends.evolves.exists_conn hk
    refine ⟨_, phase?_finish hk₁, ?_⟩
    rw [hphase]
    exact hsends.queues.congr fun _ => turnstile_finish
  | @answered d after s m b₁ seen₁ hphase _ hsends =>
    obtain ⟨k₁, hk₁⟩ := hsends.evolves.exists_conn hk
    rw [hphase]
    have hturn (c' : ConnId) : (b₁.afterReply c s after).1.turnstile c' = b₁.turnstile c' :=
      turnstile_afterReply
    -- The answer is written, and the task is out of the line whatever it does next.
    cases after with
    | announce | read => exact ⟨_, phase?_readOn hk₁, hsends.queues.congr hturn⟩
    | forward p f => exact ⟨_, phase?_setPhase _ hk₁, hsends.queues.congr hturn⟩
  | forwards hphase _ hforwards =>
    obtain ⟨k₁, hk₁⟩ := hforwards.evolves.exists_conn hk
    refine ⟨_, phase?_setPhase _ hk₁, ?_⟩
    -- The target of a delivery has a session, so there is a line for the task to be in.
    have hqueues := hforwards.queues fun d hd => hw.targets _ d ((hdelivery hphase).trans hd)
    rw [hphase]
    exact hqueues.congr fun _ => turnstile_setPhase
  | forwarded hphase _ hforwards =>
    obtain ⟨k₁, hk₁⟩ := hforwards.evolves.exists_conn hk
    refine ⟨_, phase?_readOn hk₁, ?_⟩
    have hqueues := hforwards.queues fun d hd => hw.targets _ d ((hdelivery hphase).trans hd)
    rw [hphase]
    exact hqueues.congr fun _ => turnstile_readOn
  | closes hphase hs =>
    refine ⟨_, phase?_setPhase _ (conns_modifySession_self hk), ?_⟩
    rw [hphase]
    -- To shut a stream the task stands in line for it like any writer.
    refine .comes fun c' => ?_
    rw [turnstile_setPhase, modifySession, turnstile_modifyConn, hk, turnstile_eq hk hs]
    simp [hs]
  | shuts hphase hs _ =>
    refine ⟨_, phase?_of_conn (conns_modifyConn_self hk), ?_⟩
    rw [hphase]
    -- It leaves once the stream is shut.
    refine .goes fun c' => ?_
    rw [shutStream, turnstile_modifyConn, hk, turnstile_eq hk hs]
    simp [hs]

/-! ### Calls of the host -/

theorem Sends.calls {d : Delivery} {m : SendMove} {r : Sending ⊕ Except Fault Unit}
    (h : Sends b t d m b' r seen) : b'.calls = b.calls := by
  cases h with
  | intro _ _ _ _ => rfl

theorem Forwards.calls {stopped : Bool} {o : FanOut} {m : Move} {r : FanOut ⊕ Nat}
    (h : Forwards b t stopped o m b' r seen) : b'.calls = b.calls := by
  cases h with
  | exhausts _ _ | passes _ _ _ | reaches _ _ _ | stops _ _ => rfl
  | goesOn _ hsends | delivers _ hsends => exact hsends.calls
  | fails _ hsends =>
    rw [← hsends.calls]
    split_ifs <;> rfl

theorem Handles.calls {s : Session} {f : Frame} {p : Packet} (h : Handles b c s f p b') :
    b'.calls = b.calls := by
  cases h <;> rfl

/-- The task of a connection leaves the calls of the host alone. -/
theorem Serves.calls {m : Move} (h : Serves b c k m b' seen) : b'.calls = b.calls := by
  cases h with
  | handles _ _ _ _ => exact (handles_handle _).calls
  | answers _ _ hsends | answerFails _ _ hsends => exact hsends.calls
  | @answered _ after _ _ _ _ _ _ hsends => cases after <;> exact hsends.calls
  | forwards _ _ hforwards | forwarded _ _ hforwards => exact hforwards.calls
  | _ => rfl

/-- A call of the host leaves the others alone. -/
theorem Calls.call?_of_ne {n n' : Nat} {call : HostCall} {m : Move} (h : Calls b n call m b' seen)
    (hn : n' ≠ n) : b'.call? n' = b.call? n' := by
  cases h with
  | publishes hforwards =>
    rw [call?_setCall, if_neg hn, call?, hforwards.calls, call?]
  | published hforwards =>
    rw [call?_dropCall, if_neg hn, call?, hforwards.calls, call?]
  | writes hsends =>
    rw [call?_setCall, if_neg hn, call?, hsends.calls, call?]
  | written hsends =>
    rw [call?_dropCall, if_neg hn, call?, hsends.calls, call?]
  | served _ => rw [call?_dropCall, if_neg hn]

/-- What a move of a call of the host does to the lines. -/
theorem Calls.queues {n : Nat} {call : HostCall} {m : Move} (hw : b.Wired)
    (hcall : b.call? n = some call) (h : Calls b n call m b' seen) :
    Queues b b' (.host n) call.place? (b'.place? (.host n)) := by
  -- A call that goes on stands where its new state says, and one that is answered stands nowhere.
  have hset {b₁ : Broker} {call' : HostCall} (hcalls : b₁.calls = b.calls) :
      (b₁.setCall n call').place? (.host n) = call'.place? := by
    refine place?_of_call ?_
    rw [call?_setCall, if_pos rfl, call?, hcalls]
    exact congrArg (Option.map _) hcall
  have hdrop {b₁ : Broker} : (b₁.dropCall n).place? (.host n) = none := by
    rw [place?, call?_dropCall, if_pos rfl]
    rfl
  have htarget {o : FanOut} (ho : b.call? n = some (.publish o)) (d : Delivery)
      (hd : o.current = some d) : (b.session? d.target).isSome = true := by
    refine hw.targets (.host n) d ?_
    rw [delivery?, work?, ho]
    exact hd
  cases h with
  | publishes hforwards =>
    rw [hset hforwards.calls]
    exact (hforwards.queues (htarget hcall)).congr fun _ => rfl
  | published hforwards =>
    rw [hdrop]
    exact (hforwards.queues (htarget hcall)).congr fun _ => rfl
  | writes hsends =>
    rw [hset hsends.calls]
    exact hsends.queues.congr fun _ => rfl
  | written hsends =>
    rw [hdrop]
    exact hsends.queues.congr fun _ => rfl
  | served _ =>
    rw [hdrop]
    exact .stays fun _ => rfl

/-! ### Every event -/

/-- The others stay where they are. -/
theorem place?_of_others (h : b.next? e = some (b', seen))
    (hne : ∀ m, e ≠ .move (.task (.conn c) m)) : b'.place? (.conn c) = b.place? (.conn c) := by
  rw [Broker.place?, Broker.place?]
  rcases phase?_of_others h hne with hphase | ⟨hnone, hgreeting⟩
  · rw [hphase]
  · rw [hnone, hgreeting]
    rfl

/-- A call that begins stands nowhere yet. -/
theorem place?_addCall {n : Nat} {call : HostCall} (h : call.place? = none) :
    (b.addCall n call).place? t = b.place? t := by
  cases t with
  | conn c => rfl
  | host n' =>
    rw [place?, call?_addCall, place?]
    by_cases hn : n' = n
    · rcases b.call? n' with _ | old <;> simp [hn, h]
    · simp [hn]

/-- An input leaves the lines alone. -/
theorem Accepts.queues {i : BrokerInput} (h : Accepts b i b' seen) :
    (∀ n, b'.place? (.host n) = b.place? (.host n)) ∧ ∀ c, b'.turnstile c = b.turnstile c := by
  cases h with
  | opens => exact ⟨fun _ => rfl, fun _ => turnstile_addConn⟩
  | links _ _ _ | cancels => exact ⟨fun _ => rfl, fun _ => turnstile_modifyConn_same fun _ => rfl⟩
  | closes => exact ⟨fun _ => rfl, fun _ => turnstile_cancelSession⟩
  | begins hrequests => exact ⟨fun _ => place?_addCall (by cases hrequests <;> rfl), fun _ => rfl⟩
  | serves _ => exact ⟨fun _ => place?_addCall rfl, fun _ => rfl⟩
  | shutsDown | elapses | declines _ => exact ⟨fun _ => rfl, fun _ => rfl⟩

/-- **What an event does to the lines**: one task may come or go, and the others stay where they
are. -/
theorem next?_queues (hw : b.Wired) (h : b.next? e = some (b', seen)) :
    ∃ t, Queues b b' t (b.place? t) (b'.place? t) ∧ ∀ t', t' ≠ t → b'.place? t' = b.place? t' := by
  -- What changes no line is put down to some task or other that stays.
  have hstays (hne : ∀ c m, e ≠ .move (.task (.conn c) m))
      (hhost : ∀ n, b'.place? (.host n) = b.place? (.host n))
      (hturn : ∀ c, b'.turnstile c = b.turnstile c) :
      ∃ t, Queues b b' t (b.place? t) (b'.place? t) ∧
        ∀ t', t' ≠ t → b'.place? t' = b.place? t' := by
    have hplace (t : Task) : b'.place? t = b.place? t := by
      cases t with
      | conn c => exact place?_of_others h (hne c)
      | host n => exact hhost n
    refine ⟨.host 0, ?_, fun t' _ => hplace t'⟩
    rw [hplace]
    exact .stays hturn
  cases e with
  | input i =>
    obtain ⟨hhost, hturn⟩ := (accepts_of_next h).queues
    refine hstays (fun c m heq => ?_) hhost hturn
    cases heq
  | move a =>
    cases step_cases h with
    | @conn c k m _ _ hk hserves =>
      -- The task that moves may come or go. No other connection changes its phase, and no call its
      -- state.
      obtain ⟨φ, hphase, hqueues⟩ := hserves.queues hw hk
      refine ⟨.conn c, ?_, fun t' ht => ?_⟩
      · rwa [place?_of_phase (phase?_of_conn hk), place?_of_phase hphase]
      · cases t' with
        | conn c' =>
          refine place?_of_others h fun m' heq => ht ?_
          cases heq
          rfl
        | host n => rw [place?, call?, hserves.calls, place?, call?]
    | @host n call m _ _ hcall hcalls =>
      refine ⟨.host n, ?_, fun t' ht => ?_⟩
      · rw [place?_of_call hcall]
        exact hcalls.queues hw hcall
      · cases t' with
        | conn c =>
          refine place?_of_others h fun m' heq => ?_
          cases heq
        | host n' => rw [place?, place?, hcalls.call?_of_ne fun hn => ht (congrArg _ hn)]
    | relay _ _ _ _ =>
      refine hstays (fun c m heq => ?_) (fun _ => rfl) fun _ => turnstile_cancelSession
      cases heq

/-! ### Every run -/

theorem lined_start (maxPacketSize now : Nat) : (start maxPacketSize now).Lined where
  orderly _ := Turnstile.orderly_empty
  nodup _ := List.nodup_nil
  place c t := by
    refine ⟨nofun, fun h => ?_⟩
    cases t <;> cases h

/-- What is done to the lines, as it is seen at one of them. -/
theorem Queues.at (h : Queues b b' t x y) (c : ConnId) :
    (b.turnstile c).Queues (b'.turnstile c) t (decide (x = some c)) (decide (y = some c)) := by
  have hnone : decide ((none : Option ConnId) = some c) = false := rfl
  have hother {c₀ : ConnId} (hc : c ≠ c₀) : decide (some c₀ = some c) = false := by
    simpa using Ne.symm hc
  cases h with
  | stays hturn => exact .stays (hturn c)
  | @comes c₀ hturn =>
    -- Seen from another line nothing has happened.
    by_cases hc : c = c₀
    · rw [hturn, if_pos hc, hc, decide_eq_true rfl]
      exact .comes rfl
    · rw [hturn, if_neg hc, hnone, hother hc]
      exact .stays rfl
  | @goes c₀ hturn =>
    by_cases hc : c = c₀
    · rw [hturn, if_pos hc, hc, decide_eq_true rfl]
      exact .goes rfl
    · rw [hturn, if_neg hc, hnone, hother hc]
      exact .stays rfl

/-- **Every event keeps the lines right.** -/
theorem Lined.step (h : b.Lined) (hqueues : Queues b b' t (b.place? t) (b'.place? t))
    (hothers : ∀ t', t' ≠ t → b'.place? t' = b.place? t') : b'.Lined := by
  have hlines (c : ConnId) : (b'.turnstile c).Lines fun t => decide (b'.place? t = some c) := by
    have hbefore : (b.turnstile c).Lines fun t => decide (b.place? t = some c) :=
      ⟨h.orderly c, h.nodup c, fun t => by rw [h.place, decide_eq_true_iff]⟩
    refine hbefore.step (hqueues.at c) fun t' ht => ?_
    rw [hothers t' ht]
  refine ⟨fun c => (hlines c).orderly, fun c => (hlines c).nodup, fun c t => ?_⟩
  rw [(hlines c).mem, decide_eq_true_iff]

/-- **In every run the line in front of a stream is made up of those who have a place there.** -/
theorem lined_of_replay {maxPacketSize now : Nat} {es : List Event}
    (h : (start maxPacketSize now).replay es = some (b, seen)) : b.Lined := by
  refine replay_induction (P := fun _ b _ => b.Lined) (lined_start _ _) ?_ h
  intro es e b₁ seen₁ b₂ more hrun hnext hlined
  obtain ⟨t, hqueues, hothers⟩ := next?_queues (exclusive_of_replay hrun).1 hnext
  exact hlined.step hqueues hothers

end Broker
end Mqtt
