import Mqtt.Proofs.Broker.Conversation
/-!
# What the host is told of the clients

The host is told that a client has connected once the CONNACK has been written, and that it is gone
once its connection has been served to its end, if a session was opened over it. The second is told
of a session whose CONNACK could not be written as well, of which the first never is
(`not_announced_lostGreeting`). Apart from that the two go together, and each is told once at most
(`called_of_replay`).
-/

namespace Mqtt

/-- The client id, if the client of this connection has connected. -/
def Observation.connected? (c : ConnId) : Observation → Option String
  | connected c' clientId => if c' = c then some clientId else none
  | _ => none

/-- The client id, if the client of this connection is gone. -/
def Observation.disconnected? (c : ConnId) : Observation → Option String
  | disconnected c' clientId => if c' = c then some clientId else none
  | _ => none

/-- The result of a connection that has been served to its end. -/
def Phase.result? : Phase → Option (Except Fault Unit)
  | .over r => some r
  | _ => none

theorem Phase.result?_of_owesNothing {phase : Phase} (h : phase.owesNothing = true) :
    phase.result? = none := by
  cases phase with
  | reading _ | forwarding _ _ => rfl
  | _ => cases h

/-- The frames begin with a CONNECT that a broker accepts. -/
def Frame.Opens (frames : List Frame) : Prop :=
  ∃ f more v p, frames = f :: more ∧ Broker.greet f = .ok (v, p)

theorem Frame.Opens.append {frames : List Frame} (h : Opens frames) (more : List Frame) :
    Opens (frames ++ more) := by
  obtain ⟨f, rest, v, p, rfl, hf⟩ := h
  exact ⟨f, rest ++ more, v, p, rfl, hf⟩

theorem Frame.not_opens_of_refused {f : Option Frame}
    (h : ∀ g ∈ f, ∃ e, Broker.greet g = .error e) :
    ¬Opens f.toList := by
  rintro ⟨g, rest, v, p, hg, hgreet⟩
  cases f with
  | none => cases hg
  | some g' =>
    cases hg
    obtain ⟨e, he⟩ := h g rfl
    rw [he] at hgreet
    cases hgreet

namespace Broker

variable {b b' : Broker} {c : ConnId} {m : Move} {e : Event} {es : List Event} {k : Conn}
  {s : Session} {id? : Option String} {frames : List Frame} {answers : List Bytes} {kept : Prop}
  {end? : Option (Except Fault Unit)} {r : Except Fault Unit}
  {seen heard more : List Observation}

/-- The client ids with which the host has been told that the client of a connection has
connected. -/
def connects (c : ConnId) (seen : List Observation) : List String :=
  seen.filterMap (Observation.connected? c)

/-- The client ids with which the host has been told that the client of a connection is gone. -/
def disconnects (c : ConnId) (seen : List Observation) : List String :=
  seen.filterMap (Observation.disconnected? c)

/-- The result of a connection, once it has been served to its end. -/
def result? (b : Broker) (c : ConnId) : Option (Except Fault Unit) :=
  (b.phase? c).bind Phase.result?

/-- The client id of a session. -/
def clientId? (b : Broker) (c : ConnId) : Option String := (b.session? c).map Session.clientId

/-- What is reported of a connection, by the client id of its session, the answers that have been
written, and its result. -/
def account (c : ConnId) (id? : Option String) (answers : List Bytes)
    (end? : Option (Except Fault Unit)) : List Observation :=
  (if answers = [] then [] else id?.toList.map (.connected c)) ++
    match end? with
    | none => []
    | some r => id?.toList.map (.disconnected c) ++ [.ended c r]

theorem account_over : account c id? answers (some r) =
    account c id? answers none ++ (id?.toList.map (.disconnected c) ++ [.ended c r]) := by
  simp only [account, List.append_nil]

theorem account_congr {answers' : List Bytes} (h : answers' = [] ↔ answers = []) :
    account c id? answers' end? = account c id? answers end? := by
  unfold account
  simp only [h]

/-! ### Turn by turn -/

/-- What has been reported of a connection, and whether it has a session. -/
structure Told (c : ConnId) (b : Broker) (frames : List Frame) (answers : List Bytes)
    (heard : List Observation) : Prop where
  opened : (b.session? c).isSome = true ↔ Frame.Opens frames
  account : heard = account c (b.clientId? c) answers (b.result? c)

theorem result?_of_phase {φ : Phase} (h : b.phase? c = some φ) : b.result? c = φ.result? := by
  rw [result?, h]
  rfl

theorem Evolves.clientId? (h : b.Evolves b') (hs : (b.session? c).isSome = true) :
    b'.clientId? c = b.clientId? c := by
  obtain ⟨s, hs⟩ := Option.isSome_iff_exists.1 hs
  obtain ⟨s', hs', hsame⟩ := h.exists_session hs
  rw [Broker.clientId?, Broker.clientId?, hs, hs']
  exact congrArg some hsame.clientId

theorem session?_of_greeting (hg : b.Greets) (h : b.phase? c = some .greeting) :
    b.session? c = none := by
  obtain ⟨k, hk, hphase⟩ := phase?_eq_some.1 h
  rw [session?, hk]
  exact hg c k hk hphase

/-- Where there is no session and none is opened, there is none. -/
theorem session?_eq_none_of_imp (h : b.session? c = none)
    (himp : (b'.session? c).isSome = true → (b.session? c).isSome = true) :
    b'.session? c = none := by
  rw [← Option.not_isSome_iff_eq_none] at h ⊢
  exact fun hs => h (himp hs)

/-- No session is opened but with an entry in the registry. -/
theorem Joins.session_of_registry (h : Joins b b' e) (hregistry : b'.registry = b.registry)
    (hs : (b'.session? c).isSome = true) : (b.session? c).isSome = true := by
  cases h with
  | keeps h => exact h.session c hs
  | opens _ _ hadded _ =>
    rw [hregistry] at hadded
    exact absurd hadded.symm (by simp)
  | ends _ _ h => exact h c hs

theorem clientId?_of_session (hk : b.conns[c]? = some k) (hs : k.session = some s) :
    b.clientId? c = some s.clientId := by
  rw [clientId?, session?_eq_some.2 ⟨k, hk, hs⟩]
  rfl

/-- A session that is open stays open. -/
theorem Told.opened_after (h : Told c b frames answers heard) (hattends : Attends c b seen)
    (he : b.Evolves b') (hk : b.conns[c]? = some k)
    (hopen : (k.phase.isServing || k.phase.isEnding) = true) (later : List Frame) :
    (b'.session? c).isSome = true ↔ Frame.Opens (frames ++ later) :=
  iff_of_true (hattends.session_after he hk hopen)
    ((h.opened.1 (hattends.session _ (phase?_of_conn hk) hopen)).append later)

/-- While nothing comes to its end, what has been reported of a session stays. -/
theorem Told.stays {φ : Phase} {answers' : List Bytes} (h : Told c b frames answers heard)
    (hattends : Attends c b seen) (he : b.Evolves b') (hk : b.conns[c]? = some k)
    (hφ : b'.phase? c = some φ) (hopen : (k.phase.isServing || k.phase.isEnding) = true)
    (hanswers : answers' = [] ↔ answers = []) (hend : φ.result? = k.phase.result?)
    (later : List Frame) : Told c b' (frames ++ later) answers' (heard ++ []) := by
  have hphase := phase?_of_conn hk
  refine ⟨h.opened_after hattends he hk hopen later, ?_⟩
  rw [List.append_nil, h.account, account_congr hanswers,
    he.clientId? (hattends.session _ hphase hopen), result?_of_phase hphase, result?_of_phase hφ,
    hend]

/-- Before the first frame has been taken nothing is reported. -/
theorem Told.before (h : Told c b frames answers heard)
    (hanswered : Answered frames answers kept ((b.session? c).map Session.version) (b.phase? c))
    (hphase : b.phase? c = some .greeting) : frames = [] ∧ answers = [] ∧ heard = [] := by
  rw [hphase] at hanswered
  obtain ⟨rfl, rfl⟩ := hanswered
  refine ⟨rfl, rfl, ?_⟩
  rw [h.account, result?_of_phase hphase]
  rfl

/-- **A turn of the task keeps it so.** -/
theorem Told.turn {φ : Phase} {f : Option Frame} {a : Option Bytes}
    (h : Told c b frames answers heard) (hturns : Turns b b' c k m φ f a more)
    (hk : b.conns[c]? = some k) (hφ : b'.phase? c = some φ)
    (hanswered : Answered frames answers kept ((b.session? c).map Session.version) (b.phase? c))
    (hattends : Attends c b seen) (hg : b.Greets) (he : b.Evolves b') (hj : Joins b b' e) :
    Told c b' (frames ++ f.toList) (answers ++ a.toList) (heard ++ more) := by
  have hphase := phase?_of_conn hk
  have hresult' := result?_of_phase hφ
  have hopen {phase : Phase} (hbefore : k.phase = phase)
      (h : (phase.isServing || phase.isEnding) = true) :
      (k.phase.isServing || k.phase.isEnding) = true := by
    rw [hbefore, h]
  have hserving (howes : k.phase.owesNothing = true) :
      (k.phase.isServing || k.phase.isEnding) = true := by
    rw [Phase.isServing_of_owesNothing howes, Bool.true_or]
  cases hturns with
  | waits hbefore _ =>
    obtain ⟨rfl, rfl, rfl⟩ := h.before hanswered (hphase.trans (congrArg some hbefore))
    refine ⟨?_, ?_⟩
    · rw [session?_of_greeting (he.greets hg) hφ]
      simp [Frame.Opens]
    · rw [hresult']
      rfl
  | refuses hbefore hregistry hrefused =>
    have hgreeting := hphase.trans (congrArg some hbefore)
    obtain ⟨rfl, rfl, rfl⟩ := h.before hanswered hgreeting
    have hnone : b'.session? c = none :=
      session?_eq_none_of_imp (session?_of_greeting hg hgreeting) (hj.session_of_registry hregistry)
    refine ⟨?_, ?_⟩
    · rw [hnone]
      exact iff_of_false nofun (Frame.not_opens_of_refused hrefused)
    · rw [hresult', clientId?, hnone]
      rfl
  | @opens f v p s hbefore hgreet _ hs _ =>
    obtain ⟨rfl, rfl, rfl⟩ := h.before hanswered (hphase.trans (congrArg some hbefore))
    refine ⟨?_, ?_⟩
    · rw [hs]
      exact iff_of_true rfl ⟨f, [], v, p, rfl, hgreet⟩
    · rw [hresult']
      rfl
  | goesOn howes howes' _ | passes howes _ _ howes' _ =>
    refine h.stays hattends he hk hφ (hserving howes) (by simp) ?_ _
    rw [Phase.result?_of_owesNothing howes, Phase.result?_of_owesNothing howes']
  | answers howes _ _ _ _ | ends howes _ _ _ =>
    exact h.stays hattends he hk hφ (hserving howes) (by simp)
      (Phase.result?_of_owesNothing howes).symm _
  | writes hbefore _ | fails hbefore _ _ _ | closes hbefore _ =>
    exact h.stays hattends he hk hφ (hopen hbefore rfl) (by simp) (by rw [hbefore]; rfl) _
  | @announces d s bs φ hbefore hs hframe howes _ =>
    have hold := hopen hbefore rfl
    refine ⟨h.opened_after hattends he hk hold _, ?_⟩
    -- This is the CONNACK.
    rw [hphase, hbefore] at hanswered
    obtain ⟨-, -, -, hfirst⟩ := hanswered
    obtain rfl := hfirst.2 rfl
    rw [h.account, result?_of_phase hphase, hbefore, hresult', Phase.result?_of_owesNothing howes,
      he.clientId? (hattends.session _ hphase hold), clientId?_of_session hk hs]
    rfl
  | answered hbefore hafter hframe howes _ =>
    have hwelcomed : answers ≠ [] := by
      rw [hphase, hbefore] at hanswered
      obtain ⟨-, -, -, hfirst⟩ := hanswered
      exact fun hnil => hafter (hfirst.1 hnil)
    refine h.stays hattends he hk hφ (hopen hbefore rfl) (by simp [hwelcomed]) ?_ _
    rw [hbefore, Phase.result?_of_owesNothing howes]
    rfl
  | @shuts r s hbefore hs _ =>
    have hold := hopen hbefore rfl
    refine ⟨h.opened_after hattends he hk hold _, ?_⟩
    rw [h.account, result?_of_phase hphase, hbefore, hresult',
      he.clientId? (hattends.session _ hphase hold), clientId?_of_session hk hs, Option.toList_none,
      List.append_nil]
    exact account_over.symm

/-- What others do leaves it so. -/
theorem Told.leaves (h : Told c b frames answers heard) (hleaves : Leaves b b' c e more)
    (he : b.Evolves b') : Told c b' frames answers heard := by
  have hresult : b'.result? c = b.result? c := by
    rcases hleaves.phase with hphase | ⟨hnone, hphase⟩
    · rw [result?, hphase, result?]
    · rw [result?, result?, hnone, hphase]
      rfl
  rcases hs : b.session? c with _ | s
  · have hnone : b'.session? c = none := session?_eq_none_of_imp hs hleaves.session
    refine ⟨by rw [hnone, ← h.opened, hs], ?_⟩
    rw [h.account, hresult, clientId?, clientId?, hs, hnone]
  · have hsome : (b.session? c).isSome = true := by
      rw [hs]
      rfl
    refine ⟨iff_of_true (he.session?_isSome hsome) (h.opened.1 hsome), ?_⟩
    rw [h.account, hresult, he.clientId? hsome]

/-- **What is reported of a connection at every moment of a run.** -/
theorem told_of_replay {maxPacketSize now : Nat}
    (h : (start maxPacketSize now).replay es = some (b, seen)) (c : ConnId) :
    Told c b (framesRead c (start maxPacketSize now) es)
      (answersOf c ((start maxPacketSize now).history es)) (reports c seen) := by
  refine replay_induction (P := fun es b seen => Told c b
    (framesRead c (start maxPacketSize now) es)
    (answersOf c ((start maxPacketSize now).history es)) (reports c seen)) ?_ ?_ h
  · exact ⟨iff_of_false nofun (by simp [framesRead, Frame.Opens]), rfl⟩
  intro es e b₁ seen₁ b₂ more hrun hnext ih
  have hg := (exclusive_of_replay hrun).1.greets
  have he := next?_evolves hg hnext
  rw [history_concat hrun hnext, framesRead_concat hrun hnext, answersOf_append, reports_append]
  rcases turns_of_replay hrun hnext c with
    ⟨m, k, φ, f, a, -, hk, hφ, hturns, htaken, hanswers⟩ | hleaves
  · rw [htaken, hanswers]
    exact ih.turn hturns hk hφ (answered_of_replay hrun c) (attends_of_replay hrun c) hg he
      (next?_joins hg hnext)
  · rw [hleaves.taken, hleaves.answers, hleaves.reports, List.append_nil, List.append_nil,
      List.append_nil]
    exact ih.leaves hleaves he

/-! ### What the host is told -/

/-- What is looked for of a connection is among what is reported of it. -/
theorem filterMap_reports {α : Type} {g : Observation → Option α}
    (hg : ∀ o, o.client? ≠ some c → g o = none) :
    (reports c seen).filterMap g = seen.filterMap g := by
  rw [reports, List.filterMap_filter]
  congr 1
  funext o
  by_cases ho : o.client? = some c
  · simp [ho]
  · simp [ho, hg o ho]

theorem connects_reports : connects c (reports c seen) = connects c seen := by
  refine filterMap_reports fun o ho => ?_
  cases o with
  | connected d id =>
    refine if_neg ?_
    rintro rfl
    exact ho rfl
  | _ => rfl

theorem disconnects_reports : disconnects c (reports c seen) = disconnects c seen := by
  refine filterMap_reports fun o ho => ?_
  cases o with
  | disconnected d id =>
    refine if_neg ?_
    rintro rfl
    exact ho rfl
  | _ => rfl

theorem connects_account : connects c (account c id? answers end?) =
    if answers = [] then [] else id?.toList := by
  unfold account
  by_cases h : answers = [] <;> rcases end? with _ | r <;> rcases id? with _ | id <;>
    simp [h, connects, Observation.connected?, List.filterMap_cons]

theorem disconnects_account : disconnects c (account c id? answers end?) =
    if end?.isSome then id?.toList else [] := by
  unfold account
  by_cases h : answers = [] <;> rcases end? with _ | r <;> rcases id? with _ | id <;>
    simp [h, disconnects, Observation.disconnected?, List.filterMap_cons]

theorem ended_mem_account : .ended c r ∈ account c id? answers end? ↔ end? = some r := by
  unfold account
  by_cases h : answers = [] <;> rcases end? with _ | r' <;> rcases id? with _ | id <;>
    simp [h, eq_comm]

/-- Behind the CONNACK nobody is gone who has not connected. -/
theorem connected_mem_of_account {before after : List Observation} {id : String}
    (hne : answers ≠ [])
    (h : account c id? answers end? = before ++ .disconnected c id :: after) :
    .connected c id ∈ before := by
  unfold account at h
  rw [if_neg hne] at h
  have hmem : .disconnected c id ∈ before ++ .disconnected c id :: after := by simp
  rw [← h] at hmem
  rcases id? with _ | id'
  · rcases end? with _ | r <;> simp at hmem
  rcases end? with _ | r
  · simp at hmem
  -- The three reports stand in this order.
  obtain rfl : id = id' := by simpa using hmem
  cases before with
  | nil =>
    have := (List.cons.inj h).1
    cases this
  | cons o before =>
    rw [← (List.cons.inj h).1]
    exact List.mem_cons_self

/-- What the host is told of a connection in a run. -/
structure Called (c : ConnId) (b₀ : Broker) (es : List Event) (b : Broker)
    (seen : List Observation) : Prop where
  /-- A session has been opened if the first frame was a CONNECT that is accepted. -/
  opened : (b.session? c).isSome = true ↔ Frame.Opens (framesRead c b₀ es)
  /-- The host has been told that the client has connected if the session has written its CONNACK:
  once, and with its client id. -/
  connects : connects c seen =
    if answersOf c (b₀.history es) = [] then [] else (b.clientId? c).toList
  /-- What a session writes first is the CONNACK. -/
  ack : answersOf c (b₀.history es) ≠ [] → ∃ v ack rest,
    answersOf c (b₀.history es) = ack :: rest ∧ (Packet.connAck .accepted).toBytes v = .ok ack
  /-- The host has been told that the client is gone if the connection has been served to its end:
  once, and with the client id of the session, if one has been opened. -/
  disconnects : disconnects c seen =
    if (b.result? c).isSome then (b.clientId? c).toList else []
  /-- The connection has been served to its end if this has been reported. -/
  ended : ∀ r, .ended c r ∈ seen ↔ b.result? c = some r
  /-- If the CONNACK has been written, the host has been told that the client has connected before
  it is told that it is gone. -/
  ordered : answersOf c (b₀.history es) ≠ [] → ∀ before id after,
    seen = before ++ .disconnected c id :: after → .connected c id ∈ before

/-- **What the host is told of a client.** In every run of a broker, of every connection: that its
client has connected, once and with the client id of the session, exactly if the session has written
its CONNACK; and that it is gone, once and with the same client id, exactly if a session was opened
and the connection has been served to its end. If the CONNACK has been written, the first is told
before the second. -/
theorem called_of_replay {maxPacketSize now : Nat}
    (h : (start maxPacketSize now).replay es = some (b, seen)) (c : ConnId) :
    Called c (start maxPacketSize now) es b seen where
  opened := (told_of_replay h c).opened
  connects := by
    rw [← connects_reports, (told_of_replay h c).account, connects_account]
  ack hne := exists_ack_of_replay h (List.append_nil _).symm hne
  disconnects := by
    rw [← disconnects_reports, (told_of_replay h c).account, disconnects_account]
  ended r := by
    have hmem : .ended c r ∈ seen ↔ .ended c r ∈ reports c seen := by
      simp [reports, Observation.client?]
    rw [hmem, (told_of_replay h c).account, ended_mem_account]
  ordered hne before id after hseen := by
    have hreports : reports c seen =
        reports c before ++ .disconnected c id :: reports c after := by
      rw [hseen, reports_append, reports, reports, reports,
        List.filter_cons_of_pos (by simp [Observation.client?])]
    have haccount := (told_of_replay h c).account
    rw [hreports] at haccount
    exact List.mem_of_mem_filter (connected_mem_of_account hne haccount.symm)

/-- A client connects and disconnects. -/
def briefVisit : List Event :=
  let connect : Bytes := [0x10, 13, 0, 4, 0x4d, 0x51, 0x54, 0x54, 4, 2, 0, 60, 0, 1, 0x73]
  [.input (.opens "s" 64), .input (.peerWrites 0 connect)] ++ answering 0 ++
    [.input (.peerWrites 0 [0xe0, 0])] ++
    [.receive, .dispatch, .close, .shut].map fun m => .move (.task (.conn 0) m)

/-- The host is told of both. -/
theorem called_briefVisit :
    ∃ b seen, (start 1000 0).replay briefVisit = some (b, seen) ∧
      connects 0 seen = ["s"] ∧ disconnects 0 seen = ["s"] ∧
      ∀ before id after, seen = before ++ .disconnected 0 id :: after →
        .connected 0 id ∈ before := by
  have hend : ((start 1000 0).replay briefVisit).map
      (fun r => (r.1.clientId? 0, (r.1.result? 0).isSome)) = some (some "s", true) := by
    decide +kernel
  have hanswers : answersOf 0 ((start 1000 0).history briefVisit) = [[0x20, 2, 0, 0]] := by
    decide +kernel
  obtain ⟨⟨b, seen⟩, hrun, hb⟩ := Option.map_eq_some_iff.1 hend
  obtain ⟨hid, hover⟩ := Prod.mk.inj hb
  have hcalled := called_of_replay hrun 0
  refine ⟨b, seen, hrun, ?_, ?_, hcalled.ordered (by simp [hanswers])⟩
  · rw [hcalled.connects, hanswers, hid]
    rfl
  · rw [hcalled.disconnects, hover, hid]
    rfl

/-- A client connects, and its session is told to end before the CONNACK has been written. -/
def lostGreeting : List Event :=
  let connect : Bytes := [0x10, 13, 0, 4, 0x4d, 0x51, 0x54, 0x54, 4, 2, 0, 60, 0, 1, 0x73]
  [.input (.opens "s" 64), .input (.peerWrites 0 connect)] ++
    [.receive, .dispatch].map (fun m => .move (.task (.conn 0) m)) ++ [.input (.closes 0)] ++
    [.send .giveUp, .close, .shut].map fun m => .move (.task (.conn 0) m)

/-- The host is told that a client is gone of which it has never been told that it has connected. -/
theorem not_announced_lostGreeting :
    ∃ b seen, (start 1000 0).replay lostGreeting = some (b, seen) ∧
      (b.result? 0).isSome = true ∧ disconnects 0 seen = ["s"] ∧ connects 0 seen = [] := by
  have hend : ((start 1000 0).replay lostGreeting).map
      (fun r => ((r.1.result? 0).isSome, disconnects 0 r.2, connects 0 r.2)) =
        some (true, ["s"], []) := by
    decide +kernel
  obtain ⟨⟨b, seen⟩, hrun, hb⟩ := Option.map_eq_some_iff.1 hend
  simp only [Prod.mk.injEq] at hb
  exact ⟨b, seen, hrun, hb⟩

end Broker
end Mqtt
