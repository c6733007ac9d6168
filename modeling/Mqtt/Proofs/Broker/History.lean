import Mqtt.Proofs.Broker.Framing
/-!
# The history of a run

Two states of a broker do not say how a message got from one client to the others, so a run is
accompanied by notes (`Broker.history`): which bytes come from a peer, which messages a session
takes, whom it finds registered when it begins to forward one, at whom it looks and whether that one
wants the message, which frames are written to the end, and what the host is given.

The notes of one event (`Broker.deeds`) are read off the states before and after it and off what is
seen of it. Nothing in a broker depends on them.
-/

namespace Mqtt

/-- What is noted of a run. -/
inductive Deed where
  /-- Bytes come from a peer. -/
  | arrives (c : ConnId) (bs : Bytes)
  /-- A session takes a message, which came in this frame. -/
  | takes (c : ConnId) (f : Frame) (p : Publish)
  /-- A session begins to forward a message, while these sessions are registered. -/
  | begins (c : ConnId) (registered : List ConnId)
  /-- A session that forwards a message looks whether another one wants it. -/
  | reaches (c target : ConnId) (wanted : Bool)
  /-- A task has written a frame to the end, for a message that it forwards or for something
  else. -/
  | writes (t : Task) (target : ConnId) (bs : Bytes) (forwarded : Bool)
  /-- The host is given a message. -/
  | hands (c : ConnId) (clientId : String) (m : Message)

/-- The session that forwards a message when it does this. -/
def Deed.publisher? : Deed → Option ConnId
  | .takes c _ _ | .begins c _ | .reaches c _ _ | .hands c _ _ => some c
  | .writes (.conn c) _ _ true => some c
  | _ => none

/-- The message that is taken, if this session takes it. -/
def Deed.taken? (c : ConnId) : Deed → Option (Frame × Publish)
  | .takes c' f p => if c' = c then some (f, p) else none
  | _ => none

/-- The bytes that come, if they come from this peer. -/
def Deed.arrived? (c : ConnId) : Deed → Option Bytes
  | .arrives c' bs => if c' = c then some bs else none
  | _ => none

/-- The frame that is written, if it goes into this stream. -/
def Deed.frame? (d : ConnId) : Deed → Option Bytes
  | .writes _ d' bs _ => if d' = d then some bs else none
  | _ => none

/-- The frame that is written, if this session writes it into this stream for a message that it
forwards. -/
def Deed.copy? (c d : ConnId) : Deed → Option Bytes
  | .writes (.conn c') d' bs true => if c' = c ∧ d' = d then some bs else none
  | _ => none

/-- The message that the host is given, if it is one of this session. -/
def Deed.handed? (c : ConnId) : Deed → Option (String × Message)
  | .hands c' clientId m => if c' = c then some (clientId, m) else none
  | _ => none

/-- The message in a frame, if it carries one that may be forwarded. -/
def Frame.message? (v : Version) (f : Frame) : Option (Frame × Publish) :=
  match Packet.decode v f with
  | .ok (.publish p) => if (Topic.validate p.topic).isOk then some (f, p) else none
  | _ => none

/-- The message in front of the task of a connection, if it waits for a frame. -/
def Conn.message? (k : Conn) : Option (Frame × Publish) :=
  match k.phase, k.assembler.next with
  | .reading _, .ok (some (f, _)) => k.session.bind fun s => f.message? s.version
  | _, _ => none

namespace Broker

variable {b b' b₁ b₂ : Broker} {c d : ConnId} {t : Task} {m : Move} {e : Event}
  {es : List Event} {seen seen₁ more : List Observation} {log log' : List Deed}

/-! ### The notes of an event -/

/-- Where the task of a connection stands. -/
def phase? (b : Broker) (c : ConnId) : Option Phase := b.conns[c]?.map Conn.phase

/-- A task forwards a message. -/
def isForwarding (b : Broker) (t : Task) : Bool :=
  match b.work? t with
  | some (.spread _) => true
  | _ => false

/-- The pipe takes bytes from a peer. -/
def arrivals (b : Broker) (c : ConnId) (bs : Bytes) : List Deed :=
  match b.conns[c]? with
  | some k =>
    match k.link.up.write bs with
    | .took _ taken _ => [.arrives c taken]
    | _ => []
  | none => []

/-- A session takes a message. -/
def takings (b : Broker) (c : ConnId) (m : Move) : List Deed :=
  if m = .dispatch then
    ((b.conns[c]?.bind Conn.message?).map fun (f, p) => .takes c f p).toList
  else []

/-- A task has written a frame to the end. -/
def completions (b b' : Broker) (t : Task) (seen : List Observation) : List Deed :=
  match b.delivery? t with
  | some d =>
    ((b.lane d.target).completed (b'.lane d.target) t (streamOf d.target seen)).map fun bs =>
      .writes t d.target bs (b.isForwarding t)
  | none => []

/-- A session begins to forward a message. -/
def beginnings (b b' : Broker) (c : ConnId) : List Deed :=
  match b.phase? c, b'.phase? c with
  | some (.forwarding _ _), _ => []
  | _, some (.forwarding _ _) => [.begins c b.registry]
  | _, _ => []

/-- A session that forwards a message looks at the next one. -/
def reachings (b : Broker) (c : ConnId) (m : Move) : List Deed :=
  match b.phase? c with
  | some (.forwarding p o) =>
    if m = .reach then o.left.head?.toList.map fun d => .reaches c d (b.isSubscribed d p.topic)
    else []
  | _ => []

/-- The host is given messages. -/
def handings (seen : List Observation) : List Deed :=
  seen.filterMap fun
    | .message c clientId m => some (.hands c clientId m)
    | _ => none

/-- What is noted of an event. -/
def deeds (b : Broker) (e : Event) (b' : Broker) (seen : List Observation) : List Deed :=
  (match e with
    | .input (.peerWrites c bs) => b.arrivals c bs
    | .move (.task (.conn c) m) =>
      b.takings c m ++ b.completions b' (.conn c) seen ++ b.beginnings b' c ++ b.reachings c m
    | .move (.task (.host n) _) => b.completions b' (.host n) seen
    | _ => []) ++ handings seen

/-- What is noted of a run. -/
def history (b : Broker) (es : List Event) : List Deed := machine.collect deeds b es

/-- The notes of the last event come last. -/
theorem history_concat (h : b.replay es = some (b₁, seen)) (hnext : b₁.next? e = some (b₂, more)) :
    b.history (es ++ [e]) = b.history es ++ b₁.deeds e b₂ more :=
  Machine.collect_concat h hnext

/-! ### Reading the notes -/

/-- What a session has done to forward messages. -/
def forwardings (c : ConnId) (log : List Deed) : List Deed :=
  log.filter fun deed => deed.publisher? = some c

/-- The messages that a session has taken, each with its frame. -/
def messagesOf (c : ConnId) (log : List Deed) : List (Frame × Publish) :=
  log.filterMap (Deed.taken? c)

/-- The bytes that have come from a peer. -/
def arrived (c : ConnId) (log : List Deed) : Bytes := (log.filterMap (Deed.arrived? c)).flatten

/-- The frames that have been written into a stream. -/
def framesInto (d : ConnId) (log : List Deed) : List Bytes := log.filterMap (Deed.frame? d)

/-- The frames that a session has written into a stream for the messages that it forwards. -/
def copies (c d : ConnId) (log : List Deed) : List Bytes := log.filterMap (Deed.copy? c d)

/-- The messages of a session that the host has been given, each with the client id. -/
def handed (c : ConnId) (seen : List Observation) : List (String × Message) :=
  seen.filterMap fun
    | .message c' clientId m => if c' = c then some (clientId, m) else none
    | _ => none

/-! ### What may be noted -/

variable {deed : Deed}

theorem mem_arrivals {bs : Bytes} (h : deed ∈ b.arrivals c bs) : ∃ bs, deed = .arrives c bs := by
  unfold arrivals at h
  split at h
  · split at h
    · exact ⟨_, List.mem_singleton.1 h⟩
    · cases h
  · cases h

theorem mem_takings (h : deed ∈ b.takings c m) : ∃ f p, deed = .takes c f p := by
  unfold takings at h
  split_ifs at h
  · obtain ⟨r, -, rfl⟩ := Option.map_eq_some_iff.1 (Option.mem_toList.1 h)
    exact ⟨_, _, rfl⟩
  · cases h

theorem mem_completions (h : deed ∈ b.completions b' t seen) :
    ∃ d bs, b.delivery? t = some d ∧ deed = .writes t d.target bs (b.isForwarding t) := by
  unfold completions at h
  split at h
  · next d hd =>
    obtain ⟨bs, -, rfl⟩ := List.mem_map.1 h
    exact ⟨d, bs, hd, rfl⟩
  · cases h

theorem mem_beginnings (h : deed ∈ b.beginnings b' c) : deed = .begins c b.registry := by
  unfold beginnings at h
  split at h
  · cases h
  · exact List.mem_singleton.1 h
  · cases h

theorem mem_reachings (h : deed ∈ b.reachings c m) : ∃ d wanted, deed = .reaches c d wanted := by
  unfold reachings at h
  split at h
  · split_ifs at h
    · obtain ⟨d, -, rfl⟩ := List.mem_map.1 h
      exact ⟨_, _, rfl⟩
    · cases h
  · cases h

theorem mem_handings (h : deed ∈ handings seen) : ∃ d clientId m, deed = .hands d clientId m := by
  obtain ⟨o, -, ho⟩ := List.mem_filterMap.1 h
  split at ho
  · cases ho
    exact ⟨_, _, _, rfl⟩
  · cases ho

/-- Who may note what: bytes are of the peer that writes, and nearly all else is of the task that
moves. -/
inductive Notes (b : Broker) (seen : List Observation) : Event → Deed → Prop
  | arrives {c : ConnId} {bs taken : Bytes} :
    Notes b seen (.input (.peerWrites c bs)) (.arrives c taken)
  | takes {c : ConnId} {m : Move} {f : Frame} {p : Publish} :
    Notes b seen (.move (.task (.conn c) m)) (.takes c f p)
  | writes {t : Task} {m : Move} {d : Delivery} {bs : Bytes} : b.delivery? t = some d →
    Notes b seen (.move (.task t m)) (.writes t d.target bs (b.isForwarding t))
  | begins {c : ConnId} {m : Move} : Notes b seen (.move (.task (.conn c) m)) (.begins c b.registry)
  | reaches {c d : ConnId} {m : Move} {wanted : Bool} :
    Notes b seen (.move (.task (.conn c) m)) (.reaches c d wanted)
  | hands {e : Event} {c : ConnId} {clientId : String} {m : Message} :
    .hands c clientId m ∈ handings seen → Notes b seen e (.hands c clientId m)

theorem notes_of_mem_deeds (h : deed ∈ b.deeds e b' seen) : b.Notes seen e deed := by
  have hwrites {t : Task} {m : Move} (h : deed ∈ b.completions b' t seen) :
      b.Notes seen (.move (.task t m)) deed := by
    obtain ⟨d, bs, hd, rfl⟩ := mem_completions h
    exact .writes hd
  unfold deeds at h
  rcases List.mem_append.1 h with h | h
  · split at h
    · obtain ⟨bs, rfl⟩ := mem_arrivals h
      exact .arrives
    · simp only [List.mem_append] at h
      rcases h with ((h | h) | h) | h
      · obtain ⟨f, p, rfl⟩ := mem_takings h
        exact .takes
      · exact hwrites h
      · rw [mem_beginnings h]
        exact .begins
      · obtain ⟨d, wanted, rfl⟩ := mem_reachings h
        exact .reaches
    · exact hwrites h
    · cases h
  · obtain ⟨d, clientId, m, rfl⟩ := mem_handings h
    exact .hands h

/-! ### Looking for notes of one sort -/

variable {α : Type} {g : Deed → Option α}

theorem filterMap_eq_nil (h : ∀ deed ∈ log, g deed = none) : log.filterMap g = [] :=
  List.filterMap_eq_nil_iff.2 h

theorem filterMap_arrivals {bs : Bytes} (hg : ∀ bs, g (.arrives c bs) = none) :
    (b.arrivals c bs).filterMap g = [] := by
  refine filterMap_eq_nil fun deed hdeed => ?_
  obtain ⟨bs, rfl⟩ := mem_arrivals hdeed
  exact hg bs

theorem filterMap_takings (hg : ∀ f p, g (.takes c f p) = none) :
    (b.takings c m).filterMap g = [] := by
  refine filterMap_eq_nil fun deed hdeed => ?_
  obtain ⟨f, p, rfl⟩ := mem_takings hdeed
  exact hg f p

theorem filterMap_completions (hg : ∀ d bs forwarded, g (.writes t d bs forwarded) = none) :
    (b.completions b' t seen).filterMap g = [] := by
  refine filterMap_eq_nil fun deed hdeed => ?_
  obtain ⟨d, bs, -, rfl⟩ := mem_completions hdeed
  exact hg d.target bs _

theorem filterMap_beginnings (hg : ∀ registered, g (.begins c registered) = none) :
    (b.beginnings b' c).filterMap g = [] := by
  refine filterMap_eq_nil fun deed hdeed => ?_
  rw [mem_beginnings hdeed]
  exact hg _

theorem filterMap_reachings (hg : ∀ d wanted, g (.reaches c d wanted) = none) :
    (b.reachings c m).filterMap g = [] := by
  refine filterMap_eq_nil fun deed hdeed => ?_
  obtain ⟨d, wanted, rfl⟩ := mem_reachings hdeed
  exact hg d wanted

theorem filterMap_handings (hg : ∀ d clientId m, g (.hands d clientId m) = none) :
    (handings seen).filterMap g = [] := by
  refine filterMap_eq_nil fun deed hdeed => ?_
  obtain ⟨d, clientId, m, rfl⟩ := mem_handings hdeed
  exact hg d clientId m

/-- What is looked for is not noted of an event. -/
theorem filterMap_deeds_eq_nil (h : ∀ deed, b.Notes seen e deed → g deed = none) :
    (b.deeds e b' seen).filterMap g = [] :=
  filterMap_eq_nil fun deed hdeed => h deed (notes_of_mem_deeds hdeed)

/-- Of the notes of a move, only the frame that it completes is looked for. -/
theorem filterMap_deeds_task (htakes : ∀ c f p, g (.takes c f p) = none)
    (hbegins : ∀ c registered, g (.begins c registered) = none)
    (hreaches : ∀ c d wanted, g (.reaches c d wanted) = none)
    (hhands : ∀ c clientId m, g (.hands c clientId m) = none) :
    (b.deeds (.move (.task t m)) b' seen).filterMap g = (b.completions b' t seen).filterMap g := by
  unfold deeds
  rw [List.filterMap_append, filterMap_handings hhands, List.append_nil]
  cases t with
  | conn c =>
    simp only [List.filterMap_append]
    rw [filterMap_takings (htakes c), filterMap_beginnings (hbegins c),
      filterMap_reachings (hreaches c), List.nil_append, List.append_nil, List.append_nil]
  | host n => rfl

end Broker
end Mqtt
