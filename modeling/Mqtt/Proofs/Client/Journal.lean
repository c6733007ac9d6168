import Mqtt.Proofs.Client.Events
/-!
# The journal of a run

Two states of a client do not say which packet stands behind a frame in the stream, or which filters
were active when a message came, so a run is accompanied by notes (`Client.journal`): which bytes
come from the broker and which frames are taken from them, which packet each party begins to send
and what comes of it, and which messages the reading task is done with.

The notes of one event (`Client.deeds`) are read off the event and the states before and after it.
Nothing in a client depends on them.
-/

namespace Mqtt

/-- What is noted of a run. -/
inductive ClientDeed where
  /-- Bytes come from the broker. -/
  | arrives (bs : Bytes)
  /-- The opening call or the reading task takes a frame. -/
  | takes (f : Frame)
  /-- A party begins to send a packet. -/
  | begins (i : Party) (p : Packet)
  /-- A party has written a frame to the end. -/
  | completes (i : Party) (bs : Bytes)
  /-- The packet of a party cannot be encoded. -/
  | fails (i : Party) (f : Fault)
  /-- A party goes away, and leaves its frame as far as it is. -/
  | quits (i : Party)
  /-- The reading task is done with a message, while these filters are active. -/
  | weighs (p : Publish) (filters : List String)
deriving DecidableEq

/-- The packet that a call sends, if any, under the packet id that it is given. -/
def ClientCall.packet? (id : UInt16) : ClientCall → Option Packet
  | .publish topic payload retain =>
    some (.publish ((Publish.plain topic payload).withRetain retain))
  | .publishAcknowledged topic payload =>
    some (.publish ((Publish.plain topic payload).withQoS .atLeastOnce (some id)))
  | .subscribe wanted => some (.subscribe id wanted)
  | .unsubscribe filters => some (.unsubscribe id filters)
  | .ping => some .pingReq
  | .disconnect => some .disconnect
  | .receive _ => none

/-- The answer that a packet asks for, if any. -/
def Packet.receipt? : Packet → Option Packet
  | .publish p =>
    match p.qos, p.packetId with
    | .atLeastOnce, some id => some (.pubAck id)
    | .exactlyOnce, some id => some (.pubRec id)
    | _, _ => none
  | .pubRel id => some (.pubComp id)
  | _ => none

theorem Packet.Acknowledges.receipt?_eq {p : Publish} {ack : Packet}
    (h : Packet.Acknowledges p ack) : (Packet.publish p).receipt? = some ack := by
  cases h with
  | atLeastOnce hqos hid | exactlyOnce hqos hid => simp [Packet.receipt?, hqos, hid]

theorem Packet.receipt?_publish_eq_none {p : Publish} (h : ∀ ack, ¬Packet.Acknowledges p ack) :
    (Packet.publish p).receipt? = none := by
  unfold Packet.receipt?
  dsimp only
  split
  · next hqos hid => exact absurd (.atLeastOnce hqos hid) (h _)
  · next hqos hid => exact absurd (.exactlyOnce hqos hid) (h _)
  · rfl

namespace ClientDeed

/-- The party that sends a packet when it does this. -/
def party? : ClientDeed → Option Party
  | begins i _ | completes i _ | fails i _ | quits i => some i
  | _ => none

/-- The packet that is begun. -/
def begun? : ClientDeed → Option Packet
  | begins _ p => some p
  | _ => none

/-- What comes of a frame that is laid out. -/
def result? : ClientDeed → Option (Except Fault Bytes)
  | completes _ bs => some (.ok bs)
  | fails _ f => some (.error f)
  | _ => none

/-- The frame that is written to the end. -/
def frame? : ClientDeed → Option Bytes
  | completes _ bs => some bs
  | _ => none

/-- The bytes that come. -/
def arrived? : ClientDeed → Option Bytes
  | arrives bs => some bs
  | _ => none

/-- The frame that is taken. -/
def taken? : ClientDeed → Option Frame
  | takes f => some f
  | _ => none

/-- The message that the reading task is done with, and the filters active then. -/
def weighed? : ClientDeed → Option (Publish × List String)
  | weighs p filters => some (p, filters)
  | _ => none

end ClientDeed

namespace Client

variable {c c' c₁ c₂ : Client} {l l' l₁ l₂ : Link} {e : Event} {es : List Event} {i j : Party}
  {k : Nat} {n : Next} {seen seen₁ more : List ClientObservation} {log : List ClientDeed}
  {v : Version} {d : ClientDeed}

/-! ### The notes of an event -/

/-- The frame in front of whoever waits for one. -/
def frame? (c : Client) : Option Frame :=
  match c.stage, c.reader, c.assembler.next with
  | .awaiting, _, .ok (some (f, _)) | .running, .reading, .ok (some (f, _)) => some f
  | _, _, _ => none

/-- The packet in front of the reading task. -/
def packet? (c : Client) : Option Packet :=
  match c.stage with
  | .running => c.frame?.bind fun f => (Packet.decode c.config.version f).toOption
  | _ => none

theorem frame?_of_malformed {f : Fault} (h : c.assembler.next = .error f) : c.frame? = none := by
  rw [frame?, h]
  rcases c.stage with _ | _ | _ | _ <;> rcases c.reader with _ | _ | _ <;> rfl

theorem packet?_of_not_running (h : c.stage ≠ .running) : c.packet? = none := by
  rw [packet?]
  split
  · next hrunning => exact absurd hrunning h
  · rfl

theorem packet?_of_malformed {f : Fault} (h : c.assembler.next = .error f) : c.packet? = none := by
  rw [packet?, frame?_of_malformed h]
  rcases c.stage with _ | _ | _ | _ <;> rfl

theorem packet?_of_reading {f : Frame} {a : Assembler} (hrunning : c.stage = .running)
    (hreader : c.reader = .reading) (hnext : c.assembler.next = .ok (some (f, a))) :
    c.packet? = (Packet.decode c.config.version f).toOption := by
  simp only [packet?, frame?, hrunning, hreader, hnext]
  rfl

/-- The pipe takes bytes from the broker. -/
def arrivals (l : Link) : Event → List ClientDeed
  | .input (.peerWrites bs) =>
    match l.down.write bs with
    | .took _ taken _ => [.arrives taken]
    | _ => []
  | _ => []

/-- The frame that is taken in an event, if any. -/
def frames (c : Client) : Event → List Frame
  | .move (.party .reader .dispatch) => c.frame?.toList
  | _ => []

/-- The packet that the reading task takes in an event, if any. -/
def packets (c : Client) : Event → List Packet
  | .move (.party .reader .dispatch) => c.packet?.toList
  | _ => []

theorem frames_eq_nil (h : e ≠ .move (.party .reader .dispatch) ∨ c.frame? = none) :
    c.frames e = [] := by
  unfold frames
  split
  · rw [h.resolve_left fun hne => hne rfl]
    rfl
  · rfl

theorem packets_eq_nil (h : e ≠ .move (.party .reader .dispatch) ∨ c.packet? = none) :
    c.packets e = [] := by
  unfold packets
  split
  · rw [h.resolve_left fun hne => hne rfl]
    rfl
  · rfl

/-- A frame is taken. -/
def takings (c : Client) (e : Event) : List ClientDeed := (c.frames e).map .takes

/-- The packet that a party begins to send: a call that is not refused its own, the reading task the
answer to the packet that it takes, and the pinging task a ping. -/
def begun? (c : Client) (e : Event) (c' : Client) : Option Packet :=
  match e with
  | .input (.calls k call) =>
    if c'.calls.contains k then call.packet? (((c'.request? k).map Request.id).getD 0) else none
  | .move (.party .reader .dispatch) => c.packet?.bind Packet.receipt?
  | .move (.party .keeper .wake) => some .pingReq
  | _ => none

/-- A party begins to send a packet. -/
def beginnings (c : Client) (e : Event) (c' : Client) : List ClientDeed :=
  (c.begun? e c').toList.map (.begins e.actor)

/-- A frame is laid out. -/
def Event.isLayOut : Event → Bool
  | .move (.party _ (.send .layOut)) => true
  | _ => false

/-- A party has done with its frame. -/
def endings (c : Client) (e : Event) (n : Next) : List ClientDeed :=
  match c.sending? e.actor, n.1.sending? e.actor with
  | some (.ok bs, .pushing _), none =>
    if streamOf n.2.2 = [] then [.quits e.actor] else [.completes e.actor bs]
  | some (.error f, .inLine), none => if e.isLayOut then [.fails e.actor f] else [.quits e.actor]
  | some _, none => [.quits e.actor]
  | _, _ => []

/-- The reading task is done with a message: at once, or when it has answered it. -/
def weighings (c : Client) (e : Event) (n : Next) : List ClientDeed :=
  match e with
  | .move (.party .reader .dispatch) =>
    match c.packet? with
    | some (.publish p) => if (Packet.publish p).receipt?.isSome then [] else [.weighs p c.filters]
    | _ => []
  | .move (.party .reader (.send _)) =>
    match c.reader with
    | .answering _ _ (some p) =>
      if c.lane.completed n.1.lane .reader (streamOf n.2.2) = [] then [] else [.weighs p c.filters]
    | _ => []
  | _ => []

/-- What is noted of an event. -/
def deeds (c : Client) (l : Link) (e : Event) (n : Next) : List ClientDeed :=
  arrivals l e ++ c.takings e ++ (c.beginnings e n.1 ++ c.endings e n) ++ c.weighings e n

/-- What is noted of a list of events. -/
def history (c : Client) (l : Link) (es : List Event) : List ClientDeed :=
  machine.collect (fun s e s' seen => s.1.deeds s.2 e (s'.1, s'.2, seen)) (c, l) es

/-- What is noted of a run. A client begins with its CONNECT. -/
def journal (c : Client) (l : Link) (es : List Event) : List ClientDeed :=
  .begins .reader (.connect c.config.connect) :: c.history l es

/-- The notes of the last event come last. -/
theorem history_concat (h : c.replay l es = some (c₁, l₁, seen))
    (hevent : c₁.event? l₁ e = some n) :
    c.history l (es ++ [e]) = c.history l es ++ c₁.deeds l₁ e n := by
  obtain ⟨c₂, l₂, more⟩ := n
  rw [history, Machine.collect_concat (replay_eq_some.1 h) (machine_next?_eq_some.2 hevent)]
  rfl

theorem journal_concat (h : c.replay l es = some (c₁, l₁, seen))
    (hevent : c₁.event? l₁ e = some n) :
    c.journal l (es ++ [e]) = c.journal l es ++ c₁.deeds l₁ e n := by
  rw [journal, history_concat h hevent]
  rfl

/-! ### Reading the journal -/

/-- What a party has done to send its packets. -/
def doings (i : Party) (log : List ClientDeed) : List ClientDeed :=
  log.filter fun d => d.party? = some i

/-- The packets that have been begun. -/
def begunOf (log : List ClientDeed) : List Packet := log.filterMap ClientDeed.begun?

/-- The frames that have been written to the end. -/
def framesOf (log : List ClientDeed) : List Bytes := log.filterMap ClientDeed.frame?

/-- The bytes that have come from the broker. -/
def arrived (log : List ClientDeed) : Bytes := (log.filterMap ClientDeed.arrived?).flatten

/-- The frames that have been taken. -/
def taken (log : List ClientDeed) : List Frame := log.filterMap ClientDeed.taken?

/-- The messages that the reading task is done with, each with the filters active then. -/
def weighed (log : List ClientDeed) : List (Publish × List String) :=
  log.filterMap ClientDeed.weighed?

theorem begunOf_append (log more : List ClientDeed) :
    begunOf (log ++ more) = begunOf log ++ begunOf more :=
  List.filterMap_append

theorem framesOf_append (log more : List ClientDeed) :
    framesOf (log ++ more) = framesOf log ++ framesOf more :=
  List.filterMap_append

theorem arrived_append (log more : List ClientDeed) :
    arrived (log ++ more) = arrived log ++ arrived more := by
  rw [arrived, List.filterMap_append, List.flatten_append]
  rfl

theorem taken_append (log more : List ClientDeed) :
    taken (log ++ more) = taken log ++ taken more :=
  List.filterMap_append

theorem weighed_append (log more : List ClientDeed) :
    weighed (log ++ more) = weighed log ++ weighed more :=
  List.filterMap_append

/-! ### What may be noted -/

theorem mem_arrivals (h : d ∈ arrivals l e) : ∃ bs, d = .arrives bs := by
  unfold arrivals at h
  split at h
  · split at h
    · exact ⟨_, List.mem_singleton.1 h⟩
    · cases h
  · cases h

theorem mem_takings (h : d ∈ c.takings e) : ∃ f, d = .takes f := by
  obtain ⟨f, -, rfl⟩ := List.mem_map.1 h
  exact ⟨f, rfl⟩

theorem mem_beginnings (h : d ∈ c.beginnings e c') : ∃ p, d = .begins e.actor p := by
  obtain ⟨p, -, rfl⟩ := List.mem_map.1 h
  exact ⟨p, rfl⟩

theorem mem_weighings (h : d ∈ c.weighings e n) : ∃ p, d = .weighs p c.filters := by
  unfold weighings at h
  split at h
  · split at h
    · split_ifs at h
      · cases h
      · exact ⟨_, List.mem_singleton.1 h⟩
    · cases h
  · split at h
    · split_ifs at h
      · cases h
      · exact ⟨_, List.mem_singleton.1 h⟩
    · cases h
  · cases h

/-- How the sending of a frame can end. -/
inductive Ends (c : Client) (e : Event) (n : Next) :
    Except Fault Bytes → Sending → ClientDeed → Prop
  | completes {bs left : Bytes} : streamOf n.2.2 ≠ [] →
    Ends c e n (.ok bs) (.pushing left) (.completes e.actor bs)
  | fails {f : Fault} : e.isLayOut = true → Ends c e n (.error f) .inLine (.fails e.actor f)
  | quits {frame : Except Fault Bytes} {s : Sending} : Ends c e n frame s (.quits e.actor)

/-- Whoever has done with its frame has ended it in one of these ways. -/
theorem endings_of_none {frame : Except Fault Bytes} {s : Sending}
    (h : c.sending? e.actor = some (frame, s)) (h' : n.1.sending? e.actor = none) :
    ∃ d, c.endings e n = [d] ∧ Ends c e n frame s d := by
  rw [endings, h, h']
  rcases frame with f | bs <;> rcases s with _ | _ | left <;> dsimp only
  case error.inLine =>
    split_ifs with he
    · exact ⟨_, rfl, .fails he⟩
    · exact ⟨_, rfl, .quits⟩
  case ok.pushing =>
    split_ifs with hbs
    · exact ⟨_, rfl, .quits⟩
    · exact ⟨_, rfl, .completes hbs⟩
  all_goals exact ⟨_, rfl, .quits⟩

/-- Whoever sends on, and whoever has nothing to send, ends nothing. -/
theorem endings_eq_nil (h : c.sending? e.actor = none ∨ ∃ x, n.1.sending? e.actor = some x) :
    c.endings e n = [] := by
  rw [endings]
  rcases h with h | ⟨x, h⟩
  · rw [h]
  · rw [h]
    rcases c.sending? e.actor with _ | ⟨_ | _, _ | _ | _⟩ <;> rfl

theorem mem_endings (h : d ∈ c.endings e n) : d.party? = some e.actor ∧
    d.arrived? = none ∧ d.taken? = none ∧ d.weighed? = none ∧ d.begun? = none := by
  rcases hbefore : c.sending? e.actor with _ | ⟨frame, s⟩
  · rw [endings_eq_nil (.inl hbefore)] at h
    cases h
  rcases hafter : n.1.sending? e.actor with _ | x
  · obtain ⟨d', hd', hends⟩ := endings_of_none hbefore hafter
    rw [hd', List.mem_singleton] at h
    subst h
    cases hends <;> exact ⟨rfl, rfl, rfl, rfl, rfl⟩
  · rw [endings_eq_nil (.inr ⟨x, hafter⟩)] at h
    cases h

/-! ### Looking for notes of one sort -/

theorem doings_append (log more : List ClientDeed) :
    doings i (log ++ more) = doings i log ++ doings i more :=
  List.filter_append ..

theorem doings_journal_nil : doings i (c.journal l []) =
    if i = .reader then [.begins .reader (.connect c.config.connect)] else [] := by
  rw [doings, journal, history]
  cases i <;> rfl

/-- Only the one who acts is noted to send anything. -/
theorem doings_deeds : doings i (c.deeds l e n) =
    if i = e.actor then c.beginnings e n.1 ++ c.endings e n else [] := by
  -- What comes in belongs to no party.
  have hnone {log : List ClientDeed} (h : ∀ d ∈ log, d.party? = none) : doings i log = [] := by
    refine List.filter_eq_nil_iff.2 fun d hd => ?_
    rw [h d hd]
    nofun
  have harrivals : doings i (arrivals l e) = [] := hnone fun d hd => by
    obtain ⟨bs, rfl⟩ := mem_arrivals hd
    rfl
  have htakings : doings i (c.takings e) = [] := hnone fun d hd => by
    obtain ⟨f, rfl⟩ := mem_takings hd
    rfl
  have hweighings : doings i (c.weighings e n) = [] := hnone fun d hd => by
    obtain ⟨p, rfl⟩ := mem_weighings hd
    rfl
  -- What is sent is noted in the name of the one who acts.
  have hparty : ∀ d ∈ c.beginnings e n.1 ++ c.endings e n, d.party? = some e.actor := by
    intro d hd
    rcases List.mem_append.1 hd with hd | hd
    · obtain ⟨p, rfl⟩ := mem_beginnings hd
      rfl
    · exact (mem_endings hd).1
  have hown : doings i (c.beginnings e n.1 ++ c.endings e n) =
      if i = e.actor then c.beginnings e n.1 ++ c.endings e n else [] := by
    split_ifs with hi
    · exact List.filter_eq_self.2 fun d hd => by rw [hparty d hd, hi, decide_eq_true_eq]
    · refine List.filter_eq_nil_iff.2 fun d hd => ?_
      rw [hparty d hd, decide_eq_true_eq, Option.some.injEq]
      exact Ne.symm hi
  rw [deeds, doings_append, doings_append, doings_append, harrivals, htakings, hweighings, hown,
    List.append_nil]
  rfl

/-- What is noted of a party beyond what it begins is how it has done with its frame. -/
theorem mem_endings_of_mem_deeds (h : d ∈ c.deeds l e n) (hparty : d.party? = some i)
    (hbegins : ∀ p, d ≠ .begins i p) : i = e.actor ∧ d ∈ c.endings e n := by
  have hd : d ∈ doings i (c.deeds l e n) :=
    List.mem_filter.2 ⟨h, by rw [hparty, decide_eq_true_eq]⟩
  rw [doings_deeds] at hd
  split_ifs at hd with hi
  · refine ⟨hi, (List.mem_append.1 hd).resolve_left fun h => ?_⟩
    obtain ⟨p, rfl⟩ := mem_beginnings h
    exact hbegins p (hi ▸ rfl)
  · cases hd

variable {α : Type} {g : ClientDeed → Option α}

theorem filterMap_arrivals (hg : ∀ bs, g (.arrives bs) = none) :
    (arrivals l e).filterMap g = [] := by
  refine List.filterMap_eq_nil_iff.2 fun d hd => ?_
  obtain ⟨bs, rfl⟩ := mem_arrivals hd
  exact hg bs

theorem filterMap_takings (hg : ∀ f, g (.takes f) = none) : (c.takings e).filterMap g = [] := by
  refine List.filterMap_eq_nil_iff.2 fun d hd => ?_
  obtain ⟨f, rfl⟩ := mem_takings hd
  exact hg f

theorem filterMap_beginnings (hg : ∀ i p, g (.begins i p) = none) :
    (c.beginnings e c').filterMap g = [] := by
  refine List.filterMap_eq_nil_iff.2 fun d hd => ?_
  obtain ⟨p, rfl⟩ := mem_beginnings hd
  exact hg _ p

theorem filterMap_weighings (hg : ∀ p filters, g (.weighs p filters) = none) :
    (c.weighings e n).filterMap g = [] := by
  refine List.filterMap_eq_nil_iff.2 fun d hd => ?_
  obtain ⟨p, rfl⟩ := mem_weighings hd
  exact hg p _

theorem filterMap_deeds : (c.deeds l e n).filterMap g =
    (arrivals l e).filterMap g ++ (c.takings e).filterMap g ++
      ((c.beginnings e n.1).filterMap g ++ (c.endings e n).filterMap g) ++
      (c.weighings e n).filterMap g := by
  rw [deeds, List.filterMap_append, List.filterMap_append, List.filterMap_append,
    List.filterMap_append]

/-- Bytes come where the broker writes. -/
theorem arrived_deeds : arrived (c.deeds l e n) = arrived (arrivals l e) := by
  have hendings : (c.endings e n).filterMap ClientDeed.arrived? = [] :=
    List.filterMap_eq_nil_iff.2 fun d hd => (mem_endings hd).2.1
  rw [arrived, filterMap_deeds, filterMap_takings fun _ => rfl, filterMap_beginnings fun _ _ => rfl,
    hendings, filterMap_weighings fun _ _ => rfl]
  simp only [List.append_nil]
  rfl

theorem taken_deeds : taken (c.deeds l e n) = c.frames e := by
  have hendings : (c.endings e n).filterMap ClientDeed.taken? = [] :=
    List.filterMap_eq_nil_iff.2 fun d hd => (mem_endings hd).2.2.1
  rw [taken, filterMap_deeds, filterMap_arrivals fun _ => rfl, filterMap_beginnings fun _ _ => rfl,
    hendings, filterMap_weighings fun _ _ => rfl, takings, List.filterMap_map]
  simp only [List.append_nil, List.nil_append]
  exact List.filterMap_some

theorem weighed_deeds : weighed (c.deeds l e n) = weighed (c.weighings e n) := by
  have hendings : (c.endings e n).filterMap ClientDeed.weighed? = [] :=
    List.filterMap_eq_nil_iff.2 fun d hd => (mem_endings hd).2.2.2.1
  rw [weighed, filterMap_deeds, filterMap_arrivals fun _ => rfl, filterMap_takings fun _ => rfl,
    filterMap_beginnings fun _ _ => rfl, hendings]
  rfl

/-- The frame that is noted to be complete is the one that the step at the lane completes. -/
theorem framesOf_deeds :
    framesOf (c.deeds l e n) = c.lane.completed n.1.lane e.actor (streamOf n.2.2) := by
  rw [framesOf, filterMap_deeds, filterMap_arrivals fun _ => rfl, filterMap_takings fun _ => rfl,
    filterMap_beginnings fun _ _ => rfl, filterMap_weighings fun _ _ => rfl, List.append_nil]
  have hlane (c : Client) : c.lane.sending e.actor = c.sending? e.actor := rfl
  show (c.endings e n).filterMap ClientDeed.frame? = _
  rw [Lane.completed, hlane, hlane, endings]
  rcases c.sending? e.actor with _ | ⟨_ | _, _ | _ | _⟩ <;>
    rcases n.1.sending? e.actor with _ | _ <;>
    dsimp only <;> (try split_ifs) <;> rfl

end Client
end Mqtt
