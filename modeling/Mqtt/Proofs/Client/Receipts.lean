import Mqtt.Proofs.Client.Inbox
import Mqtt.Proofs.Client.Transcript
import Mqtt.Proofs.Packet.Canonical
/-!
# What a client makes of what the broker sends

Whatever the broker sends behind its CONNACK, in pieces of any size, and whatever the program does
meanwhile, every message above level 0 and every PUBREL is answered, in the order in which they
come, and every message that some filter wants is received once (`relays_of_replay`).

* `begun_of_replay`: the reading task begins with the CONNECT, and then sends answers and nothing
  else; nobody else sends answers (`others_of_replay`).
* `written_of_replay`: so what it has written are the answers to the packets that it has taken,
  unless it breaks one off.
* `not_breaksOff_of_replay`: that comes of a token that is cancelled under it, or of a stream that
  is closed.
* `order_of_replay`: a message is not passed on only where its answer is broken off.
-/

namespace Mqtt

/-- Whether packets of this kind answer a message. -/
def PacketKind.isReceipt : PacketKind → Bool
  | .pubAck | .pubRec | .pubComp => true
  | _ => false

/-- Whether some bytes begin like the frame of an answer to a message. -/
def Bytes.isReceipt : Bytes → Bool
  | [] => false
  | header :: _ =>
    match PacketKind.ofHeader header with
    | .ok k => k.isReceipt
    | .error _ => false

namespace Packet

variable {v : Version} {p ack : Packet} {bs : Bytes}

theorem isReceipt_of_toBytes (h : p.toBytes v = .ok bs) :
    Bytes.isReceipt bs = p.kind.isReceipt := by
  obtain ⟨-, rfl⟩ := toBytes_eq_ok.1 h
  show (match PacketKind.ofHeader p.header with
    | .ok k => k.isReceipt
    | .error _ => false) = _
  rw [ofHeader_header]

/-- The answers to messages can always be encoded. -/
theorem toBytes_of_receipt? (h : p.receipt? = some ack) :
    ack.toBytes v = .ok (ack.frame v).bytes ∧ ack.kind.isReceipt = true := by
  have hid {q : Packet} {id : UInt16} (hsound : q.Sound) (hfields : q.fields = [])
      (hbody : q.body v = Bytes.ofUInt16 id) : q.toBytes v = .ok (q.frame v).bytes := by
    refine toBytes_eq_ok.2 ⟨⟨hsound, by simp [hfields], ?_⟩, rfl⟩
    rw [hbody]
    show 2 ≤ _
    decide
  unfold receipt? at h
  split at h
  · split at h <;> cases h
    · exact ⟨hid trivial rfl rfl, rfl⟩
    · exact ⟨hid trivial rfl rfl, rfl⟩
  · cases h
    exact ⟨hid trivial rfl rfl, rfl⟩
  · cases h

/-- The answer that a message asks for. -/
theorem receipt?_of_decode {f : Frame} {p : Publish} (h : decode v f = .ok (.publish p)) :
    p.qos = .atMostOnce ∧ (publish p).receipt? = none ∨
      ∃ id, p.packetId = some id ∧
        (p.qos = .atLeastOnce ∧ (publish p).receipt? = some (.pubAck id) ∨
          p.qos = .exactlyOnce ∧ (publish p).receipt? = some (.pubRec id)) := by
  have hid := packetId_of_decode h
  rcases hqos : p.qos with _ | _ | _
  · exact .inl ⟨rfl, by simp [receipt?, hqos]⟩
  all_goals
    rw [hqos] at hid
    obtain ⟨id, hid⟩ := Option.isSome_iff_exists.1 hid.symm
    refine .inr ⟨id, hid, ?_⟩
    simp [receipt?, hqos, hid]

end Packet
namespace Client

variable {c c' c₁ c₂ : Client} {l l' l₁ l₂ : Link} {e : Event} {es : List Event} {i : Party}
  {k : Nat}
  {n : Next} {seen : List ClientObservation} {log : List ClientDeed} {v : Version} {p : Packet}

/-! ### What the reading task begins to send -/

theorem begunOf_beginnings : begunOf (c.beginnings e c') = (c.begun? e c').toList := by
  rw [beginnings, begunOf, List.filterMap_map]
  exact List.filterMap_some

/-- The reading task answers the packets that it takes. -/
theorem begunOf_deeds :
    begunOf (doings .reader (c.deeds l e n)) = (c.packets e).filterMap Packet.receipt? := by
  have hendings : begunOf (c.endings e n) = [] :=
    List.filterMap_eq_nil_iff.2 fun d hd => (mem_endings hd).2.2.2.2
  have hown (hactor : e.actor = .reader) :
      (c.begun? e n.1).toList = (c.packets e).filterMap Packet.receipt? := by
    unfold begun? packets
    split
    · cases hactor
    · rcases c.packet? with _ | p
      · rfl
      · rcases hreceipt : p.receipt? with _ | ack <;> simp [hreceipt]
    · cases hactor
    · next h _ =>
      split
      · exact absurd rfl (h ·)
      · rfl
  rw [doings_deeds]
  split_ifs with hactor
  · rw [begunOf_append, begunOf_beginnings, hendings, List.append_nil, hown hactor.symm]
  · rw [packets_eq_nil (.inl fun h => hactor (congrArg Event.actor h).symm)]
    rfl

theorem begun_of_replay (hb : Begins c l) (h : c.replay l es = some (c', l', seen)) :
    begunOf (doings .reader (c.journal l es)) = .connect c.config.connect ::
      (packetsOf c.config.version (c.journal l es)).filterMap Packet.receipt? := by
  refine replay_induction (P := fun es _ _ _ => begunOf (doings .reader (c.journal l es)) =
    .connect c.config.connect ::
      (packetsOf c.config.version (c.journal l es)).filterMap Packet.receipt?) rfl ?_ h
  intro es e c₁ l₁ seen₁ c₂ l₂ more hrun hevent ih
  rw [journal_concat hrun hevent, doings_append, begunOf_append, begunOf_deeds, ih,
    packetsOf_concat (greeted_of_replay hb hrun) (congrArg _ (stays_of_replay hrun).config),
    List.filterMap_append, List.cons_append]

/-- Nobody else answers messages. -/
theorem isReceipt_of_begins (hmem : .begins i p ∈ c.deeds l e n) (hi : i ≠ .reader) :
    p.kind.isReceipt = false := by
  have hd : .begins i p ∈ doings i (c.deeds l e n) :=
    List.mem_filter.2 ⟨hmem, by simp [ClientDeed.party?]⟩
  rw [doings_deeds] at hd
  split_ifs at hd with hactor
  · rcases List.mem_append.1 hd with hd | hd
    · obtain ⟨q, hq, heq⟩ := List.mem_map.1 hd
      obtain ⟨-, rfl⟩ : e.actor = i ∧ q = p := by simpa using heq
      rw [Option.mem_toList, begun?.eq_def] at hq
      split at hq
      · next call _ =>
        split_ifs at hq
        cases call <;> cases hq <;> rfl
      · exact absurd hactor hi
      · cases hq
        rfl
      · cases hq
    · cases (mem_endings hd).2.2.2.2
  · cases hd

theorem others_of_replay (h : c.replay l es = some (c', l', seen))
    (hmem : .begins i p ∈ c.journal l es) (hi : i ≠ .reader) : p.kind.isReceipt = false := by
  revert hmem
  refine replay_induction (P := fun es _ _ _ => .begins i p ∈ c.journal l es →
    p.kind.isReceipt = false) (fun hmem => ?_) ?_ h
  · cases List.mem_singleton.1 hmem
    exact absurd rfl hi
  · intro es e c₁ l₁ seen₁ c₂ l₂ more hrun hevent ih hmem
    rw [journal_concat hrun hevent] at hmem
    exact (List.mem_append.1 hmem).elim ih fun hmem => isReceipt_of_begins hmem hi

/-! ### What it has written -/

/-- The frame that the reading task is sending, or the opening call. -/
def underway (c : Client) : List Bytes :=
  match c.sending? .reader with
  | some (.ok bs, _) => [bs]
  | _ => []

/-- The answers that have been written are among the frames of the reading task. -/
theorem filter_framesOf {log : List ClientDeed} (hothers : ∀ i bs, .completes i bs ∈ log →
      i ≠ .reader → Bytes.isReceipt bs = false) :
    (framesOf log).filter Bytes.isReceipt =
      (framesOf (doings .reader log)).filter Bytes.isReceipt := by
  rw [framesOf, framesOf, doings, List.filter_filterMap, List.filterMap_filter,
    List.filter_filterMap]
  refine List.filterMap_congr fun d hd => ?_
  rcases hframe : d.frame? with _ | bs
  · split_ifs <;> rfl
  · split_ifs with hreader
    · rfl
    · -- It is a frame of somebody else.
      cases d with
      | completes i bs =>
        cases hframe
        have hnot := hothers i bs hd fun hi => hreader (by simp [ClientDeed.party?, hi])
        simp [hnot]
      | _ => cases hframe

theorem mem_begunOf : p ∈ begunOf (doings i log) ↔ .begins i p ∈ log := by
  rw [begunOf, doings, List.mem_filterMap]
  constructor
  · rintro ⟨d, hd, hp⟩
    obtain ⟨hmem, hparty⟩ := List.mem_filter.1 hd
    cases d with
    | begins j q =>
      cases hp
      obtain rfl : j = i := by simpa [ClientDeed.party?] using hparty
      exact hmem
    | _ => cases hp
  · exact fun h => ⟨_, List.mem_filter.2 ⟨h, by simp [ClientDeed.party?]⟩, rfl⟩

/-- What the reading task sends can be encoded. -/
theorem exists_bytes_of_begins (hb : Begins c l) (h : c.replay l es = some (c', l', seen))
    (hmem : .begins .reader p ∈ c.journal l es) : ∃ bs, p.toBytes c.config.version = .ok bs := by
  rw [← mem_begunOf, begun_of_replay hb h] at hmem
  rcases List.mem_cons.1 hmem with rfl | hmem
  · cases hb with
    | intro hconnect =>
      obtain ⟨bs, hbytes, rfl⟩ := connect_eq_ok hconnect
      exact ⟨bs, hbytes⟩
  · obtain ⟨q, -, hreceipt⟩ := List.mem_filterMap.1 hmem
    exact ⟨_, (Packet.toBytes_of_receipt? hreceipt).1⟩

/-- **What the reading task has written**, and is writing: the CONNECT, and an answer to each packet
that asks for one, in the order in which they came. -/
theorem written_of_replay (hb : Begins c l) (h : c.replay l es = some (c', l', seen))
    (hgoes : c.Never l es (BreaksOff .reader)) :
    ∃ connect, (Packet.connect c.config.connect).toBytes c.config.version = .ok connect ∧
      framesOf (doings .reader (c.journal l es)) ++ c'.underway = connect ::
        ((packetsOf c.config.version (c.journal l es)).filterMap Packet.receipt?).map
          fun p => (p.frame c.config.version).bytes := by
  have hmem {d : ClientDeed} (hd : d ∈ doings .reader (c.journal l es)) : d ∈ c.journal l es :=
    List.mem_of_mem_filter hd
  obtain ⟨o, hturn, ho⟩ := turns_of_replay hb h .reader
  have hfails (f : Fault) : .fails .reader f ∉ doings .reader (c.journal l es) := by
    intro hd
    obtain ⟨p, hp, hbytes⟩ := hturn.exists_of_mem hd rfl
    obtain ⟨bs, hok⟩ := exists_bytes_of_begins hb h (hmem hp)
    rw [hok] at hbytes
    cases hbytes
  have hwritten := hturn.written (fun hd => not_quits_of_replay hb h hgoes (hmem hd)) hfails
  -- What is being sent is what was begun last.
  have hunderway : (o.map (Packet.toBytes c.config.version)).toList = c'.underway.map .ok := by
    rw [← ho, underway]
    rcases hi : c'.sending? .reader with _ | ⟨f | bs, s⟩
    · rfl
    · rw [hi] at ho
      obtain ⟨p, rfl, hp⟩ := Option.map_eq_some_iff.1 ho.symm
      obtain ⟨bs, hok⟩ := exists_bytes_of_begins hb h (hmem hturn.begins_mem)
      rw [hok] at hp
      cases hp
    · rfl
  obtain ⟨connect, hconnect⟩ := exists_bytes_of_begins hb h
    (mem_begunOf.1 (begun_of_replay hb h ▸ List.mem_cons_self))
  have hinjective : Function.Injective (Except.ok : Bytes → Except Fault Bytes) :=
    fun _ _ => Except.ok.inj
  refine ⟨connect, hconnect, List.map_injective_iff.2 hinjective ?_⟩
  rw [List.map_append, ← hunderway, ← hwritten, begun_of_replay hb h, List.map_cons, List.map_cons,
    hconnect, List.map_map]
  refine congrArg _ (List.map_congr_left fun p hp => ?_)
  obtain ⟨q, -, hreceipt⟩ := List.mem_filterMap.1 hp
  exact (Packet.toBytes_of_receipt? hreceipt).1

/-! ### Nothing is lost -/

/-- The reading task does not leave an answer, unless it breaks that off. -/
theorem Happens.not_leaves (h : Happens c l e n) (hw : c.Wired)
    (hsound : ∀ f s, c.sending? .reader ≠ some (.error f, s)) (hgoes : ¬BreaksOff .reader c l e) :
    ¬Leaves c e n := by
  rintro ⟨hactor, ⟨frame, s, hi⟩, hgone, hseen⟩
  rw [← hactor] at hi hgone hgoes
  rcases (h.over hw.orderly hi hgone).resolve_left hgoes with ⟨f, rfl, -, -⟩ | rfl
  · exact hsound f s (hactor ▸ hi)
  · exact (hw.exclusive.part _ _ _ hi).1 hseen

theorem reader_sound_of_replay (hb : Begins c l) (h : c.replay l es = some (c', l', seen))
    (f : Fault)
    (s : Sending) : c'.sending? .reader ≠ some (.error f, s) := by
  intro hi
  obtain ⟨o, hturn, ho⟩ := turns_of_replay hb h .reader
  rw [hi] at ho
  obtain ⟨p, rfl, hp⟩ := Option.map_eq_some_iff.1 ho.symm
  obtain ⟨bs, hok⟩ := exists_bytes_of_begins hb h (List.mem_of_mem_filter hturn.begins_mem)
  rw [hok] at hp
  cases hp

/-- **Every message is dealt with**, in the order in which they come, if no answer is broken off. -/
theorem order_of_replay (hb : Begins c l) (h : c.replay l es = some (c', l', seen))
    (hgoes : c.Never l es (BreaksOff .reader)) :
    (weighed (c.journal l es)).map Prod.fst ++ c'.pending =
      publishesOf (packetsOf c.config.version (c.journal l es)) := by
  refine replay_induction (P := fun es c' _ _ => c.Never l es (BreaksOff .reader) →
    (weighed (c.journal l es)).map Prod.fst ++ c'.pending =
      publishesOf (packetsOf c.config.version (c.journal l es))) (fun _ => ?_) ?_ h hgoes
  · cases hb with
    | intro hconnect =>
      obtain ⟨bs, -, rfl⟩ := connect_eq_ok hconnect
      rfl
  · intro es e c₁ l₁ seen₁ c₂ l₂ more hrun hevent ih hgoes
    have hhappens := happens_of_event? hevent
    have hw := wired_of_replay hb.wired hrun
    rw [journal_concat hrun hevent, weighed_append, weighed_deeds,
      packetsOf_concat (greeted_of_replay hb hrun) (congrArg _ (stays_of_replay hrun).config),
      publishesOf_append]
    refine ((hhappens.attends.digests hw).order
      (ih (hgoes.upTo (List.prefix_append ..)))).resolve_right fun hleaves => ?_
    exact hhappens.not_leaves hw (reader_sound_of_replay hb hrun) (hgoes.last hrun) hleaves.1

/-- The token is cancelled while the reading task has not ended. -/
def Interrupts (c : Client) (_ : Link) (_ : Event) : Prop := c.cancelled = true ∧ c.reader ≠ .over

/-- An answer is broken off only if the token is cancelled under it, or the stream is closed. -/
theorem not_breaksOff_of_replay (h : c.replay l es = some (c', l', seen))
    (hgoes : c.Never l es Interrupts) (hwrites : c.Never l es FailsWrite) :
    c.Never l es (BreaksOff .reader) := by
  rw [never_iff] at hgoes hwrites ⊢
  intro es₁ e c₁ l₁ seen₁ hes hrun hbreaks
  cases hbreaks with
  | dropped hi => cases hi
  | broken hclosed => exact hwrites _ _ _ _ _ hes hrun ⟨hclosed, .reader, rfl⟩
  | cancelled hcancelled =>
    -- A reading task that has ended has nothing to give up.
    have hover : c₁.reader = .over := by
      by_contra hne
      exact hgoes _ _ _ _ _ hes hrun ⟨hcancelled, hne⟩
    obtain ⟨n, hevent⟩ := exists_event?_of_prefix h hes hrun
    cases happens_of_event? hevent with
    | moves hstep =>
      cases step_cases hstep with
      | opening hopens =>
        cases hopens with
        | fails hfails => cases hfails
      | reader _ hreads => exact hreads.reader_ne_over hover

/-! ### What has been written -/

/-- **The answers in the stream** are those to the packets that have been taken, in this order. -/
theorem receipts_of_replay (hb : Begins c l) (h : c.replay l es = some (c', l', seen))
    (hgoes : c.Never l es (BreaksOff .reader)) :
    (framesOf (c.journal l es) ++ c'.underway).filter Bytes.isReceipt =
      ((packetsOf c.config.version (c.journal l es)).filterMap Packet.receipt?).map
        fun p => (p.frame c.config.version).bytes := by
  -- No other party sends an answer, so what is filtered out is what the others have written.
  have hothers (i : Party) (bs : Bytes) (hmem : .completes i bs ∈ c.journal l es)
      (hi : i ≠ .reader) : Bytes.isReceipt bs = false := by
    obtain ⟨o, hturn, -⟩ := turns_of_replay hb h i
    have hdoings : .completes i bs ∈ doings i (c.journal l es) :=
      List.mem_filter.2 ⟨hmem, by simp [ClientDeed.party?]⟩
    obtain ⟨p, hp, hbytes⟩ := hturn.exists_of_mem hdoings rfl
    rw [Packet.isReceipt_of_toBytes hbytes]
    exact others_of_replay h (List.mem_of_mem_filter hp) hi
  -- The reading task has written the CONNECT, and behind it one answer after the other.
  obtain ⟨connect, hconnect, hwritten⟩ := written_of_replay hb h hgoes
  have hfirst : ¬Bytes.isReceipt connect = true := by
    rw [Packet.isReceipt_of_toBytes hconnect]
    exact Bool.false_ne_true
  rw [List.filter_append, filter_framesOf hothers, ← List.filter_append, hwritten,
    List.filter_cons_of_neg hfirst, List.filter_eq_self]
  intro bs hbs
  obtain ⟨p, hp, rfl⟩ := List.mem_map.1 hbs
  obtain ⟨q, -, hreceipt⟩ := List.mem_filterMap.1 hp
  obtain ⟨hbytes, hkind⟩ := Packet.toBytes_of_receipt? (v := c.config.version) hreceipt
  exact (Packet.isReceipt_of_toBytes hbytes).trans hkind

/-- A message above level 0 asks for an answer. -/
theorem receipt?_of_mem {p : Publish} (hp : p ∈ publishesOf (packetsOf v log)) :
    p.qos = .atMostOnce ∧ (Packet.publish p).receipt? = none ∨ ∃ id, p.packetId = some id ∧
      (p.qos = .atLeastOnce ∧ (Packet.publish p).receipt? = some (.pubAck id) ∨
        p.qos = .exactlyOnce ∧ (Packet.publish p).receipt? = some (.pubRec id)) := by
  obtain ⟨q, hq, hpublish⟩ := List.mem_filterMap.1 hp
  obtain ⟨f, -, hdecode⟩ := List.mem_filterMap.1 hq
  rcases hresult : Packet.decode v f with e | q'
  · rw [hresult] at hdecode
    cases hdecode
  · rw [hresult] at hdecode
    cases hdecode
    cases q with
    | publish q =>
      cases hpublish
      exact Packet.receipt?_of_decode hresult
    | _ => cases hpublish

/-! ### Every run -/

/-- What a client makes of what the broker sends, by the journal of the run. -/
structure Relays (c : Client) (l : Link) (es : List Event) (log : List ClientDeed) (c' : Client)
    (l' : Link) (seen : List ClientObservation) : Prop where
  /-- Whole frames are taken in the order in which they come, however they are cut into reads. -/
  whole : taken log <+: (Frame.split c.config.maxPacketSize.toNat (arrived log)).1
  /-- The first one is a CONNACK that accepts, if the session has been opened. -/
  greeted : c'.isOpen = true ∨ (taken log).tail ≠ [] →
    ∃ g, (taken log).head? = some g ∧ Welcomes c.config.version g
  /-- The packets of a broker that sends whole packets are taken as they are sent. -/
  sent : ∀ (a : ConnAck) (ps : List Packet),
    (∀ p ∈ .connAck a :: ps, p.WellFormed c.config.version ∧
      (p.frame c.config.version).bytes.length ≤ c.config.maxPacketSize.toNat) →
    arrived log <+: (.connAck a :: ps).flatMap (fun p => (p.frame c.config.version).bytes) →
    packetsOf c.config.version log <+: ps.map (Packet.carried c.config.version)
  /-- Every message above level 0 asks for an answer. -/
  asks : ∀ p ∈ publishesOf (packetsOf c.config.version log),
    p.qos = .atMostOnce ∧ (Packet.publish p).receipt? = none ∨ ∃ id, p.packetId = some id ∧
      (p.qos = .atLeastOnce ∧ (Packet.publish p).receipt? = some (.pubAck id) ∨
        p.qos = .exactlyOnce ∧ (Packet.publish p).receipt? = some (.pubRec id))
  /-- The answers among the frames that have been written, and the one that is being written, are
  those to the packets that have been taken. -/
  receipts : c.Never l es (BreaksOff .reader) →
    (framesOf log ++ c'.underway).filter Bytes.isReceipt =
      ((packetsOf c.config.version log).filterMap Packet.receipt?).map
        fun p => (p.frame c.config.version).bytes
  /-- No answer is broken off where the token is not cancelled before the reading task has ended,
  and no write fails. -/
  unbroken : c'.cancelled = false ∨ c.Never l es Interrupts → c.Never l es FailsWrite →
    c.Never l es (BreaksOff .reader)
  /-- The stream is the frames that have been written, and behind them a part of the one that is
  being written. -/
  stream : c'.cancelled = false → c.Never l es FailsWrite → c.Never l es Abandons →
    ∃ part, streamOf seen = (framesOf log).flatten ++ part ∧ (part = [] ∨
      ∃ i left, c'.sending? i = some (.ok (part ++ left), .pushing left))
  /-- The reading task is done with the messages in the order in which they come, and with all of
  them but the one that it is answering. -/
  order : c.Never l es (BreaksOff .reader) →
    (weighed log).map Prod.fst ++ c'.pending = publishesOf (packetsOf c.config.version log)
  inOrder : (weighed log).map Prod.fst <+: publishesOf (packetsOf c.config.version log)
  /-- Those that some filter wanted have been received, in this order and each once, or are in the
  inbox. -/
  inbox : c'.dropped = false → received seen ++ c'.inbox = wanted (weighed log)
  inboxInOrder : received seen ++ c'.inbox <+: wanted (weighed log)
  /-- What a call receives is the oldest message in the inbox, and it fails only if there is none
  and none will come. -/
  answers : ∀ e n k deadline entered a, c'.event? l' e = some n →
    c'.calls[k]? = some (Call.receive deadline entered) → .answered k a ∈ n.2.2 →
    Receives c' k deadline a
  /-- Once the reading task has ended and the inbox is empty, every call that receives fails,
  whenever it has begun. One that has a deadline may come to that while another one is in front of
  it. -/
  exhausted : c'.isOpen = true → c'.reader = .over → c'.inbox = [] →
    ∀ es₂ c₂ l₂ seen₂, c'.replay l' es₂ = some (c₂, l₂, seen₂) →
      received seen₂ = [] ∧ ∀ e n k deadline entered a, c₂.event? l₂ e = some n →
        c₂.calls[k]? = some (Call.receive deadline entered) → .answered k a ∈ n.2.2 →
        a = .failed .connectionClosed ∨
          a = .message none ∧ deadline ≠ none ∧ c₂.receivers.holds k = false
  /-- Where nothing can move, a reading task has taken all that has come, and waits for more, or has
  ended, unless there is no room in the stream. -/
  settled : c'.isOpen = true → c'.Quiescent l' → l'.up.closed = true ∨ l'.up.free ≠ 0 →
    c'.reader = .reading ∧ c'.cancelled = false ∧ l'.down.closed = false ∧
        taken log = (Frame.split c.config.maxPacketSize.toNat (arrived log)).1 ∨
      c'.reader = .over
  /-- Once it has ended, no call waits for a message for ever. -/
  drained : c'.isOpen = true → c'.reader = .over → c'.Quiescent l' →
    ∀ (k : Nat) deadline entered, c'.calls[k]? ≠ some (Call.receive deadline entered)

/-- **Every message is answered and passed on**, in the order in which they come, however the stream
is cut and whatever else the client does meanwhile. -/
theorem relays_of_replay (hb : Begins c l) (h : c.replay l es = some (c', l', seen)) :
    Relays c l es (c.journal l es) c' l' seen := by
  have hconfig := (stays_of_replay h).config
  have hread := hasRead_of_replay hb h
  have hgreeted := greeted_of_replay hb h
  have hsorts := sorts_of_replay hb h
  have hkept := kept_of_replay hb.kept h
  constructor
  case whole =>
    obtain ⟨bytes, hbytes, hkept⟩ := hread.kept
    rw [hconfig] at hkept
    rw [hbytes]
    exact hkept.isPrefix_split _
  case greeted =>
    intro hwelcome
    rw [← hconfig]
    exact hgreeted.welcome (hwelcome.imp_left isOpen_iff.1)
  case sent =>
    intro a ps hps harrived
    refine packetsOf_isPrefix hread ?_ harrived
    rw [hconfig]
    exact hps
  case asks =>
    intro p hp
    exact receipt?_of_mem hp
  case receipts => exact receipts_of_replay hb h
  case unbroken =>
    rintro (hcancelled | hgoes) hwrites
    · exact never_breaksOff h hcancelled hwrites (.inl rfl)
    · exact not_breaksOff_of_replay h hgoes hwrites
  case stream =>
    intro hcancelled hwrites hkeeps
    obtain ⟨connect, hconnect, hstart⟩ := hb.tidy
    -- Nothing is broken off, so the stream is whole frames and a part.
    have htidy := tidy_of_replay hb hconnect hstart h fun _ =>
      never_breaksOff h hcancelled hwrites (.inr hkeeps)
    obtain ⟨part, hpart, ⟨rfl, -⟩ | ⟨i, left, hi⟩⟩ := htidy.carries
    · exact ⟨[], hpart, .inl rfl⟩
    · exact ⟨part, hpart, .inr ⟨i, left, hi⟩⟩
  case order => exact order_of_replay hb h
  case inOrder =>
    rw [← hconfig]
    -- Either all is weighed, or the reading task ended before it weighed the last message.
    rcases hsorts.order with horder | ⟨-, horder⟩
    · exact ⟨_, horder⟩
    · exact horder
  case inbox =>
    intro hdropped
    -- A message is lost only to a client that is dropped.
    refine hsorts.inbox.resolve_right fun hgone => ?_
    rw [hgone.2.1] at hdropped
    cases hdropped
  case inboxInOrder =>
    rcases hsorts.inbox with hinbox | ⟨-, -, hinbox⟩
    · exact ⟨[], by rw [List.append_nil, hinbox]⟩
    · exact hinbox
  case answers =>
    intro e n k deadline entered a hevent hcall ha
    exact (happens_of_event? hevent).receives hcall ha
  case exhausted =>
    intro hopen hover hinbox es₂ c₂ l₂ seen₂ h₂
    have hrunning := isOpen_iff.1 hopen
    have hexhausted : c'.Exhausted :=
      ⟨⟨hover, .inl hrunning⟩, (hkept.closes hrunning hover).2, hinbox⟩
    obtain ⟨hexhausted₂, hreceived⟩ := exhausted_of_replay hexhausted h₂
    refine ⟨hreceived, fun e n k deadline entered a hevent hcall ha => ?_⟩
    exact hexhausted₂.receives ((happens_of_event? hevent).receives hcall ha)
  case settled =>
    intro hopen hq hroom
    have hrunning := isOpen_iff.1 hopen
    -- With room in the stream nobody has a frame left, so the reading task is not at an answer.
    have hnothing := hq.sending?_eq_none hkept.wired.orderly hkept.lined hroom .reader
    rcases hq.reading_or_over hrunning hnothing with ⟨hreading, hcancelled, hopen'⟩ | hover
    · refine .inl ⟨hreading, hcancelled, hopen', ?_⟩
      rw [← hconfig]
      exact hread.taken_eq hq hrunning hreading
    · exact .inr hover
  case drained =>
    intro hopen hover hq k deadline entered
    exact hq.not_receiving hkept.lined (hkept.closes (isOpen_iff.1 hopen) hover).2

/-- The calls that have failed since the connection is closed. -/
def closedOf (seen : List ClientObservation) : List Nat :=
  seen.filterMap fun
    | .answered k (.failed .connectionClosed) => some k
    | _ => none

/-- No answer is broken off in a run that leaves the stream open, and in which nobody gives up. -/
theorem never_breaksOff_of_open (h : c.replay l es = some (c', l', seen))
    (hopen : l'.up.closed = false) (hstays : es.any Event.isGiveUp = false) :
    c.Never l es (BreaksOff .reader) := by
  rw [never_iff]
  intro es₁ e c₁ l₁ seen₁ hes hrun hbreaks
  have hmem : e ∈ es := hes.subset (by simp)
  cases hbreaks with
  | dropped hi => cases hi
  | cancelled _ => exact List.any_eq_false.1 hstays _ hmem rfl
  | broken hclosed =>
    exact never_iff.1 (never_failsWrite_of_open h hopen) _ _ _ _ _ hes hrun
      ⟨hclosed, .reader, rfl⟩

/-- The broker sends a message in one piece with its CONNACK, and a part of the next one, while
nothing is subscribed to. Then a program subscribes, receives a message, and two more calls come
when the broker has gone. -/
def relaying : List Event :=
  let calls (k : Nat) (ms : List Move) : List Event := ms.map fun m => .move (.party (.call k) m)
  let reads (ms : List Move) : List Event := ms.map fun m => .move (.party .reader m)
  let answers : List Event := reads [.dispatch, .send .enter, .send .layOut, .send .push]
  reads [.send .push] ++
    [.input (.peerWrites [0x20, 2, 0, 0, 0x32, 5, 0, 1, 0x74, 0, 9, 0x35, 6, 0])] ++
    reads [.receive, .dispatch] ++ answers ++
    [.input (.calls 0 (.subscribe [⟨"t", .exactlyOnce⟩]))] ++
    calls 0 [.send .enter, .send .layOut, .send .push] ++
    [.input (.peerWrites
      [1, 0x74, 0, 10, 65, 0x62, 2, 0, 10, 0x30, 3, 0, 1, 0x75, 0x30, 4, 0, 1, 0x74, 66])] ++
    reads [.receive] ++ answers ++ answers ++ reads [.dispatch, .dispatch] ++
    [.input (.calls 1 (.receive none))] ++ calls 1 [.enter, .take] ++
    [.input .peerShuts] ++ reads [.receive] ++
    [.input (.calls 2 (.receive none))] ++ calls 2 [.enter, .take] ++
    [.input (.calls 3 (.receive (some 5)))] ++ calls 3 [.enter, .take]

/-- The first message is answered, but nobody wants it. Two others are received, one of them after
the broker has gone, and a last call fails. -/
theorem relays_relaying : ∃ c l c' l' seen, Begins c l ∧
    c.replay l relaying = some (c', l', seen) ∧ c.Never l relaying (BreaksOff .reader) ∧
    framesOf (c.journal l relaying) =
      [[0x10, 13, 0, 4, 0x4d, 0x51, 0x54, 0x54, 4, 2, 0, 60, 0, 1, 0x63], [0x40, 2, 0, 9],
        [0x82, 6, 0, 1, 0, 1, 0x74, 2], [0x50, 2, 0, 10], [0x70, 2, 0, 10]] ∧
    (weighed (c.journal l relaying)).map (fun w => (w.1.topic, w.2)) =
      [("t", []), ("t", ["t"]), ("u", ["t"]), ("t", ["t"])] ∧
    received seen = [⟨"t", [65], .exactlyOnce, true⟩, ⟨"t", [66], .atMostOnce, false⟩] ∧
    closedOf seen = [3] ∧
    Relays c l relaying (c.journal l relaying) c' l' seen := by
  have hend : (connect (.ofAddr "" "c") 0).toOption.bind (fun c =>
      (c.replay ⟨.empty 64, .empty 64⟩ relaying).map fun n =>
        (decide (framesOf (c.journal ⟨.empty 64, .empty 64⟩ relaying) =
            [[0x10, 13, 0, 4, 0x4d, 0x51, 0x54, 0x54, 4, 2, 0, 60, 0, 1, 0x63], [0x40, 2, 0, 9],
              [0x82, 6, 0, 1, 0, 1, 0x74, 2], [0x50, 2, 0, 10], [0x70, 2, 0, 10]] ∧
          (weighed (c.journal ⟨.empty 64, .empty 64⟩ relaying)).map (fun w => (w.1.topic, w.2)) =
            [("t", []), ("t", ["t"]), ("u", ["t"]), ("t", ["t"])] ∧
          received n.2.2 = [⟨"t", [65], .exactlyOnce, true⟩, ⟨"t", [66], .atMostOnce, false⟩] ∧
          closedOf n.2.2 = [3]), n.2.1.up.closed)) = some (true, false) := by
    decide +kernel
  obtain ⟨c, hconnect, hend⟩ := Option.bind_eq_some_iff.1 hend
  obtain ⟨⟨c', l', seen⟩, hrun, hend⟩ := Option.map_eq_some_iff.1 hend
  simp only [Prod.mk.injEq, decide_eq_true_eq] at hend
  obtain ⟨⟨hframes, hweighed, hreceived, hfailed⟩, hopen⟩ := hend
  have hbegins : Begins c ⟨.empty 64, .empty 64⟩ := begins_of_toOption hconnect
  have hgoes : c.Never ⟨.empty 64, .empty 64⟩ relaying (BreaksOff .reader) :=
    never_breaksOff_of_open hrun hopen rfl
  exact ⟨c, _, c', l', seen, hbegins, hrun, hgoes, hframes, hweighed, hreceived, hfailed,
    relays_of_replay hbegins hrun⟩

end Client
end Mqtt
