import Mqtt.Proofs.Client.Journal
import Mqtt.Proofs.Client.Quiescence
import Mqtt.Proofs.Frame.Reading
import Mqtt.Proofs.Packet.RoundTrip
/-!
# The frames that a client takes

The opening call reads from the broker until it has the CONNACK, and hands what it has read beyond
that to the reading task. Between them they take the frames in the order in which they come, and
leave out none (`HasRead`), however the bytes are cut into reads. The first one is the CONNACK
(`Greeted`); the packets in those behind it are `packetsOf`.

The reading task owns its end of the stream. `Happens.attends` says what every event has to do with
it: nobody else reads, or changes what has been read (`Spares`).
-/

namespace Mqtt

namespace Frame

variable {limit : Nat}

/-- **The bytes of whole frames are split into these frames**, whatever is cut off behind them. -/
theorem split_flatMap_bytes {fs : List Frame}
    (h : ∀ f ∈ fs, f.body.length ≤ RemainingLength.limit ∧ f.bytes.length ≤ limit) :
    split limit (fs.flatMap bytes) = (fs, []) := by
  induction fs with
  | nil => exact split_nil
  | cons f fs ih =>
    obtain ⟨hf, hfs⟩ := List.forall_mem_cons.1 h
    have hlook : look limit (f.bytes ++ fs.flatMap bytes) = .ok (some (f, f.bytes.length)) :=
      look_eq_some.2 ⟨parse_bytes_append hf.1 _, hf.2⟩
    rw [List.flatMap_cons, split_of_some hlook, List.drop_left, ih hfs]

/-- Fewer bytes hold fewer frames. -/
theorem split_isPrefix {bs more : Bytes} (h : bs <+: more) :
    (split limit bs).1 <+: (split limit more).1 := by
  obtain ⟨rest, rfl⟩ := h
  rw [split_append]
  exact List.prefix_append _ _

end Frame

namespace Client

variable {c c' c₁ c₂ : Client} {l l' l₁ l₂ : Link} {e : Event} {es : List Event} {i : Party}
  {k : Nat}
  {n : Next} {seen : List ClientObservation} {log : List ClientDeed} {v : Version}

/-! ### Who reads -/

/-- The messages that calls have received. -/
def received (seen : List ClientObservation) : List Message :=
  seen.filterMap fun
    | .answered _ (.message m) => m
    | _ => none

theorem received_append (seen more : List ClientObservation) :
    received (seen ++ more) = received seen ++ received more :=
  List.filterMap_append

theorem received_wrote (bs : Bytes) : received (wrote i bs) = [] := by
  rw [wrote]
  split_ifs <;> rfl

/-- The reading task, and what it has read, are left alone. Messages may be received. -/
structure Spares (c : Client) (l : Link) (n : Next) : Prop where
  stage : n.1.stage = c.stage ∨ n.1.stage = .closed ∧ c.stage = .running
  reader : n.1.reader = c.reader
  assembler : n.1.assembler = c.assembler
  unread : n.2.1.down.unread = l.down.unread
  inboxOpen : n.1.inboxOpen = c.inboxOpen
  /-- Messages are received in the order in which they are kept, and each is received once. -/
  inbox : received n.2.2 ++ n.1.inbox = c.inbox
  dropped : c.dropped = true → n.1.dropped = true

theorem Sends.received {frame : Except Fault Bytes} {s : Sending} {m : SendMove}
    {r : Sending ⊕ Except Fault Unit} (h : Sends c l i frame s m c' l' r seen) :
    received seen = [] := by
  cases h with
  | intro _ => exact received_wrote _

theorem Sends.down {frame : Except Fault Bytes} {s : Sending} {m : SendMove}
    {r : Sending ⊕ Except Fault Unit} (h : Sends c l i frame s m c' l' r seen) :
    l'.down = l.down := by
  cases h with
  | intro _ => rfl

theorem received_requestReturns (purpose : Purpose) (id : UInt16) (ack : Packet) :
    received (c.requestReturns l k purpose id ack).2.2 = [] := by
  unfold requestReturns
  split <;> rfl

theorem Keeps.spares {m : Move} (h : Keeps c l m n) : Spares c l n := by
  cases h with
  | ceases _ _ | wakes _ _ => exact ⟨.inl rfl, rfl, rfl, rfl, rfl, rfl, id⟩
  | pings _ hsends | pinged _ hsends | pingFails _ hsends =>
    obtain ⟨t, rfl⟩ := hsends.client
    refine ⟨.inl rfl, rfl, rfl, congrArg _ hsends.down, rfl, ?_, id⟩
    rw [hsends.received]
    rfl

theorem Calls.spares {call : Call} {m : Move} (h : Calls c l k call m n) : Spares c l n := by
  cases h with
  | sends hsends | requests hsends | requested hsends | leaves hsends | left hsends =>
    obtain ⟨t, rfl⟩ := hsends.client
    refine ⟨.inl rfl, rfl, rfl, congrArg _ hsends.down, rfl, ?_, id⟩
    rw [hsends.received]
    rfl
  | @sent _ _ _ _ _ r _ hsends =>
    obtain ⟨t, rfl⟩ := hsends.client
    refine ⟨.inl rfl, rfl, rfl, congrArg _ hsends.down, rfl, ?_, id⟩
    show received (_ ++ _) ++ _ = _
    rw [received_append, hsends.received]
    rcases r with f | ⟨⟩ <;> rfl
  | requestFails hsends =>
    obtain ⟨t, rfl⟩ := hsends.client
    rw [requestFails_eq]
    refine ⟨.inl rfl, rfl, rfl, congrArg _ hsends.down, rfl, ?_, id⟩
    show received (_ ++ _) ++ _ = _
    rw [received_append, hsends.received]
    rfl
  | forgotten | cancelled _ =>
    rw [requestFails_eq]
    exact ⟨.inl rfl, rfl, rfl, rfl, rfl, rfl, id⟩
  | @acknowledged purpose own _ p =>
    have hreceived := received_requestReturns (c := c) (l := l) (k := k) purpose own p
    obtain ⟨a, ha, -⟩ := requestReturns_eq (c := c) (l := l) (k := k) purpose own p
    rw [ha] at hreceived ⊢
    refine ⟨.inl rfl, rfl, rfl, rfl, rfl, ?_, id⟩
    rw [hreceived]
    rfl
  | waits | comes => exact ⟨.inl rfl, rfl, rfl, rfl, rfl, rfl, id⟩
  -- The one call that takes from the inbox.
  | receives _ hinbox => exact ⟨.inl rfl, rfl, rfl, rfl, rfl, hinbox.symm, id⟩
  | exhausts _ _ _ | expires _ _ => exact ⟨.inl rfl, rfl, rfl, rfl, rfl, rfl, id⟩
  -- The stream is shut from this side only: what comes from the broker may still be read.
  | @shuts r _ =>
    refine ⟨.inl rfl, rfl, rfl, rfl, rfl, ?_, id⟩
    rcases r with f | ⟨⟩ <;> rfl

theorem Starts.spares {call : ClientCall} (h : Starts c k call c') : Spares c l (c', l, []) := by
  cases h with
  | subscribe =>
    rw [addFilters_eq]
    exact ⟨.inl rfl, rfl, rfl, rfl, rfl, rfl, id⟩
  | _ => exact ⟨.inl rfl, rfl, rfl, rfl, rfl, rfl, id⟩

theorem Drops.spares {call : Option Call} (h : Drops c k call c') : Spares c l (c', l, []) := by
  cases h <;> exact ⟨.inl rfl, rfl, rfl, rfl, rfl, rfl, id⟩

/-- A call that is refused receives nothing. -/
theorem received_of_start {call : ClientCall} {a : CallAnswer} (h : c.start k call = .error a) :
    received [.answered k a] = [] := by
  cases call <;> simp only [start] at h <;> (try split at h) <;> (try split at h) <;>
    cases h <;> rfl

/-- What an event has to do with the one who reads. -/
inductive Attends (c : Client) (l : Link) : Event → Next → Prop
  /-- The opening call moves. -/
  | opening {m : Move} {n : Next} : Opens c l m n → Attends c l (.move (.party .reader m)) n
  /-- The reading task moves. -/
  | reading {m : Move} {n : Next} : c.stage = .running → Reads c l m n →
    Attends c l (.move (.party .reader m)) n
  /-- Bytes come from the broker. -/
  | arrives {bs taken left : Bytes} {down : Pipe} : l.down.write bs = .took down taken left →
    Attends c l (.input (.peerWrites bs)) (c, { l with down := down }, [])
  | apart {e : Event} {n : Next} : (∀ m, e ≠ .move (.party .reader m)) → arrivals l e = [] →
    Spares c l n → Attends c l e n

/-- **Nobody else reads.** -/
theorem Happens.attends (h : Happens c l e n) : Attends c l e n := by
  have hsame {c' : Client} {l' : Link} {i : ClientInput} (harrivals : arrivals l (.input i) = [])
      (hspares : Spares c l (c', l', [])) : Attends c l (.input i) (c', l', []) :=
    .apart nofun harrivals hspares
  cases h with
  | begins _ _ hstarts => exact hsame rfl hstarts.spares
  | refuses _ _ hstart =>
    refine .apart nofun rfl ⟨.inl rfl, rfl, rfl, rfl, rfl, ?_, id⟩
    rw [received_of_start hstart]
    rfl
  | abandons => exact hsame rfl (drops_abandon _).spares
  | cancels => exact hsame rfl ⟨.inl rfl, rfl, rfl, rfl, rfl, rfl, id⟩
  | drops => exact hsame rfl ⟨.inl rfl, rfl, rfl, rfl, rfl, rfl, fun _ => rfl⟩
  | writes hw => exact .arrives hw
  | @writesNothing bs hw =>
    refine hsame ?_ ⟨.inl rfl, rfl, rfl, rfl, rfl, rfl, id⟩
    -- Where the pipe takes nothing, nothing has come.
    rw [arrivals]
    split
    · next down taken left htook => exact absurd htook (hw down taken left)
    · rfl
  | reads _ | readsNothing | shuts | leaves | elapses =>
    exact hsame rfl ⟨.inl rfl, rfl, rfl, rfl, rfl, rfl, id⟩
  | moves hstep =>
    cases step_cases hstep with
    | opening hopens => exact .opening hopens
    | reader hrunning hreads => exact .reading hrunning hreads
    | keeper hkeeps => exact .apart nofun rfl hkeeps.spares
    | call _ hcalls => exact .apart nofun rfl hcalls.spares
    | givesUp hforsaken =>
      -- A session that is given up was running, and is closed from then on.
      exact .apart nofun rfl
        ⟨.inr ⟨rfl, (of_isForsaken hforsaken).2.1⟩, rfl, rfl, rfl, rfl, rfl, id⟩

/-! ### The frames in front -/

/-- Somebody waits for a frame. -/
def Expects (c : Client) : Prop := ¬c.WasOpened ∨ c.stage = .running ∧ c.reader = .reading

theorem Opens.not_wasOpened {m : Move} (h : Opens c l m n) : ¬c.WasOpened := by
  rintro (hstage | hstage) <;> rcases h.stage with ⟨left, h⟩ | h <;>
    · rw [hstage] at h
      cases h

theorem not_expects_of_closed (h : c.stage = .closed) : ¬c.Expects := by
  rintro (hne | ⟨hrunning, -⟩)
  · exact hne (.inr h)
  · rw [h] at hrunning
    cases hrunning

theorem not_expects_of_running (h : c.stage = .running) (hreader : c.reader ≠ .reading) :
    ¬c.Expects := by
  rintro (hne | ⟨-, hreading⟩)
  · exact hne (.inl h)
  · exact hreader hreading

/-- What an event does to what has come from the broker: it takes these frames, and these bytes
come. -/
inductive Draws (c : Client) (l : Link) (n : Next) : List Frame → Bytes → Prop
  | rests : (n.1.assembler = c.assembler ∧ (n.1.Expects → c.Expects) ∨
    n.1.assembler = c.assembler.retire) → n.2.1.down.unread = l.down.unread → Draws c l n [] []
  | reads {bs : Bytes} {down : Pipe} : c.Expects → l.down.read readSize = .got bs down →
    n.1.assembler = c.assembler.receive bs → n.2.1.down = down → Draws c l n [] []
  | takes {f : Frame} {a : Assembler} : c.Expects → c.assembler.next = .ok (some (f, a)) →
    (n.1.assembler = a ∧ ¬n.1.Expects ∨ n.1.assembler = a.retire) →
    n.2.1.down.unread = l.down.unread → Draws c l n [f] []
  | arrives {bs : Bytes} : n.1.assembler = c.assembler → (n.1.Expects → c.Expects) →
    n.2.1.down.unread.toList = l.down.unread.toList ++ bs → Draws c l n [] bs

/-- A frame is retired before the reading task waits for another. -/
def Retires (c c' : Client) : Prop :=
  c'.assembler = c.assembler ∧ c'.reader ≠ .reading ∨ c'.assembler = c.assembler.retire

theorem retires_keep {p : Publish} : Retires c (c.keep p) := by
  rw [keep]
  split_ifs
  · exact .inr rfl
  · exact .inl ⟨rfl, by simp [endReader]⟩
  · exact .inr rfl

theorem Handles.retires {p : Packet} (h : Handles c p c') : Retires c c' := by
  cases h with
  | acknowledges _ | releases | disconnects => exact .inl ⟨rfl, nofun⟩
  | keeps _ => exact retires_keep
  | completes _ | ignores _ => exact .inr rfl

theorem retires_afterAnswer {p : Option Publish} : Retires c (c.afterAnswer p) := by
  cases p with
  | none => exact .inr rfl
  | some p => exact retires_keep

theorem Fails.frames {m : Move} {f : Fault} (h : Fails c l m f) :
    c.frames (.move (.party .reader m)) = [] := by
  cases h with
  | malformed _ hnext => exact frames_eq_nil (.inr (frame?_of_malformed hnext))
  | _ => rfl

theorem Ceases.frames {m : Move} (h : Ceases c l m) : c.frames (.move (.party .reader m)) = [] := by
  cases h with
  | malformed hnext => exact frames_eq_nil (.inr (frame?_of_malformed hnext))
  | _ => rfl

theorem frame?_of_awaiting {f : Frame} {a : Assembler} (hstage : c.stage = .awaiting)
    (hnext : c.assembler.next = .ok (some (f, a))) : c.frame? = some f := by
  rw [frame?, hstage, hnext]

theorem Opens.draws {m : Move} (h : Opens c l m n) :
    Draws c l n (c.frames (.move (.party .reader m))) [] := by
  have hexpects : c.Expects := .inl h.not_wasOpened
  cases h with
  | connects _ _ => exact .rests (.inl ⟨rfl, fun _ => hexpects⟩) rfl
  | fails hfails =>
    rw [hfails.frames]
    exact .rests (.inl ⟨rfl, fun _ => hexpects⟩) rfl
  | reads _ _ hread => exact .reads hexpects hread rfl rfl
  | unwelcome hstage hnext _ =>
    rw [frames, frame?_of_awaiting hstage hnext]
    exact .takes hexpects hnext (.inl ⟨rfl, not_expects_of_closed rfl⟩) rfl
  | opens hstage hnext _ =>
    rw [frames, frame?_of_awaiting hstage hnext]
    exact .takes hexpects hnext (.inr rfl) rfl

theorem Reads.draws {m : Move} (h : Reads c l m n) (hrunning : c.stage = .running) :
    Draws c l n (c.frames (.move (.party .reader m))) [] := by
  have hstage := h.stage.trans hrunning
  -- The frame in front is taken.
  have htakes {f : Frame} {a : Assembler} (hreader : c.reader = .reading)
      (hnext : c.assembler.next = .ok (some (f, a))) (hretires : Retires (c.takeFrame a) n.1)
      (hlink : n.2.1 = l) : Draws c l n (c.frames (.move (.party .reader .dispatch))) [] := by
    have hframe : c.frame? = some f := by rw [frame?, hrunning, hreader, hnext]
    rw [frames, hframe]
    exact .takes (.inr ⟨hrunning, hreader⟩) hnext
      (hretires.imp_left fun h => ⟨h.1, not_expects_of_running hstage h.2⟩) (by rw [hlink])
  cases h with
  | ceases hreader hceases =>
    rw [hceases.frames]
    exact .rests (.inl ⟨rfl, fun _ => .inr ⟨hrunning, hreader⟩⟩) rfl
  | reads hreader _ hread => exact .reads (.inr ⟨hrunning, hreader⟩) hread rfl rfl
  | undecodable hreader hnext _ => exact htakes hreader hnext (.inl ⟨rfl, by simp [endReader]⟩) rfl
  | handles hreader hnext _ => exact htakes hreader hnext (handles_handle _).retires rfl
  | answers _ hsends | answerFails _ hsends =>
    obtain ⟨t, rfl⟩ := hsends.client
    exact .rests
      (.inl ⟨rfl, fun h => absurd h (not_expects_of_running hstage (by simp [endReader]))⟩)
      (congrArg _ hsends.down)
  | @answered _ _ p _ _ _ _ _ hsends =>
    obtain ⟨t, rfl⟩ := hsends.client
    refine .rests ((retires_afterAnswer (p := p)).imp_left fun h => ⟨h.1, fun hexpects => ?_⟩)
      (congrArg _ hsends.down)
    exact absurd hexpects (not_expects_of_running hstage h.2)

/-- **The frame in front is taken, or bytes are read, or come, or nothing changes.** -/
theorem Attends.draws (h : Attends c l e n) :
    Draws c l n (c.frames e) (arrived (arrivals l e)) := by
  cases h with
  | opening hopens => exact hopens.draws
  | reading hrunning hreads => exact hreads.draws hrunning
  | @arrives bs taken left down hw =>
    have harrived : arrived (arrivals l (.input (.peerWrites bs))) = taken := by
      rw [arrivals, hw]
      exact List.append_nil _
    rw [harrived]
    exact .arrives rfl id (Pipe.unread_of_write hw)
  | apart hne harrivals hspares =>
    rw [frames_eq_nil (.inl (hne _)), harrivals]
    refine .rests (.inl ⟨hspares.assembler, ?_⟩) hspares.unread
    rw [Expects, Expects, WasOpened, hspares.reader]
    rcases hspares.stage with hstage | ⟨hstage, -⟩ <;> rw [hstage]
    · exact id
    · rintro (hne | ⟨hrunning, -⟩)
      · exact absurd (.inr rfl) hne
      · cases hrunning

/-- The frames that have been taken are the first ones in all that has come. -/
structure HasRead (c : Client) (l : Link) (log : List ClientDeed) : Prop where
  /-- The last frame has been retired. -/
  steady : c.Expects → c.assembler.pending = 0
  kept : ∃ bytes, arrived log = bytes ++ l.down.unread.toList ∧
    Assembler.Kept c.config.maxPacketSize.toNat c.assembler bytes (taken log)

theorem Begins.hasRead (h : Begins c l) : c.HasRead l (c.journal l []) := by
  cases h with
  | intro hconnect =>
    obtain ⟨bs, -, rfl⟩ := connect_eq_ok hconnect
    exact ⟨fun _ => rfl, [], rfl, Assembler.kept_empty _⟩

/-- **Every event keeps it so.** -/
theorem HasRead.next (h : c.HasRead l log) (hhappens : Happens c l e n) :
    n.1.HasRead n.2.1 (log ++ c.deeds l e n) := by
  obtain ⟨hsteady, bytes, harrived, hkept⟩ := h
  have hdraws := hhappens.attends.draws
  have hconfig := hhappens.stays.config
  rw [← hconfig] at hkept
  -- What comes of it, by what the assembler holds and what the pipe does.
  have hread {a : Assembler} {more bs : Bytes} {fs : List Frame}
      (hkept' : Assembler.Kept n.1.config.maxPacketSize.toNat a more fs)
      (hpending : n.1.Expects → n.1.assembler.pending = 0)
      (hassembler : n.1.assembler = a ∨ n.1.assembler = a.retire)
      (hbytes : bytes ++ l.down.unread.toList ++ bs = more ++ n.2.1.down.unread.toList)
      (htaken : taken log ++ c.frames e = fs) (harrives : arrived (arrivals l e) = bs) :
      n.1.HasRead n.2.1 (log ++ c.deeds l e n) := by
    refine ⟨hpending, more, ?_, ?_⟩
    · rw [arrived_append, arrived_deeds, harrived, harrives, hbytes]
    · rw [taken_append, taken_deeds, htaken]
      rcases hassembler with hassembler | hassembler <;> rw [hassembler]
      · exact hkept'
      · exact hkept'.retire
  generalize hfs : c.frames e = fs, hbs : arrived (arrivals l e) = bs at hdraws
  cases hdraws with
  | rests hsame hunread =>
    refine hread hkept ?_ (hsame.imp_left And.left) (by rw [hunread, List.append_nil])
      (by rw [hfs, List.append_nil]) hbs
    rcases hsame with ⟨hsame, hexpects⟩ | hsame
    · exact fun h => hsame ▸ hsteady (hexpects h)
    · exact fun _ => hsame ▸ rfl
  | reads hexpects hgot hsame hdown =>
    refine hread (hkept.receive (hsteady hexpects) _) (fun _ => hsame ▸ hsteady hexpects)
      (.inl hsame)
      ?_ (by rw [hfs, List.append_nil]) hbs
    rw [hdown, List.append_nil, List.append_assoc, Pipe.unread_of_read hgot]
  | takes hexpects hnext hsame hunread =>
    obtain ⟨size, hlook, rfl⟩ := Assembler.look_of_next_eq_some hnext
    refine hread (hkept.look (hsteady hexpects) hlook) ?_ (hsame.imp_left And.left)
      (by rw [hunread, List.append_nil]) (by rw [hfs]) hbs
    rcases hsame with ⟨-, hexpects'⟩ | hsame
    · exact fun h => absurd h hexpects'
    · exact fun _ => hsame ▸ rfl
  | arrives hsame hexpects hunread =>
    refine hread hkept (fun h => hsame ▸ hsteady (hexpects h)) (.inl hsame) ?_
      (by rw [hfs, List.append_nil]) hbs
    rw [hunread, List.append_assoc]

theorem hasRead_of_replay (hb : Begins c l) (h : c.replay l es = some (c', l', seen)) :
    c'.HasRead l' (c.journal l es) := by
  refine replay_induction (P := fun es c' l' _ => c'.HasRead l' (c.journal l es)) hb.hasRead ?_ h
  intro es e c₁ l₁ seen₁ c₂ l₂ more hrun hevent ih
  rw [journal_concat hrun hevent]
  exact ih.next (happens_of_event? hevent)

/-- Where nothing can move, a reading task that waits for a frame waits for more bytes. -/
theorem Quiescent.not_whole (hq : c.Quiescent l) (hrunning : c.stage = .running)
    (hreader : c.reader = .reading) :
    c.assembler.next = .ok none ∧ l.down.read readSize = .nothing := by
  have hdispatch := hq (.party .reader .dispatch)
  have hreceive := hq (.party .reader .receive)
  rcases hnext : c.assembler.next with e | _ | ⟨f, a⟩
  · simp [step, hrunning, readerStep, hreader, hnext] at hdispatch
  · refine ⟨rfl, ?_⟩
    rcases hread : l.down.read readSize with _ | _ | ⟨bs, down⟩
    · rfl
    · simp [step, hrunning, readerStep, hreader, receiveStep, hnext, hread] at hreceive
    · simp [step, hrunning, readerStep, hreader, receiveStep, hnext, hread] at hreceive
  · simp only [step, hrunning, readerStep, hreader, hnext] at hdispatch
    rcases hdecode : Packet.decode c.config.version f with e | p
    · simp [hdecode] at hdispatch
    · simp [hdecode] at hdispatch

/-- Where nothing can move, a reading task that has nothing to send waits for more, or has ended. -/
theorem Quiescent.reading_or_over (hq : c.Quiescent l) (hrunning : c.stage = .running)
    (hnothing : c.sending? .reader = none) :
    c.reader = .reading ∧ c.cancelled = false ∧ l.down.closed = false ∨ c.reader = .over := by
  rcases hreader : c.reader with _ | ⟨frame, s, o⟩ | _
  · have hopen := (Pipe.unread_of_nothing (hq.not_whole hrunning hreader).2).2
    have hmove := hq (.party .reader .cancel)
    refine .inl ⟨rfl, ?_, hopen⟩
    by_contra hcancelled
    simp [step, hrunning, readerStep, hreader, hcancelled] at hmove
  · rw [sending?_of_answering hrunning hreader] at hnothing
    cases hnothing
  · exact .inr rfl

/-- **Where nothing can move, the reading task has taken every frame** that it was waiting for. -/
theorem HasRead.taken_eq (h : c.HasRead l log) (hq : c.Quiescent l) (hrunning : c.stage = .running)
    (hreader : c.reader = .reading) :
    taken log = (Frame.split c.config.maxPacketSize.toNat (arrived log)).1 := by
  obtain ⟨bytes, hbytes, hkept⟩ := h.kept
  obtain ⟨hnext, hread⟩ := hq.not_whole hrunning hreader
  rw [hbytes, (Pipe.unread_of_nothing hread).1, List.append_nil]
  exact (hkept.split_eq (h.steady (.inr ⟨hrunning, hreader⟩))
    (Assembler.look_of_next_eq_none hnext)).symm

/-! ### The packets -/

/-- The frame is that of a CONNACK that accepts. -/
def Welcomes (v : Version) (f : Frame) : Prop :=
  ∃ a, Packet.decode v f = .ok (.connAck a) ∧ a.code = .accepted

/-- The packets that the reading task has taken: those in the frames behind the CONNACK. -/
def packetsOf (v : Version) (log : List ClientDeed) : List Packet :=
  (taken log).tail.filterMap fun f => (Packet.decode v f).toOption

/-- The session is open once a CONNACK has been taken that accepts. -/
structure Greeted (c : Client) (frames : List Frame) : Prop where
  none : ¬c.WasOpened → frames = []
  welcome : c.stage = .running ∨ frames.tail ≠ [] →
    ∃ g, frames.head? = some g ∧ Welcomes c.config.version g

theorem Begins.greeted (h : Begins c l) : c.Greeted [] := by
  cases h with
  | intro hconnect =>
    obtain ⟨bs, -, rfl⟩ := connect_eq_ok hconnect
    exact ⟨fun _ => rfl, fun h => h.elim nofun fun hne => absurd rfl hne⟩

theorem welcomes_of_greet {f : Frame} (h : c.greet f = .ok ()) : Welcomes c.config.version f := by
  rw [greet] at h
  rcases hdecode : Packet.decode c.config.version f with e | p
  · rw [hdecode] at h
    cases h
  · rw [hdecode] at h
    cases p with
    | connAck a =>
      by_cases ha : a.code = .accepted
      · exact ⟨a, hdecode, ha⟩
      · simp [bind, Except.bind, ha] at h
    | _ => cases h

theorem Greeted.next {fs : List Frame} (h : c.Greeted fs) (hhappens : Happens c l e n) :
    n.1.Greeted (fs ++ c.frames e) := by
  have hconfig := hhappens.stays.config
  have hattends := hhappens.attends
  cases hattends with
  | opening hopens =>
    -- The session is not open, and at most one frame has been taken.
    have hnone := h.none hopens.not_wasOpened
    have hunopened {gs : List Frame} (hgs : gs = []) (hstage : n.1.stage ≠ .running) :
        n.1.Greeted (fs ++ gs) := by
      rw [hnone, hgs]
      exact ⟨fun _ => rfl, fun h => absurd (h.resolve_left hstage) fun hne => hne rfl⟩
    cases hopens with
    | @connects left taken rest up _ _ =>
      refine hunopened rfl ?_
      dsimp only
      split_ifs <;> nofun
    | fails hfails => exact hunopened hfails.frames nofun
    | reads hstage _ _ => exact hunopened rfl (by simp [takeBytes, hstage])
    | unwelcome hstage hnext _ =>
      rw [hnone, frames, frame?_of_awaiting hstage hnext]
      refine ⟨fun hne => absurd (.inr rfl) hne, ?_⟩
      rintro (hrunning | hne)
      · cases hrunning
      · exact absurd rfl hne
    | opens hstage hnext hgreet =>
      rw [hnone, frames, frame?_of_awaiting hstage hnext]
      exact ⟨fun hne => absurd (.inl rfl) hne, fun _ => ⟨_, rfl, welcomes_of_greet hgreet⟩⟩
  | reading hrunning hreads =>
    obtain ⟨g, hg, hwelcomes⟩ := h.welcome (.inl hrunning)
    refine ⟨fun hne => absurd (.inl (hreads.stage.trans hrunning)) hne, fun _ => ⟨g, ?_, ?_⟩⟩
    · rw [List.head?_append, hg]
      rfl
    · rw [hconfig]
      exact hwelcomes
  | arrives _ =>
    exact (List.append_nil fs).symm ▸ h
  | apart hne _ hspares =>
    rw [frames_eq_nil (.inl (hne _)), List.append_nil]
    refine ⟨fun hclosed => h.none fun hopened => hclosed ?_, fun hmore => ?_⟩
    · rcases hspares.stage with hstage | ⟨hstage, -⟩
      · rw [WasOpened, hstage]
        exact hopened
      · exact .inr hstage
    · rw [hconfig]
      refine h.welcome (hmore.imp_left fun hrunning => ?_)
      rcases hspares.stage with hstage | ⟨hstage, -⟩
      · exact hstage.symm.trans hrunning
      · cases hstage.symm.trans hrunning

theorem greeted_of_replay (hb : Begins c l) (h : c.replay l es = some (c', l', seen)) :
    c'.Greeted (taken (c.journal l es)) := by
  refine replay_induction (P := fun es c' _ _ => c'.Greeted (taken (c.journal l es)))
    hb.greeted ?_ h
  intro es e c₁ l₁ seen₁ c₂ l₂ more hrun hevent ih
  rw [journal_concat hrun hevent, taken_append, taken_deeds]
  exact ih.next (happens_of_event? hevent)

/-- The packet that is taken last comes last. -/
theorem packetsOf_concat (h : c.Greeted (taken log)) (hv : c.config.version = v) :
    packetsOf v (log ++ c.deeds l e n) = packetsOf v log ++ c.packets e := by
  have hpackets (hrunning : c.stage = .running) :
      (c.frames e).filterMap (fun f => (Packet.decode v f).toOption) = c.packets e := by
    unfold frames packets
    split
    · rw [packet?, hrunning, hv]
      rcases c.frame? with _ | f
      · rfl
      · rcases hdecode : (Packet.decode v f).toOption with _ | p <;> simp [hdecode]
    · rfl
  rw [packetsOf, packetsOf, taken_append, taken_deeds]
  by_cases hrunning : c.stage = .running
  · -- What comes behind the CONNACK is for the reading task.
    obtain ⟨g, hg, -⟩ := h.welcome (.inl hrunning)
    obtain ⟨fs, hfs⟩ := List.head?_eq_some_iff.1 hg
    rw [hfs, List.cons_append, List.tail_cons, List.tail_cons, List.filterMap_append,
      hpackets hrunning]
  · rw [packets_eq_nil (.inr (packet?_of_not_running hrunning)), List.append_nil]
    by_cases hopened : c.WasOpened
    · have hframe : c.frame? = none := by
        rw [frame?, hopened.resolve_left hrunning]
      rw [frames_eq_nil (.inr hframe), List.append_nil]
    · rw [h.none hopened, List.nil_append]
      unfold frames
      split
      · rcases c.frame? with _ | f <;> rfl
      · rfl

/-- **Whole packets come as they are sent.** Where the broker sends a CONNACK and then some packets,
the packets that have been taken are the first ones of these, wherever the stream is cut. -/
theorem packetsOf_isPrefix {a : ConnAck} {ps : List Packet} (h : c.HasRead l log)
    (hps : ∀ p ∈ .connAck a :: ps, p.WellFormed v ∧
      (p.frame v).bytes.length ≤ c.config.maxPacketSize.toNat)
    (harrived : arrived log <+: (.connAck a :: ps).flatMap fun p => (p.frame v).bytes) :
    packetsOf v log <+: ps.map (Packet.carried v) := by
  obtain ⟨bytes, hbytes, hkept⟩ := h.kept
  have htaken : taken log <+: (.connAck a :: ps).map (Packet.frame v) := by
    have hsplit := (hkept.isPrefix_split l.down.unread.toList).trans
      (Frame.split_isPrefix (hbytes ▸ harrived))
    rwa [← List.flatMap_map, Frame.split_flatMap_bytes fun f hf => ?_] at hsplit
    obtain ⟨p, hp, rfl⟩ := List.mem_map.1 hf
    exact ⟨(hps p hp).1.size, (hps p hp).2⟩
  have hdecode : (ps.map (Packet.frame v)).filterMap (fun f => (Packet.decode v f).toOption) =
      ps.map (Packet.carried v) := by
    rw [List.filterMap_map, ← List.filterMap_eq_map]
    refine List.filterMap_congr fun p hp => ?_
    simp [Packet.decode_frame (hps p (List.mem_cons_of_mem _ hp)).1, Except.toOption]
  rw [packetsOf, ← hdecode]
  rcases htake : taken log with _ | ⟨g, fs⟩
  · exact List.nil_prefix
  · rw [htake, List.map_cons, List.cons_prefix_cons] at htaken
    exact htaken.2.filterMap _

end Client
end Mqtt
