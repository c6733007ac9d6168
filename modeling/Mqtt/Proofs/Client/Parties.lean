import Mqtt.Proofs.Client.Filters
import Mqtt.Proofs.Packet.Wire
import Mqtt.Proofs.Stream.Lane
/-!
# What the parties of a client send

`Client.lane` is what the parties of a client send into the stream towards the broker: the opening
call and the reading task, the pinging task, and every call. The CONNECT is pushed before there is a
line. The lemmas here say what each operation of a client leaves to whom (`ReaderMoved`,
`CallMoved`).
-/

namespace Mqtt

namespace Client

variable {c c' : Client} {l l' : Link} {i : Party} {k : Nat} {n : Next}

/-- The frame that a party is sending, and how far it is. -/
def sending? (c : Client) : Party → Option (Except Fault Bytes × Sending)
  | .reader =>
    match c.stage, c.reader with
    | .connecting left, _ => some (c.frameOf (.connect c.config.connect), .pushing left)
    | _, .answering frame s _ => some (frame, s)
    | _, _ => none
  | .keeper =>
    match c.keeper with
    | .pinging s => some (c.frameOf .pingReq, s)
    | _ => none
  | .call k => (c.call? k).bind Call.sending?

/-- The turnstile in front of the stream. The CONNECT is pushed with nobody else around. -/
def gate (c : Client) : Turnstile Party :=
  match c.stage with
  | .connecting _ => ⟨some .reader, []⟩
  | _ => c.turnstile

/-- What the parties of a client send into the stream. -/
def lane (c : Client) : Lane Party := ⟨c.gate, c.sending?⟩

/-- The bytes that the stream has taken. -/
def streamOf (seen : List ClientObservation) : Bytes :=
  seen.flatMap fun o =>
    match o with
    | .wrote _ bs => bs
    | _ => []

@[simp]
theorem streamOf_append (seen more : List ClientObservation) :
    streamOf (seen ++ more) = streamOf seen ++ streamOf more := by
  rw [streamOf, List.flatMap_append]
  rfl

theorem streamOf_wrote (i : Party) (bs : Bytes) : streamOf (wrote i bs) = bs := by
  rw [wrote]
  split_ifs with h
  · rw [List.isEmpty_iff.1 h]
    rfl
  · exact List.append_nil bs

@[simp]
theorem streamOf_answered (k : Nat) (a : CallAnswer) : streamOf [.answered k a] = [] := rfl

/-! ### Sending -/

theorem sending?_call_eq {call : Call} (h : c.calls[k]? = some call) :
    c.sending? (.call k) = call.sending? := by
  show (c.call? k).bind Call.sending? = _
  rw [call?_eq h]
  exact call.sending?_bare

theorem sending?_of_call?_eq_none (h : c.call? k = none) : c.sending? (.call k) = none := by
  show (c.call? k).bind Call.sending? = none
  rw [h]
  rfl

theorem gate_of_running (h : c.stage = .running) : c.gate = c.turnstile := by
  rw [gate, h]

theorem sending?_reader_of_running (h : c.stage = .running) :
    c.sending? .reader =
      match c.reader with
      | .answering frame s _ => some (frame, s)
      | _ => none := by
  rw [sending?, h]
  rcases c.reader with _ | _ | _ <;> rfl

/-- A reading task that answers nothing has nothing to send. -/
theorem sending?_reader_eq_none (h : c.stage = .running)
    (hreader : c.reader = .reading ∨ c.reader = .over) : c.sending? .reader = none := by
  rw [sending?_reader_of_running h]
  rcases hreader with hreader | hreader <;> rw [hreader]

theorem sending?_of_answering {frame : Except Fault Bytes} {s : Sending} {p : Option Publish}
    (h : c.stage = .running) (hreader : c.reader = .answering frame s p) :
    c.sending? .reader = some (frame, s) := by
  rw [sending?_reader_of_running h, hreader]

theorem sending?_of_pinging {s : Sending} (h : c.keeper = .pinging s) :
    c.sending? .keeper = some (c.frameOf .pingReq, s) := by
  simp only [sending?, h]

theorem sending?_reader_of_over (h : c.reader = .over)
    (hstage : ∀ left, c.stage ≠ .connecting left) : c.sending? .reader = none := by
  rcases hs : c.stage with left | _ | _ | _
  · exact absurd hs (hstage left)
  all_goals rw [sending?, hs, h]

/-- Nothing of a client changes but its turnstile. -/
theorem Sends.client {frame : Except Fault Bytes} {s : Sending} {m : SendMove}
    {r : Sending ⊕ Except Fault Unit} {seen : List ClientObservation}
    (h : Sends c l i frame s m c' l' r seen) : ∃ t, c' = { c with turnstile := t } := by
  cases h with
  | intro _ => exact ⟨_, rfl⟩

/-- What a party does that sends a frame. -/
theorem Sends.own {frame : Except Fault Bytes} {s : Sending} {m : SendMove}
    {r : Sending ⊕ Except Fault Unit} {seen : List ClientObservation}
    (h : Sends c l i frame s m c' l' r seen) :
    Lane.Own l.up c.cancelled i c.turnstile (.send m) (some (frame, s)) c'.turnstile
      (r.elim (fun s => some (frame, s)) fun _ => none) (streamOf seen) := by
  cases h with
  | intro hm =>
    rw [streamOf_wrote]
    exact .send hm

/-! ### What the others go on with -/

/-- The reading task has moved, and nobody else. -/
structure ReaderMoved (c c' : Client) : Prop where
  stage : c'.stage = c.stage
  turnstile : c'.turnstile = c.turnstile
  config : c'.config = c.config
  keeper : c'.keeper = c.keeper
  filters : c'.filters = c.filters
  call? : ∀ k, c'.call? k = c.call? k

theorem ReaderMoved.refl (c : Client) : ReaderMoved c c :=
  ⟨rfl, rfl, rfl, rfl, rfl, fun _ => rfl⟩

theorem ReaderMoved.trans {c'' : Client} (h : ReaderMoved c c') (h' : ReaderMoved c' c'') :
    ReaderMoved c c'' where
  stage := h'.stage.trans h.stage
  turnstile := h'.turnstile.trans h.turnstile
  config := h'.config.trans h.config
  keeper := h'.keeper.trans h.keeper
  filters := h'.filters.trans h.filters
  call? k := (h'.call? k).trans (h.call? k)

theorem others_of_reader (hconfig : c'.config = c.config) (hkeeper : c'.keeper = c.keeper)
    (hcall : ∀ k, c'.call? k = c.call? k) :
    ∀ j, j ≠ .reader → c'.sending? j = c.sending? j := by
  intro j hj
  cases j with
  | reader => exact absurd rfl hj
  | keeper =>
    simp only [sending?, hkeeper, frameOf, hconfig]
  | call k =>
    simp only [sending?, hcall]

theorem others_of_keeper (hstage : c'.stage = c.stage) (hconfig : c'.config = c.config)
    (hreader : c'.reader = c.reader) (hcall : ∀ k, c'.call? k = c.call? k) :
    ∀ j, j ≠ .keeper → c'.sending? j = c.sending? j := by
  intro j hj
  cases j with
  | reader => simp only [sending?, hstage, hreader, frameOf, hconfig]
  | keeper => exact absurd rfl hj
  | call k => simp only [sending?, hcall]

/-- A call has moved, and nobody else. -/
structure CallMoved (k : Nat) (c c' : Client) : Prop where
  stage : c'.stage = c.stage
  config : c'.config = c.config
  reader : c'.reader = c.reader
  keeper : c'.keeper = c.keeper
  call? : ∀ k', k' ≠ k → c'.call? k' = c.call? k'

theorem CallMoved.others (h : CallMoved k c c') :
    ∀ j, j ≠ .call k → c'.sending? j = c.sending? j := by
  intro j hj
  cases j with
  | reader => simp only [sending?, h.stage, h.reader, frameOf, h.config]
  | keeper => simp only [sending?, h.keeper, frameOf, h.config]
  | call k' =>
    have hne : k' ≠ k := by
      rintro rfl
      exact hj rfl
    simp only [sending?, h.call? k' hne]

theorem callMoved_of_insert {call : Call} (hstage : c'.stage = c.stage)
    (hconfig : c'.config = c.config) (hreader : c'.reader = c.reader)
    (hkeeper : c'.keeper = c.keeper) (hcalls : c'.calls = c.calls.insert k call) :
    CallMoved k c c' where
  stage := hstage
  config := hconfig
  reader := hreader
  keeper := hkeeper
  call? k' h := by rw [call?_of_insert hcalls, if_neg h]

theorem callMoved_of_erase (hstage : c'.stage = c.stage) (hconfig : c'.config = c.config)
    (hreader : c'.reader = c.reader) (hkeeper : c'.keeper = c.keeper)
    (hcalls : c'.calls = c.calls.erase k) : CallMoved k c c' where
  stage := hstage
  config := hconfig
  reader := hreader
  keeper := hkeeper
  call? k' h := by rw [call?_of_erase hcalls, if_neg h]

theorem callMoved_withdraw {id : UInt16} {fs : List String} :
    CallMoved k c (c.withdraw k id fs) where
  stage := rfl
  config := rfl
  reader := rfl
  keeper := rfl
  call? k' h := by rw [call?_withdraw, if_neg h]

theorem sending?_of_insert {call : Call} {x : Option (Except Fault Bytes × Sending)}
    (hcalls : c'.calls = c.calls.insert k call) (hx : call.sending? = x) :
    c'.sending? (.call k) = x := by
  show (c'.call? k).bind Call.sending? = _
  rw [call?_of_insert hcalls, if_pos rfl, ← hx]
  exact call.sending?_bare

theorem sending?_of_erase (hcalls : c'.calls = c.calls.erase k) :
    c'.sending? (.call k) = none := by
  show (c'.call? k).bind Call.sending? = _
  rw [call?_of_erase hcalls, if_pos rfl]
  rfl

theorem sending?_withdraw {id : UInt16} {fs : List String} :
    (c.withdraw k id fs).sending? (.call k) = none := by
  show ((c.withdraw k id fs).call? k).bind Call.sending? = _
  rw [call?_withdraw, if_pos rfl]
  rfl

theorem readerMoved_readOn : ReaderMoved c c.readOn := ⟨rfl, rfl, rfl, rfl, rfl, fun _ => rfl⟩

theorem readerMoved_takeFrame {a : Assembler} : ReaderMoved c (c.takeFrame a) :=
  ⟨rfl, rfl, rfl, rfl, rfl, fun _ => rfl⟩

theorem readerMoved_endReader : ReaderMoved c c.endReader :=
  ⟨rfl, rfl, rfl, rfl, rfl, fun _ => call?_endReader⟩

theorem readerMoved_keep {p : Publish} : ReaderMoved c (c.keep p) := by
  rw [keep]
  split_ifs
  · exact readerMoved_readOn
  · exact readerMoved_endReader
  · exact ⟨rfl, rfl, rfl, rfl, rfl, fun _ => rfl⟩

theorem readerMoved_complete {id : UInt16} {p : Packet} : ReaderMoved c (c.complete id p) :=
  ⟨rfl, rfl, rfl, rfl, rfl, fun _ => call?_complete⟩

theorem readerMoved_answer {ack : Packet} {p : Option Publish} : ReaderMoved c (c.answer ack p) :=
  ⟨rfl, rfl, rfl, rfl, rfl, fun _ => rfl⟩

theorem reader_keep {p : Publish} : (c.keep p).reader = .reading ∨ (c.keep p).reader = .over := by
  rw [keep]
  split_ifs
  · exact .inl rfl
  · exact .inr rfl
  · exact .inl rfl

theorem cancelled_keep {p : Publish} (h : c.cancelled = true) : (c.keep p).cancelled = true := by
  rw [keep]
  split_ifs
  · exact h
  · rfl
  · exact h

theorem Handles.moved {p : Packet} (h : Handles c p c') : ReaderMoved c c' := by
  cases h with
  | acknowledges _ | releases => exact readerMoved_answer
  | keeps _ => exact readerMoved_keep
  | completes _ => exact readerMoved_complete.trans readerMoved_readOn
  | disconnects => exact readerMoved_endReader
  | ignores _ => exact readerMoved_readOn

/-- A packet is answered, or the reading task goes on or ends. -/
theorem Handles.reader {p : Packet} (h : Handles c p c') :
    c'.reader = .reading ∨ c'.reader = .over ∨
      ∃ ack q, ack.isPlain = true ∧ c'.reader = .answering (c.frameOf ack) .starting q := by
  cases h with
  | acknowledges hack => exact .inr (.inr ⟨_, _, hack.isPlain, rfl⟩)
  | releases => exact .inr (.inr ⟨_, _, rfl, rfl⟩)
  | keeps _ => exact reader_keep.imp_right .inl
  | disconnects => exact .inr (.inl rfl)
  | completes _ | ignores _ => exact .inl rfl

theorem Handles.cancelled {p : Packet} (h : Handles c p c') (hc : c.cancelled = true) :
    c'.cancelled = true := by
  cases h with
  | acknowledges _ | releases | completes _ | ignores _ => exact hc
  | keeps _ => exact cancelled_keep hc
  | disconnects => rfl

theorem reader_afterAnswer {p : Option Publish} :
    (c.afterAnswer p).reader = .reading ∨ (c.afterAnswer p).reader = .over := by
  cases p with
  | none => exact .inl rfl
  | some p => exact reader_keep

theorem cancelled_afterAnswer {p : Option Publish} (h : c.cancelled = true) :
    (c.afterAnswer p).cancelled = true := by
  cases p with
  | none => exact h
  | some p => exact cancelled_keep h

theorem readerMoved_afterAnswer {p : Option Publish} : ReaderMoved c (c.afterAnswer p) := by
  cases p with
  | none => exact readerMoved_readOn
  | some p => exact readerMoved_keep

end Client
end Mqtt
