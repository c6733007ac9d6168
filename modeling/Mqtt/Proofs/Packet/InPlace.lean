import Mqtt.Proofs.Packet.Wire
/-!
# Writing in place

`Packet.writeFrame` has the body of a packet written straight behind what a writer holds, into room
that was committed before anything stood in it, and moves it down in the end.
`Packet.writeFrameTwoStep` is the plain way: the body into a fresh writer, and the frame from there.
`writeFrame_agrees_twoStep` says that nobody can tell them apart by the bytes that are committed,
and that the guards of the writer hold on both ways.

The argument rests on `scripted_encode`: `encode` puts the same byte strings in the same order
whatever the writer is, and ends alike (`Encoder.Script`). So what it does behind the room is what
it does in the fresh writer, and a put makes room of its own in front of its commit. What is left is
the room for the head (`writeFrame?_eq_run`): it is made before it is committed, and the head fits.
-/

namespace Mqtt

/-! ### Scripts -/

namespace Encoder

variable {α β : Type}

/-- What an encoder does to whatever writer it is given: the byte strings that it puts, one after
the other, and how it ends. -/
structure Script (α : Type) where
  pieces : List Bytes
  outcome : Except Fault α

namespace Script

/-- The outcome, with the writer that is left. -/
def result (s : Script α) (w : Writer) : EStateM.Result Fault Writer α :=
  match s.outcome with
  | .ok a => .ok a w
  | .error e => .error e w

/-- The script carried out. -/
def run (s : Script α) (w : Writer) : EStateM.Result Fault Writer α :=
  s.result (s.pieces.foldl Writer.put w)

/-- The script carried out, with every commit checked. -/
def run? (s : Script α) (w : Writer) :
    Except Writer.Overrun (EStateM.Result Fault Writer α) :=
  s.result <$> s.pieces.foldlM Writer.put? w

theorem run?_eq_run (s : Script α) (w : Writer) : s.run? w = .ok (s.run w) := by
  have hput : Writer.put? = fun w bs => .ok (w.put bs) := funext₂ Writer.put?_eq_put
  have hfold : s.pieces.foldlM Writer.put? w = .ok (s.pieces.foldl Writer.put w) := by
    rw [hput]
    exact List.foldlM_pure
  rw [run?, hfold]
  rfl

end Script

/-- The encoder fails on any writer with this fault, and leaves what was committed as it was. -/
def Refuses (e : Encoder α) (f : Fault) : Prop :=
  ∀ w : Writer, ∃ w', e.run w = .error f w' ∧ w'.written = w.written

/-- An encoder that follows a script: what it does depends in no way on the writer. -/
def Scripted (e : Encoder α) : Prop := ∃ s : Script α, ∀ w, e.run w = s.run w

theorem scripted_pure (a : α) : (pure a : Encoder α).Scripted := ⟨⟨[], .ok a⟩, fun _ => rfl⟩

theorem scripted_throw (f : Fault) : (throw f : Encoder α).Scripted :=
  ⟨⟨[], .error f⟩, fun _ => rfl⟩

theorem scripted_bytes (bs : Bytes) : (bytes bs).Scripted := ⟨⟨[bs], .ok ()⟩, fun _ => rfl⟩

/-- One script after the other, or the first alone if it ends in a fault. -/
theorem Scripted.bind {e : Encoder α} {k : α → Encoder β} (he : e.Scripted)
    (hk : ∀ a, (k a).Scripted) : (e >>= k).Scripted := by
  obtain ⟨⟨pieces, outcome⟩, he⟩ := he
  cases outcome with
  | error f =>
    refine ⟨⟨pieces, .error f⟩, fun w => ?_⟩
    rw [EStateM.run_bind, he]
    rfl
  | ok a =>
    obtain ⟨s, hs⟩ := hk a
    refine ⟨⟨pieces ++ s.pieces, s.outcome⟩, fun w => ?_⟩
    rw [EStateM.run_bind, he]
    show (k a).run (pieces.foldl Writer.put w) = _
    rw [hs, Script.run, Script.run, List.foldl_append]
    rfl

theorem scripted_check {c : Prop} [Decidable c] (f : Fault) {k : Unit → Encoder β}
    (hk : (k ()).Scripted) : (if c then throw f >>= k else k () : Encoder β).Scripted := by
  split
  · exact (scripted_throw f).bind fun _ => hk
  · exact hk

theorem scripted_binary (bs : Bytes) : (binary bs).Scripted := by
  unfold binary
  refine scripted_check _ ?_
  exact (scripted_bytes _).bind fun _ => scripted_bytes bs

theorem scripted_remainingLength (n : Nat) : (remainingLength n).Scripted := by
  unfold remainingLength
  refine scripted_check _ ?_
  exact (scripted_bytes _).bind fun _ => scripted_pure _

theorem scripted_forM {f : α → Encoder Unit} (h : ∀ a, (f a).Scripted) (l : List α) :
    (l.forM f).Scripted := by
  induction l with
  | nil => exact scripted_pure ()
  | cons a l ih => exact (h a).bind fun _ => ih

end Encoder

open Encoder

theorem Frame.exists_chunks (bs : Bytes) :
    ∃ pieces : List Bytes, ∀ w, putChunks bs w = pieces.foldl Writer.put w := by
  induction h : bs.length using Nat.strong_induction_on generalizing bs with
  | h n ih =>
    by_cases hbs : bs = []
    · exact ⟨[], fun w => by rw [putChunks, dif_pos hbs]; rfl⟩
    · have hpos := List.length_pos_iff.2 hbs
      obtain ⟨pieces, hp⟩ := ih (bs.drop chunkSize).length
        (by rw [List.length_drop, chunkSize]; omega) _ rfl
      exact ⟨bs.take chunkSize :: pieces, fun w => by rw [putChunks, dif_neg hbs, hp]; rfl⟩

theorem Frame.scripted_write (f : Frame) : f.write.Scripted := by
  obtain ⟨pieces, hp⟩ := exists_chunks f.body
  have hbody : (modify fun w => putChunks f.body w : Encoder Unit).Scripted :=
    ⟨⟨pieces, .ok ()⟩, fun w => by
      show EStateM.Result.ok () (putChunks f.body w) = _
      rw [hp]
      rfl⟩
  unfold write
  refine scripted_check _ ?_
  exact (scripted_bytes _).bind fun _ =>
    ((scripted_remainingLength _).bind fun _ => scripted_pure ()).bind fun _ => hbody

namespace Packet

theorem scripted_encodeOptional {α : Type} {put : α → Encoder Unit} (h : ∀ a, (put a).Scripted)
    (o : Option α) : (encodeOptional put o).Scripted := by
  cases o with
  | none => exact scripted_pure ()
  | some a => exact h a

theorem scripted_encodeConnect (v : Version) (c : Connect) : (encodeConnect v c).Scripted := by
  have hwill (w : Will) : (do Encoder.text w.topic; Encoder.binary w.payload :
      Encoder Unit).Scripted := (scripted_binary _).bind fun _ => scripted_binary _
  unfold encodeConnect
  refine scripted_check _ (scripted_check _ ?_)
  exact (scripted_binary _).bind fun _ => (scripted_bytes _).bind fun _ =>
    (scripted_bytes _).bind fun _ => (scripted_bytes _).bind fun _ =>
    (scripted_binary _).bind fun _ => (scripted_encodeOptional hwill c.will).bind fun _ =>
    (scripted_encodeOptional (fun _ => scripted_binary _) c.username).bind fun _ =>
    scripted_encodeOptional scripted_binary c.password

theorem scripted_encodePublish (p : Publish) : (encodePublish p).Scripted := by
  unfold encodePublish
  rcases p.validate with e | ⟨⟩
  · exact scripted_throw e
  · exact (scripted_binary _).bind fun _ =>
      (scripted_encodeOptional (fun _ => scripted_bytes _) p.packetId).bind fun _ =>
      scripted_bytes p.payload

/-- **`encode` follows a script.** -/
theorem scripted_encode (v : Version) (p : Packet) : (encode v p).Scripted := by
  unfold encode
  cases p with
  | connect c => exact (scripted_encodeConnect v c).bind fun _ => scripted_pure _
  | connAck a =>
    exact (scripted_bytes _).bind fun _ => (scripted_bytes _).bind fun _ => scripted_pure _
  | publish m => exact (scripted_encodePublish m).bind fun _ => scripted_pure _
  | pubAck id | pubRec id | pubComp id | unsubAck id | pubRel id =>
    exact (scripted_bytes _).bind fun _ => scripted_pure _
  | subscribe id wanted =>
    refine scripted_check _ ?_
    exact (scripted_bytes _).bind fun _ =>
      (scripted_forM (fun _ => (scripted_binary _).bind fun _ => scripted_bytes _)
        wanted).bind fun _ => scripted_pure _
  | subAck id codes =>
    refine scripted_check _ ?_
    exact (scripted_bytes _).bind fun _ =>
      (scripted_forM (fun _ => scripted_bytes _) codes).bind fun _ => scripted_pure _
  | unsubscribe id filters =>
    refine scripted_check _ ?_
    exact (scripted_bytes _).bind fun _ =>
      (scripted_forM (fun _ => scripted_binary _) filters).bind fun _ => scripted_pure _
  | pingReq | pingResp | disconnect => exact scripted_pure _

/-! ### The two ways -/

/-- The plain way: the body goes into a writer of its own, and is then written as a frame. -/
def writeFrameTwoStep (v : Version) (p : Packet) : Encoder Unit :=
  match (encode v p).run Writer.empty with
  | .ok header w => (Frame.mk header w.written).write
  | .error e _ => throw e

/-- A guard of the writer that does not hold. -/
inductive Breach where
  | overrun (o : Writer.Overrun)
  | misfit (m : Writer.Misfit)
deriving DecidableEq, Repr

/-- `writeFrame` with every guard of the writer checked, where `encode` follows a script. -/
def writeFrame? (kind : PacketKind) (s : Script UInt8) (w : Writer) :
    Except Breach (EStateM.Result Fault Writer Unit) := do
  let room ← ((w.makeRoom slotSize).commit? slotSize).mapError .overrun
  match ← (s.run? room).mapError .overrun with
  | .error e w' => return .error e (w'.truncate w.size)
  | .ok header w' =>
    let n := w'.size - w.size - slotSize
    if RemainingLength.limit < n then
      return .error (.violation (.bodyTooLarge kind n)) (w'.truncate w.size)
    else
      let head := header :: RemainingLength.digits n
      let w'' ← (w'.fillReserved? w.size (w.size + slotSize) head).mapError .misfit
      return .ok () w''

variable {v : Version} {p : Packet} {s : Script UInt8}

/-- The writer behind the room for the head, once the script has been carried out there. -/
def behindSlot (s : Script UInt8) (w : Writer) : Writer :=
  s.pieces.foldl Writer.put ((w.makeRoom slotSize).commit slotSize)

theorem written_behindSlot (s : Script UInt8) (w : Writer) :
    ∃ slot : Bytes, slot.length = slotSize ∧
      (behindSlot s w).written = w.written ++ slot ++ s.pieces.flatten := by
  obtain ⟨slot, hslot, hw⟩ := written_reserve w
  exact ⟨slot, hslot, by rw [behindSlot, Writer.written_foldl_put, hw]⟩

theorem size_behindSlot (s : Script UInt8) (w : Writer) :
    (behindSlot s w).size = w.size + slotSize + s.pieces.flatten.length := by
  obtain ⟨slot, hslot, hw⟩ := written_behindSlot s w
  rw [Writer.size_eq_length, hw, List.length_append, List.length_append, hslot,
    Writer.size_eq_length]

theorem run_slot (s : Script UInt8) (w : Writer) :
    s.run ((w.makeRoom slotSize).commit slotSize) = s.result (behindSlot s w) := rfl

/-- What `writeFrame` does when `encode` follows a script. -/
theorem run_writeFrame_of_script (hs : ∀ w, (encode v p).run w = s.run w) (w : Writer) :
    (writeFrame v p).run w =
      match s.outcome with
      | .error f => .error f ((behindSlot s w).truncate w.size)
      | .ok header =>
        if RemainingLength.limit < s.pieces.flatten.length then
          .error (.violation (.bodyTooLarge p.kind s.pieces.flatten.length))
            ((behindSlot s w).truncate w.size)
        else
          .ok () ((behindSlot s w).fillReserved w.size (w.size + slotSize)
            (header :: RemainingLength.digits s.pieces.flatten.length)) := by
  have hsize : (behindSlot s w).size - w.size - slotSize = s.pieces.flatten.length := by
    rw [size_behindSlot]
    omega
  rw [run_writeFrame, hs, run_slot, Script.result]
  rcases s.outcome with f | header
  · rfl
  · dsimp only
    rw [hsize]

/-- The guards hold: room is made before it is committed, for the head as for every piece, and the
head fits into its room, which is committed by then. -/
theorem writeFrame?_eq_run (hs : ∀ w, (encode v p).run w = s.run w) (w : Writer) :
    writeFrame? p.kind s w = .ok ((writeFrame v p).run w) := by
  have hsize := size_behindSlot s w
  have hn : (behindSlot s w).size - w.size - slotSize = s.pieces.flatten.length := by omega
  rw [run_writeFrame_of_script hs, writeFrame?, Writer.commit?_makeRoom]
  simp only [Except.mapError, bind, Except.bind, Script.run?_eq_run, run_slot, Script.result]
  rcases s.outcome with f | header
  · rfl
  · dsimp only
    rw [hn]
    split_ifs with hlimit
    · rfl
    · have hhead := RemainingLength.length_digits_le_maxWidth (Nat.not_lt.1 hlimit)
      rw [Writer.fillReserved?, if_pos]
      · rfl
      · have : slotSize = 1 + RemainingLength.maxWidth := rfl
        rw [List.length_cons]
        omega

/-- What the plain way does when `encode` follows a script. -/
theorem writeFrameTwoStep_of_script (hs : ∀ w, (encode v p).run w = s.run w) :
    writeFrameTwoStep v p =
      match s.outcome with
      | .error f => throw f
      | .ok header => (Frame.mk header s.pieces.flatten).write := by
  have hfresh := Writer.written_foldl_put s.pieces Writer.empty
  rw [writeFrameTwoStep, hs, Script.run, Script.result]
  rcases s.outcome with f | header
  · rfl
  · dsimp only
    rw [hfresh, Writer.written_empty, List.nil_append]

theorem scripted_writeFrameTwoStep (v : Version) (p : Packet) :
    (writeFrameTwoStep v p).Scripted := by
  rw [writeFrameTwoStep]
  split
  · exact Frame.scripted_write _
  · exact scripted_throw _

/-- Whatever stands behind the start is dropped again. -/
theorem written_truncate_behindSlot (s : Script UInt8) (w : Writer) :
    ((behindSlot s w).truncate w.size).written = w.written := by
  obtain ⟨slot, -, hw⟩ := written_behindSlot s w
  rw [List.append_assoc] at hw
  exact written_truncate_size hw

/-! #### The three outcomes -/

section Outcomes

variable (hs : ∀ w, (encode v p).run w = s.run w)
include hs

/-- A fault of `encode` is the fault of both ways. -/
theorem refuses_of_script {f : Fault} (hout : s.outcome = .error f) :
    (writeFrame v p).Refuses f ∧ (writeFrameTwoStep v p).Refuses f := by
  refine ⟨fun w => ⟨_, ?_, written_truncate_behindSlot s w⟩, fun w => ⟨w, ?_, rfl⟩⟩
  · rw [run_writeFrame_of_script hs, hout]
  · rw [writeFrameTwoStep_of_script hs, hout]
    rfl

/-- A body that is too long is refused on both ways, each in its own words. -/
theorem refuses_tooLarge_of_script {header : UInt8} (hout : s.outcome = .ok header)
    (hlimit : RemainingLength.limit < s.pieces.flatten.length) :
    (writeFrame v p).Refuses (.violation (.bodyTooLarge p.kind s.pieces.flatten.length)) ∧
      (writeFrameTwoStep v p).Refuses
        (.violation (.frameTooLarge s.pieces.flatten.length)) := by
  refine ⟨fun w => ⟨_, ?_, written_truncate_behindSlot s w⟩, fun w => ⟨w, ?_, rfl⟩⟩
  · rw [run_writeFrame_of_script hs, hout]
    exact if_pos hlimit
  · rw [writeFrameTwoStep_of_script hs, hout]
    dsimp only
    rw [Frame.write, if_pos hlimit]
    rfl

/-- Otherwise both ways append the frame. -/
theorem appends_of_script {header : UInt8} (hout : s.outcome = .ok header)
    (hlimit : s.pieces.flatten.length ≤ RemainingLength.limit) :
    (writeFrame v p).Appends (Frame.mk header s.pieces.flatten).bytes () ∧
      (writeFrameTwoStep v p).Appends (Frame.mk header s.pieces.flatten).bytes () := by
  refine ⟨fun w => ⟨(behindSlot s w).fillReserved w.size (w.size + slotSize)
    (header :: RemainingLength.digits s.pieces.flatten.length), ?_, ?_⟩, ?_⟩
  · rw [run_writeFrame_of_script hs, hout]
    exact if_neg (Nat.not_lt.2 hlimit)
  · obtain ⟨slot, hslot, hw⟩ := written_behindSlot s w
    have hstart : (w.written ++ slot).length = w.size + slotSize := by
      rw [List.length_append, hslot, Writer.size_eq_length]
    rw [Writer.written_fillReserved, hw, ← hstart, List.drop_left, Writer.size_eq_length,
      List.append_assoc w.written, List.take_left, List.append_assoc]
    rfl
  · rw [writeFrameTwoStep_of_script hs, hout]
    exact (Frame.write_writes ⟨header, s.pieces.flatten⟩).appends hlimit

end Outcomes

/-- **In place or in two steps, a packet is written alike.** The guards of the writer hold on both
ways, whatever the writer holds and however large it is. Either both ways append the same bytes to
any writer, or both refuse the packet on any writer and leave what was committed as it was; the
faults are the same then, except that a body that is too long is reported as one. -/
theorem writeFrame_agrees_twoStep (v : Version) (p : Packet) :
    (∃ s : Script UInt8, ∀ w, (encode v p).run w = s.run w ∧
      writeFrame? p.kind s w = .ok ((writeFrame v p).run w)) ∧
    (∃ s : Script Unit, ∀ w, (writeFrameTwoStep v p).run w = s.run w ∧
      s.run? w = .ok ((writeFrameTwoStep v p).run w)) ∧
    ((∃ bs, (writeFrame v p).Appends bs () ∧ (writeFrameTwoStep v p).Appends bs ()) ∨
      ∃ f f', (writeFrame v p).Refuses f ∧ (writeFrameTwoStep v p).Refuses f' ∧
        (f' = f ∨ ∃ n, f = .violation (.bodyTooLarge p.kind n) ∧
          f' = .violation (.frameTooLarge n))) := by
  obtain ⟨s, hs⟩ := scripted_encode v p
  obtain ⟨t, ht⟩ := scripted_writeFrameTwoStep v p
  refine ⟨⟨s, fun w => ⟨hs w, writeFrame?_eq_run hs w⟩⟩,
    ⟨t, fun w => ⟨ht w, by rw [ht, t.run?_eq_run]⟩⟩, ?_⟩
  rcases hout : s.outcome with f | header
  · obtain ⟨hplace, hsteps⟩ := refuses_of_script hs hout
    exact .inr ⟨f, f, hplace, hsteps, .inl rfl⟩
  · by_cases hlimit : s.pieces.flatten.length ≤ RemainingLength.limit
    · exact .inl ⟨_, appends_of_script hs hout hlimit⟩
    · obtain ⟨hplace, hsteps⟩ := refuses_tooLarge_of_script hs hout (Nat.not_le.1 hlimit)
      exact .inr ⟨_, _, hplace, hsteps, .inr ⟨_, rfl, rfl⟩⟩

end Packet
end Mqtt
