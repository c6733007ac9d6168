import Mqtt.Packet.Encode
import Mqtt.Proofs.Frame
/-!
# The bytes of a packet

`Packet.header` and `Packet.body` say, field by field, which bytes a packet has on the wire, and
`Packet.WellFormed` which packets have any. `encode_writes` ties them to `Packet.encode`, and
`writeFrame_ok` to `Packet.writeFrame`, which moves the body in place behind its length.

Of a packet that is not well-formed, `encode` may leave some fields behind, but nothing in front of
them is touched; `writeFrame` leaves nothing.
-/

namespace Mqtt

/-! ### Layout -/

/-- The bytes of a will: its topic and its payload. -/
def Will.body (w : Will) : Bytes := (Bytes.ofText w.topic).field ++ w.payload.field

/-- The bytes of a field that may be missing. -/
def Bytes.ofOption {α : Type} (g : α → Bytes) (o : Option α) : Bytes := o.elim [] g

/-- The body of a CONNECT. -/
def Connect.body (v : Version) (c : Connect) : Bytes :=
  (Bytes.ofText v.protocolName).field ++ [v.level] ++ [ConnectFlags.ofConnect c] ++
    Bytes.ofUInt16 c.keepAlive ++ (Bytes.ofText c.clientId).field ++
    Bytes.ofOption Will.body c.will ++
    Bytes.ofOption (fun s => (Bytes.ofText s).field) c.username ++
    Bytes.ofOption Bytes.field c.password

/-- The two bytes of a CONNACK. Version 3.1 does not say whether a session is present. -/
def ConnAck.body (v : Version) (a : ConnAck) : Bytes :=
  [match v with
    | .v310 => 0
    | .v311 => ConnectFlags.flagIf a.sessionPresent 1, a.code.toUInt8]

/-- The body of a PUBLISH. -/
def Publish.body (p : Publish) : Bytes :=
  (Bytes.ofText p.topic).field ++ Bytes.ofOption Bytes.ofUInt16 p.packetId ++ p.payload

/-- The bytes of one filter of a SUBSCRIBE. -/
def Subscription.body (s : Subscription) : Bytes :=
  (Bytes.ofText s.filter).field ++ [s.qos.toUInt8]

namespace Packet

/-- The first byte of the frame of a packet. -/
def header (p : Packet) : UInt8 :=
  p.kind.header (match p with
    | publish m => m.flags
    | pubRel _ | subscribe .. | unsubscribe .. => acknowledgedFlags
    | _ => 0)

/-- The body of the frame of a packet. -/
def body (v : Version) : Packet → Bytes
  | connect c => c.body v
  | connAck a => a.body v
  | publish p => p.body
  | pubAck id | pubRec id | pubRel id | pubComp id | unsubAck id => Bytes.ofUInt16 id
  | subscribe id wanted => Bytes.ofUInt16 id ++ wanted.flatMap Subscription.body
  | subAck id codes => Bytes.ofUInt16 id ++ codes.flatMap fun c => [c.toUInt8]
  | unsubscribe id filters =>
    Bytes.ofUInt16 id ++ filters.flatMap fun s => (Bytes.ofText s).field
  | pingReq | pingResp | disconnect => []

/-! ### Well-formed packets -/

/-- The fields of a packet that stand behind their length. -/
def fields : Packet → List Bytes
  | connect c =>
    Bytes.ofText c.clientId :: c.will.toList.flatMap (fun w => [Bytes.ofText w.topic, w.payload]) ++
      c.username.toList.map Bytes.ofText ++ c.password.toList
  | publish p => [Bytes.ofText p.topic]
  | subscribe _ wanted => wanted.map fun s => Bytes.ofText s.filter
  | unsubscribe _ filters => filters.map Bytes.ofText
  | _ => []

/-- The fields of a CONNECT, one by one. -/
theorem forall_fields_connect {c : Connect} {p : Bytes → Prop} :
    (∀ bs ∈ (connect c).fields, p bs) ↔ p (Bytes.ofText c.clientId) ∧
      (∀ w ∈ c.will, p (Bytes.ofText w.topic) ∧ p w.payload) ∧
      (∀ s ∈ c.username, p (Bytes.ofText s)) ∧ ∀ bs ∈ c.password, p bs := by
  obtain ⟨clientId, keepAlive, cleanSession, username, password, will⟩ := c
  cases will <;> simp [fields, or_imp, forall_and, and_assoc]

/-- The rules for a packet as a whole. -/
def Sound : Packet → Prop
  | connect c =>
    (c.password.isSome → c.username.isSome) ∧ (c.clientId = "" → c.cleanSession = true)
  | publish p => p.validate = .ok ()
  | subscribe _ wanted => wanted ≠ []
  | subAck _ codes => codes ≠ []
  | unsubscribe _ filters => filters ≠ []
  | _ => True

/-- A packet that can be written: it keeps the rules, no field is too long for its two-byte length,
and the body is not too long for the remaining length. -/
structure WellFormed (v : Version) (p : Packet) : Prop where
  sound : p.Sound
  fields : ∀ bs ∈ p.fields, bs.length ≤ Bytes.fieldLimit
  size : (p.body v).length ≤ RemainingLength.limit

/-! ### What `encode` appends -/

open Encoder

theorem encodeOptional_writes {α : Type} {put : α → Encoder Unit} {p : α → Prop}
    {g : α → Bytes} (h : ∀ a, (put a).Writes (p a) (g a) ()) (o : Option α) :
    (encodeOptional put o).Writes (∀ a ∈ o, p a) (Bytes.ofOption g o) () := by
  cases o with
  | none => exact (pure_writes ()).congr (by simp) rfl
  | some a => exact (h a).congr (by simp) rfl

theorem protocolName_fits (v : Version) : v.protocolName.utf8ByteSize ≤ Bytes.fieldLimit := by
  cases v <;> decide

theorem encodeWill_writes (w : Will) :
    (do Encoder.text w.topic; Encoder.binary w.payload : Encoder Unit).Writes
      (w.topic.utf8ByteSize ≤ Bytes.fieldLimit ∧ w.payload.length ≤ Bytes.fieldLimit) w.body () :=
  (text_writes w.topic).bind (k := fun _ => Encoder.binary w.payload) (binary_writes w.payload)

theorem encodeConnect_writes (v : Version) (c : Connect) :
    (encodeConnect v c).Writes
      ((connect c).Sound ∧ ∀ bs ∈ (connect c).fields, bs.length ≤ Bytes.fieldLimit)
      (c.body v) () := by
  unfold encodeConnect
  refine Writes.congr (check_writes _ (check_writes _
    ((text_writes _).bind ((byte_writes _).bind ((byte_writes _).bind ((uint16_writes _).bind
      ((text_writes _).bind ((encodeOptional_writes encodeWill_writes c.will).bind
        ((encodeOptional_writes text_writes c.username).bind
          (encodeOptional_writes binary_writes c.password)))))))))) ?_ ?_
  · have hname := protocolName_fits v
    have hrule {a b : Bool} : ¬(a && !b) = true ↔ (a = true → b = true) := by
      cases a <;> cases b <;> decide
    rw [forall_fields_connect, Sound, ← String.isEmpty_iff, ← hrule, ← hrule, Option.not_isSome]
    simp only [hname, true_and, and_assoc]
    rfl
  · simp only [Connect.body, List.append_assoc]

theorem encodePublish_writes (p : Publish) :
    (encodePublish p).Writes
      (p.validate = .ok () ∧ (Bytes.ofText p.topic).length ≤ Bytes.fieldLimit) p.body () := by
  unfold encodePublish
  rcases hv : p.validate with e | ⟨⟩
  · refine ⟨fun h => ?_, fun _ => throw_fails e⟩
    cases h.1
  · refine Writes.congr ((text_writes _).bind
      ((encodeOptional_writes uint16_writes p.packetId).bind (bytes_writes p.payload))) ?_ ?_
    · simp
    · simp only [Publish.body, List.append_assoc]

/-- **`encode` appends the body** and answers with the first byte if the packet is sound and its
fields fit; otherwise it fails. -/
theorem encode_writes (v : Version) (p : Packet) :
    (encode v p).Writes (p.Sound ∧ ∀ bs ∈ p.fields, bs.length ≤ Bytes.fieldLimit)
      (p.body v) p.header := by
  -- Five kinds of packets are nothing but an id.
  have hid (id : UInt16) (h : UInt8) :
      (do Encoder.uint16 id; return h : Encoder UInt8).Writes True (Bytes.ofUInt16 id) h :=
    ((uint16_writes id).bind (k := fun _ => pure h) (pure_writes h)).congr (by simp)
      (List.append_nil _)
  unfold encode
  cases p with
  | connect c =>
    refine Writes.congr ((encodeConnect_writes v c).bind (pure_writes _)) ?_ (List.append_nil _)
    rw [and_true]
  | connAck a =>
    refine Writes.congr ((byte_writes _).bind ((byte_writes _).bind (pure_writes _))) ?_ rfl
    simp [Sound, fields]
  | publish m =>
    refine Writes.congr ((encodePublish_writes m).bind (pure_writes _)) ?_ (List.append_nil _)
    simp [Sound, fields]
  | pubAck id | pubRec id | pubRel id | pubComp id | unsubAck id =>
    exact (hid id _).congr (by simp [Sound, fields]) rfl
  | subscribe id wanted =>
    -- Each item of the row fits or does not, and one that does not fails the row.
    have hitem (s : Subscription) :
        (do Encoder.text s.filter; Encoder.byte s.qos.toUInt8 : Encoder Unit).Writes
          (s.filter.utf8ByteSize ≤ Bytes.fieldLimit) s.body () :=
      ((text_writes s.filter).bind (k := fun _ => Encoder.byte s.qos.toUInt8)
        (byte_writes _)).congr (by simp) rfl
    refine Writes.congr (check_writes _ ((uint16_writes id).bind
      ((forM_writes hitem wanted).bind (pure_writes _)))) ?_ ?_
    · simp [Sound, fields]
    · rw [List.append_nil]
      rfl
  | subAck id codes =>
    refine Writes.congr (check_writes _ ((uint16_writes id).bind
      ((forM_writes (fun c : SubscribeCode => byte_writes c.toUInt8) codes).bind
        (pure_writes _)))) ?_ ?_
    · simp [Sound, fields]
    · rw [List.append_nil]
      rfl
  | unsubscribe id filters =>
    refine Writes.congr (check_writes _ ((uint16_writes id).bind
      ((forM_writes text_writes filters).bind (pure_writes _)))) ?_ ?_
    · simp [Sound, fields]
    · rw [List.append_nil]
      rfl
  | pingReq | pingResp | disconnect =>
    exact (pure_writes _).congr (by simp [Sound, fields]) rfl

/-! ### What `writeFrame` appends -/

/-- The frame of a packet. -/
def frame (v : Version) (p : Packet) : Frame := ⟨p.header, p.body v⟩

/-- The room for the head of a frame: five committed bytes behind what was there. -/
theorem written_reserve (w : Writer) :
    ∃ slot : Bytes, slot.length = slotSize ∧
      ((w.makeRoom slotSize).commit slotSize).written = w.written ++ slot := by
  refine ⟨(w.makeRoom slotSize).scratch.take slotSize, ?_, ?_⟩
  · rw [List.length_take, Nat.min_eq_left (w.le_length_scratch_makeRoom slotSize)]
  · rw [Writer.written_commit, Writer.written_makeRoom]

/-- What is left of a faulty packet when everything behind the start is dropped: nothing. -/
theorem written_truncate_size {w w' : Writer} {more : Bytes}
    (h : w'.written = w.written ++ more) : (w'.truncate w.size).written = w.written := by
  rw [Writer.written_truncate, h, Writer.size_eq_length, List.take_left]

/-- The steps of `writeFrame`, with the room for the head taken first. -/
theorem run_writeFrame (v : Version) (p : Packet) (w : Writer) :
    (writeFrame v p).run w =
      match (encode v p).run ((w.makeRoom slotSize).commit slotSize) with
      | .error e w' => .error e (w'.truncate w.size)
      | .ok header w' =>
        let n := w'.size - w.size - slotSize
        if RemainingLength.limit < n then
          .error (.violation (.bodyTooLarge p.kind n)) (w'.truncate w.size)
        else
          .ok () (w'.fillReserved w.size (w.size + slotSize)
            (header :: RemainingLength.digits n)) := by
  unfold writeFrame
  simp only [EStateM.run_bind, EStateM.run_get, EStateM.run_modify]
  generalize (w.makeRoom slotSize).commit slotSize = w₁
  -- A fault of `encode` is caught only to drop what it left, and then goes on.
  have hcatch : (tryCatch (encode v p) fun e => do
        modify fun w' => w'.truncate w.size
        throw e : Encoder UInt8).run w₁ =
      match (encode v p).run w₁ with
      | .ok header w' => .ok header w'
      | .error e w' => .error e (w'.truncate w.size) := by
    show EStateM.tryCatch (encode v p) _ w₁ = _
    unfold EStateM.tryCatch EStateM.run
    rcases encode v p w₁ with ⟨header, w'⟩ | ⟨e, w'⟩ <;> rfl
  rw [hcatch]
  rcases (encode v p).run w₁ with ⟨header, w'⟩ | ⟨e, w'⟩
  · dsimp only
    split_ifs <;> rfl
  · rfl

/-- **A well-formed packet is appended as its frame.** -/
theorem writeFrame_ok {v : Version} {p : Packet} (h : p.WellFormed v) (w : Writer) :
    ∃ w', (writeFrame v p).run w = .ok () w' ∧ w'.written = w.written ++ (p.frame v).bytes := by
  obtain ⟨slot, hslot, hw₁⟩ := written_reserve w
  obtain ⟨w₂, hrun, hw₂⟩ := (encode_writes v p).appends ⟨h.sound, h.fields⟩
    ((w.makeRoom slotSize).commit slotSize)
  rw [hw₁] at hw₂
  have hsize : w₂.size - w.size - slotSize = (p.body v).length := by
    rw [Writer.size_eq_length, Writer.size_eq_length, hw₂]
    simp only [List.length_append, hslot]
    omega
  refine ⟨w₂.fillReserved w.size (w.size + slotSize)
    (p.header :: RemainingLength.digits (p.body v).length), ?_, ?_⟩
  · rw [run_writeFrame, hrun]
    dsimp only
    rw [hsize, if_neg (Nat.not_lt.2 h.size)]
  · have hstart : (w.written ++ slot).length = w.size + slotSize := by
      rw [List.length_append, hslot, Writer.size_eq_length]
    rw [Writer.written_fillReserved, hw₂, ← hstart, List.drop_left, Writer.size_eq_length,
      List.append_assoc w.written, List.take_left, List.append_assoc]
    rfl

/-- Of a packet that is not well-formed nothing is appended. -/
theorem writeFrame_error {v : Version} {p : Packet} (h : ¬p.WellFormed v) (w : Writer) :
    ∃ e w', (writeFrame v p).run w = .error e w' ∧ w'.written = w.written := by
  obtain ⟨slot, hslot, hw₁⟩ := written_reserve w
  by_cases hs : p.Sound ∧ ∀ bs ∈ p.fields, bs.length ≤ Bytes.fieldLimit
  · obtain ⟨w₂, hrun, hw₂⟩ := (encode_writes v p).appends hs ((w.makeRoom slotSize).commit slotSize)
    rw [hw₁, List.append_assoc] at hw₂
    have hsize : w₂.size - w.size - slotSize = (p.body v).length := by
      rw [Writer.size_eq_length, Writer.size_eq_length, hw₂]
      simp only [List.length_append, hslot]
      omega
    have hlong : RemainingLength.limit < (p.body v).length := by
      by_contra hle
      exact h ⟨hs.1, hs.2, Nat.not_lt.1 hle⟩
    refine ⟨.violation (.bodyTooLarge p.kind (p.body v).length), w₂.truncate w.size, ?_,
      written_truncate_size hw₂⟩
    rw [run_writeFrame, hrun]
    dsimp only
    rw [hsize, if_pos hlong]
  · obtain ⟨e, w₂, more, hrun, hw₂⟩ := (encode_writes v p).fails hs
      ((w.makeRoom slotSize).commit slotSize)
    rw [hw₁, List.append_assoc] at hw₂
    refine ⟨e, w₂.truncate w.size, ?_, written_truncate_size hw₂⟩
    rw [run_writeFrame, hrun]

/-- The bytes of a packet as a frame of its own. -/
theorem toBytes_eq_ok {v : Version} {p : Packet} {bs : Bytes} :
    p.toBytes v = .ok bs ↔ p.WellFormed v ∧ bs = (p.frame v).bytes := by
  by_cases h : p.WellFormed v
  · obtain ⟨w', hrun, hw⟩ := writeFrame_ok h Writer.empty
    rw [toBytes, hrun]
    simp [h, hw, eq_comm]
  · obtain ⟨e, w', hrun, -⟩ := writeFrame_error h Writer.empty
    rw [toBytes, hrun]
    simp [h]

/-- A writer that is used again makes no difference: after a reset it comes to hold the frame, or
nothing. -/
theorem run_writeFrame_reset (v : Version) (p : Packet) (w : Writer) :
    match (writeFrame v p).run w.reset with
    | .ok _ w' => p.toBytes v = .ok w'.written
    | .error _ w' => (∃ e, p.toBytes v = .error e) ∧ w'.written = [] := by
  by_cases h : p.WellFormed v
  · obtain ⟨w', hrun, hw⟩ := writeFrame_ok h w.reset
    rw [hrun]
    exact toBytes_eq_ok.2 ⟨h, by rw [hw, Writer.written_reset, List.nil_append]⟩
  · obtain ⟨e, w', hrun, hw⟩ := writeFrame_error h w.reset
    obtain ⟨e', w'', hrun', -⟩ := writeFrame_error h Writer.empty
    rw [hrun]
    exact ⟨⟨e', by rw [toBytes, hrun']⟩, by rw [hw, Writer.written_reset]⟩

theorem frameWhole_toBytes (v : Version) (p : Packet) : FrameWhole (p.toBytes v) := by
  intro bs h
  obtain ⟨hp, rfl⟩ := toBytes_eq_ok.1 h
  exact Frame.whole_bytes hp.size

end Packet
end Mqtt
