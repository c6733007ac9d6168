import Mqtt.Packet.Decode
import Mqtt.Proofs.Packet.Wire
/-!
# Reading back a written packet

* `decode_frame`: the frame of a well-formed packet decodes to that packet, up to the one thing that
  version 3.1 does not carry (`Packet.carried`).
* `writeFrame_round_trip`: with what `writeFrame` appends, the round trip through the wire.

The body of each kind of packet is read by the decoder for that kind in the order in which it was
written, so a fact about a body is the chain of the facts about its fields; what remains is that
the flag bytes are read as they were made up.
-/

namespace Mqtt
namespace Packet

open Decoder

/-! ### First bytes and flags -/

/-- The first byte of the frame of a packet names its kind. -/
theorem ofHeader_header (p : Packet) : PacketKind.ofHeader p.header = .ok p.kind := by
  cases p with
  | publish m =>
    obtain ⟨topic, payload, qos, retain, dup, id⟩ := m
    dsimp only [header, kind, Publish.flags]
    cases qos <;> cases retain <;> cases dup <;> rfl
  | _ =>
    dsimp only [header, kind]
    rfl

theorem qos_parse_toUInt8 (q : QoS) : QoS.parse q.toUInt8 = .ok q := by
  rw [QoS.parse, QoS.ofUInt8?_toUInt8]

theorem connectCode_parse_toUInt8 (c : ConnectCode) : ConnectCode.parse c.toUInt8 = .ok c := by
  rw [ConnectCode.parse, ConnectCode.ofUInt8?_toUInt8]

theorem subscribeCode_parse_toUInt8 (c : SubscribeCode) :
    SubscribeCode.parse c.toUInt8 = .ok c := by
  rw [SubscribeCode.parse, SubscribeCode.ofUInt8?_toUInt8]

/-- The level, the retain flag and the repetition flag of a PUBLISH stand in its first byte. -/
theorem flags_publish (m : Publish) (body : Bytes) :
    let f : Frame := ⟨(publish m).header, body⟩
    QoS.parse ((f.flags >>> 1) &&& 0x03) = .ok m.qos ∧ hasFlag f.flags 0x01 = m.retain ∧
      hasFlag f.flags 0x08 = m.dup := by
  obtain ⟨topic, payload, qos, retain, dup, id⟩ := m
  dsimp only [Frame.flags, header, kind, Publish.flags]
  cases qos <;> cases retain <;> cases dup <;> exact ⟨rfl, rfl, rfl⟩

/-- What the flags of a CONNECT say. -/
structure SaysConnect (flags : UInt8) (c : Connect) : Prop where
  reserved : hasFlag flags ConnectFlags.reserved = false
  cleanSession : hasFlag flags ConnectFlags.cleanSession = c.cleanSession
  will : hasFlag flags ConnectFlags.will = c.will.isSome
  willQoS : QoS.parse ((flags >>> 3) &&& 0x03) = .ok (c.will.elim .atMostOnce Will.qos)
  willRetain : hasFlag flags ConnectFlags.willRetain = c.will.elim false Will.retain
  username : hasFlag flags ConnectFlags.username = c.username.isSome
  password : hasFlag flags ConnectFlags.password = c.password.isSome

theorem saysConnect_ofConnect (c : Connect) : SaysConnect (ConnectFlags.ofConnect c) c := by
  obtain ⟨clientId, keepAlive, cleanSession, username, password, will⟩ := c
  rcases will with _ | ⟨topic, payload, qos, retain⟩
  · constructor <;> dsimp only [ConnectFlags.ofConnect, Option.isSome_none] <;>
      generalize username.isSome = hasUsername <;> generalize password.isSome = hasPassword <;>
      revert cleanSession hasUsername hasPassword <;> decide
  · constructor <;> dsimp only [ConnectFlags.ofConnect, Option.isSome_some, Option.elim_some] <;>
      generalize username.isSome = hasUsername <;> generalize password.isSome = hasPassword <;>
      revert cleanSession hasUsername hasPassword retain <;> cases qos <;> decide

/-! ### Bodies -/

theorem ofProtocol_level (v : Version) : Version.ofProtocol v.protocolName v.level = .ok v := by
  cases v <;> rfl

theorem decodeOptional_reads {α : Type} {d : Decoder α} {g : α → Bytes} {o : Option α}
    {present : Bool} (hp : present = o.isSome) (h : ∀ a ∈ o, d.Reads (g a) a) :
    (decodeOptional present d).Reads (Bytes.ofOption g o) o := by
  subst hp
  cases o with
  | none => exact pure_reads none
  | some a => exact (h a rfl).map some

theorem decodeConnect_reads {v : Version} {c : Connect} (hs : (connect c).Sound)
    (hf : ∀ bs ∈ (connect c).fields, bs.length ≤ Bytes.fieldLimit) :
    (decodeConnect v).Reads (c.body v) c := by
  have h := saysConnect_ofConnect c
  obtain ⟨hid, hwill, hname, hword⟩ := forall_fields_connect.1 hf
  have hnoWill : ¬(!c.will.isSome && (c.will.elim QoS.atMostOnce Will.qos != .atMostOnce ||
      c.will.elim false Will.retain)) = true := by
    cases c.will <;> simp
  have hnoWord : ¬(c.password.isSome && !c.username.isSome) = true := by
    rw [Bool.and_eq_true, Bool.not_eq_true']
    rintro ⟨hpassword, husername⟩
    rw [hs.1 hpassword] at husername
    cases husername
  unfold decodeConnect
  rw [Connect.body]
  simp only [List.append_assoc]
  -- From here on every decoder meets the part that it was written for, in the order of the fields.
  refine (text_reads (protocolName_fits v)).bind ((byte_reads _).bind ?_)
  refine (ofExcept_reads (ofProtocol_level v)).bind (s := []) ?_
  refine check_reads (by simp) _ ((byte_reads _).bind ?_)
  simp only [h.reserved, h.cleanSession, h.will, h.willRetain, h.username, h.password]
  refine check_reads (by simp) _ ((ofExcept_reads h.willQoS).bind (s := []) ?_)
  refine check_reads hnoWill _ (check_reads (by simpa using hnoWord) _ ?_)
  refine (uint16_reads _).bind ((text_reads hid).bind ?_)
  refine check_reads (by simpa using hs.2) _ ?_
  refine (decodeOptional_reads (g := Will.body) rfl ?_).bind ?_
  · intro w hw
    obtain ⟨htopic, hpayload⟩ := hwill w hw
    rw [Option.mem_def.1 hw]
    exact (text_reads htopic).bind ((binary_reads hpayload).map _)
  · refine (decodeOptional_reads rfl fun s hs => text_reads (hname s hs)).bind ?_
    rw [← List.append_nil (Bytes.ofOption Bytes.field c.password)]
    exact (decodeOptional_reads rfl fun bs hbs => binary_reads (hword bs hbs)).bind (pure_reads c)

theorem decodeConnAck_reads (v : Version) (a : ConnAck) :
    (decodeConnAck v).Reads (a.body v)
      { a with sessionPresent := match v with | .v310 => false | .v311 => a.sessionPresent } := by
  obtain ⟨sessionPresent, code⟩ := a
  unfold decodeConnAck
  refine (byte_reads _).bind (t := [code.toUInt8]) ((byte_reads _).bind (t := []) ?_)
  refine (ofExcept_reads (connectCode_parse_toUInt8 code)).bind (s := []) ?_
  have hflag : hasFlag (ConnectFlags.flagIf sessionPresent 1) 0x01 = sessionPresent := by
    revert sessionPresent
    decide
  cases v with
  | v310 => exact pure_reads _
  | v311 =>
    dsimp only
    rw [hflag]
    exact pure_reads _

/-- What the rules for a PUBLISH say: there is a packet id exactly above level 0, and not 0. -/
theorem packetId_of_validate {p : Publish} (h : p.validate = .ok ()) :
    (p.qos != .atMostOnce) = p.packetId.isSome ∧ ∀ id ∈ p.packetId, id ≠ 0 := by
  obtain ⟨topic, payload, qos, retain, dup, packetId⟩ := p
  cases qos <;> cases packetId <;> simp_all [Publish.validate, violate]

theorem decodeBody_of_readsAll {α : Type} {f : Frame} {d : Decoder α} {a : α}
    (hne : f.body ≠ []) (h : d.ReadsAll f.body a) : f.decodeBody d = .ok a := by
  rw [Frame.decodeBody, if_neg (by simpa using hne)]
  exact h.decode

theorem decodePublish_frame {v : Version} {p : Publish} (h : (publish p).WellFormed v) :
    decodePublish ((publish p).frame v) = .ok p := by
  obtain ⟨hqos, hretain, hdup⟩ := flags_publish p (p.body)
  obtain ⟨hpresent, hid⟩ := packetId_of_validate h.sound
  have htopic : p.topic.utf8ByteSize ≤ Bytes.fieldLimit :=
    h.fields (Bytes.ofText p.topic) (by simp [fields])
  have hne : ((publish p).frame v).body ≠ [] := by
    simp [frame, body, Publish.body, Bytes.field_ne_nil]
  unfold decodePublish
  show (QoS.parse _ >>= _) = _
  rw [show ((publish p).frame v) = ⟨(publish p).header, p.body⟩ from rfl] at hne ⊢
  rw [hqos, hretain, hdup]
  refine decodeBody_of_readsAll hne ?_
  show Decoder.ReadsAll _ p.body p
  rw [Publish.body, List.append_assoc]
  refine (text_reads htopic).bind_all ((decodeOptional_reads hpresent ?_).bind_all rfl)
  intro id hmem
  rw [← List.append_nil (Bytes.ofUInt16 id)]
  exact (uint16_reads id).bind (check_reads (hid id hmem) _ (pure_reads id))

/-- A packet id and at least one item. -/
theorem decodeList_readsAll {α : Type} {item : Decoder α} {g : α → Bytes} {l : List α}
    (h : ∀ a ∈ l, item.Reads (g a) a ∧ g a ≠ []) (hne : l ≠ []) (missing : Violation)
    (id : UInt16) :
    (decodeList item missing).ReadsAll (Bytes.ofUInt16 id ++ l.flatMap g) (id, l) := by
  unfold decodeList
  refine (uint16_reads id).bind_all ?_
  show EStateM.run _ _ = _
  rw [EStateM.run_bind, show (Decoder.all item).run _ = _ from all_readsAll h]
  cases l with
  | nil => exact absurd rfl hne
  | cons a l => rfl

theorem decodeSubscription_reads {s : Subscription}
    (h : s.filter.utf8ByteSize ≤ Bytes.fieldLimit) : decodeSubscription.Reads s.body s := by
  have hoptions : ¬(s.qos.toUInt8 &&& 0xFC != 0) = true := by
    cases s.qos <;> decide
  unfold decodeSubscription
  refine (text_reads h).bind ((byte_reads _).bind (t := []) (check_reads hoptions _ ?_))
  exact (ofExcept_reads (qos_parse_toUInt8 s.qos)).bind (s := []) (pure_reads s)

theorem decodeId_ofUInt16 (header : UInt8) (id : UInt16) :
    decodeId ⟨header, Bytes.ofUInt16 id⟩ = .ok id := by
  simp [decodeId, Bytes.ofUInt16, Bytes.toUInt16_ofUInt16]

/-! ### Packets -/

theorem bind_of_eq_ok {α β : Type} {r : Except Fault α} {a : α} (h : r = .ok a)
    (k : α → Except Fault β) : (r >>= k) = k a := by
  rw [h]
  rfl

/-- What a packet is after it has been on the wire: version 3.1 does not carry whether a session
is present. -/
def carried (v : Version) : Packet → Packet
  | connAck a =>
    connAck { a with sessionPresent := match v with | .v310 => false | .v311 => a.sessionPresent }
  | p => p

/-- **The frame of a well-formed packet decodes to the packet.** -/
theorem decode_frame {v : Version} {p : Packet} (h : p.WellFormed v) :
    decode v (p.frame v) = .ok (p.carried v) := by
  have hkind : (p.frame v).kind = .ok p.kind := ofHeader_header p
  have hfields := h.fields
  have hsound := h.sound
  unfold decode
  rw [bind_of_eq_ok hkind]
  cases p with
  | connect c =>
    have hne : ((connect c).frame v).body ≠ [] := by
      simp [frame, body, Connect.body, Bytes.field_ne_nil]
    have := decodeBody_of_readsAll hne (decodeConnect_reads hsound hfields).all
    exact bind_of_eq_ok this _
  | connAck a =>
    have := decodeBody_of_readsAll (f := (connAck a).frame v) (by simp [frame, body, ConnAck.body])
      (decodeConnAck_reads v a).all
    exact bind_of_eq_ok this _
  | publish m =>
    exact bind_of_eq_ok (decodePublish_frame h) _
  | pubAck id | pubRec id | pubRel id | pubComp id | unsubAck id =>
    exact bind_of_eq_ok (decodeId_ofUInt16 _ id) _
  | subscribe id wanted =>
    -- An item takes bytes, so the row ends where the body does.
    have hitem : ∀ s ∈ wanted, decodeSubscription.Reads s.body s ∧ s.body ≠ [] := by
      intro s hs
      refine ⟨decodeSubscription_reads ?_, by simp [Subscription.body]⟩
      exact hfields (Bytes.ofText s.filter) (List.mem_map_of_mem hs)
    have := decodeBody_of_readsAll (f := (subscribe id wanted).frame v)
      (by simp [frame, body, Bytes.ofUInt16])
      (decodeList_readsAll hitem hsound .noSubscriptions id)
    exact bind_of_eq_ok this _
  | subAck id codes =>
    have hitem : ∀ c ∈ codes,
        (do ofExcept (SubscribeCode.parse (← Decoder.byte)) : Decoder SubscribeCode).Reads
          [c.toUInt8] c ∧ [c.toUInt8] ≠ [] := by
      intro c _
      refine ⟨(byte_reads _).bind (t := []) ?_, List.cons_ne_nil _ _⟩
      exact ofExcept_reads (subscribeCode_parse_toUInt8 c)
    have := decodeBody_of_readsAll (f := (subAck id codes).frame v)
      (by simp [frame, body, Bytes.ofUInt16])
      (decodeList_readsAll hitem hsound .noReturnCodes id)
    exact bind_of_eq_ok this _
  | unsubscribe id filters =>
    have hitem : ∀ s ∈ filters, Decoder.text.Reads (Bytes.ofText s).field s ∧
        (Bytes.ofText s).field ≠ [] := by
      intro s hs
      refine ⟨text_reads ?_, Bytes.field_ne_nil _⟩
      exact hfields (Bytes.ofText s) (List.mem_map_of_mem hs)
    have := decodeBody_of_readsAll (f := (unsubscribe id filters).frame v)
      (by simp [frame, body, Bytes.ofUInt16])
      (decodeList_readsAll hitem hsound .noFilters id)
    exact bind_of_eq_ok this _
  | pingReq | pingResp | disconnect => rfl

/-- **The round trip.** To write a packet succeeds exactly when the packet is well-formed. Then its
frame stands behind what was committed before; whatever follows, just this frame is found there and
decodes to the packet. Otherwise nothing has been appended. -/
theorem writeFrame_round_trip (v : Version) (p : Packet) (w : Writer) :
    match (writeFrame v p).run w with
    | .ok _ w' =>
      p.WellFormed v ∧ ∃ bs, w'.written = w.written ++ bs ∧
        ∀ rest, ∃ f, Frame.parse (bs ++ rest) = .ok (some (f, bs.length)) ∧ f.body = p.body v ∧
          decode v f = .ok (p.carried v)
    | .error _ w' => ¬p.WellFormed v ∧ w'.written = w.written := by
  by_cases h : p.WellFormed v
  · obtain ⟨w', hrun, hw⟩ := writeFrame_ok h w
    rw [hrun]
    refine ⟨h, (p.frame v).bytes, hw, fun rest => ⟨p.frame v, ?_, rfl, decode_frame h⟩⟩
    exact Frame.parse_bytes_append h.size rest
  · obtain ⟨e, w', hrun, hw⟩ := writeFrame_error h w
    rw [hrun]
    exact ⟨h, hw⟩

/-- The two bytes of a topic name's length, the name, and the payload. -/
example : (publish (Publish.plain "a/b" [0x2a])).toBytes .v311 =
    .ok [0x30, 6, 0, 3, 0x61, 0x2f, 0x62, 0x2a] := by
  decide +kernel

end Packet
end Mqtt
