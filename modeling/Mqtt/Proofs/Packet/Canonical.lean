import Mqtt.Proofs.Packet.RoundTrip
/-!
# Writing what was read

A packet that has been read is written as it came: every bit of its body is either checked or kept,
so the decoder's answer tells the bytes that it was made of (`ReadFrom.body`), and no two bodies
make the same packet (`decode_canonical`). Two kinds of packet are read more loosely. Behind the
fields of a CONNECT there may be bytes that nothing reads, and of a CONNACK one bit and the second
byte count; `Packet.significant` is what remains.

One kind of message is read that cannot be written: one that is repeated at level 0, which the rules
forbid and the decoder lets pass (`validate_of_decode`).
-/

namespace Mqtt

/-! ### Numbers -/

theorem QoS.eq_toUInt8_of_parse {n : UInt8} {q : QoS} (h : QoS.parse n = .ok q) :
    n = q.toUInt8 := by
  unfold QoS.parse QoS.ofUInt8? at h
  split at h
  · next hq =>
    cases h
    split at hq <;> cases hq <;> rfl
  · cases h

theorem ConnectCode.eq_toUInt8_of_parse {n : UInt8} {c : ConnectCode}
    (h : ConnectCode.parse n = .ok c) : n = c.toUInt8 := by
  unfold ConnectCode.parse ConnectCode.ofUInt8? at h
  split at h
  · next hc =>
    cases h
    split at hc <;> cases hc <;> rfl
  · cases h

theorem SubscribeCode.eq_toUInt8_of_parse {n : UInt8} {c : SubscribeCode}
    (h : SubscribeCode.parse n = .ok c) : n = c.toUInt8 := by
  unfold SubscribeCode.parse SubscribeCode.ofUInt8? at h
  split at h
  · next hc =>
    cases h
    split at hc <;> cases hc <;> rfl
  · cases h

theorem PacketKind.eq_number_of_ofHeader {header : UInt8} {k : PacketKind}
    (h : PacketKind.ofHeader header = .ok k) : header >>> 4 = k.number := by
  unfold PacketKind.ofHeader at h
  split at h
  · next hk =>
    cases h
    unfold PacketKind.ofNumber? at hk
    split at hk <;> cases hk <;> assumption
  · cases h

theorem Version.eq_of_ofProtocol {name : String} {level : UInt8} {v : Version}
    (h : Version.ofProtocol name level = .ok v) : name = v.protocolName ∧ level = v.level := by
  unfold Version.ofProtocol at h
  split_ifs at h with h311 h310
  · cases h
    exact h311
  · cases h
    exact h310
  · cases h

namespace Packet

open Decoder ConnectFlags

/-! ### Flags -/

/-- What holds of 256 numbers holds of every byte. -/
theorem forall_byte {p : UInt8 → Prop} (h : ∀ n : Fin 256, p (UInt8.ofFin n)) (b : UInt8) : p b :=
  h b.toFin

/-- The flags of a CONNECT are made up of its parts. -/
theorem eq_connectFlags (flags : UInt8) : hasFlag flags reserved = false →
    flags = flagIf (hasFlag flags cleanSession) cleanSession |||
      (flagIf (hasFlag flags will) will ||| (((flags >>> 3) &&& 0x03) <<< 3) |||
        flagIf (hasFlag flags willRetain) willRetain) |||
      flagIf (hasFlag flags username) username ||| flagIf (hasFlag flags password) password := by
  revert flags
  refine forall_byte ?_
  decide +kernel

theorem SaysConnect.eq_ofConnect {flags : UInt8} {c : Connect} (h : SaysConnect flags c) :
    flags = ofConnect c := by
  rw [eq_connectFlags flags h.reserved, h.cleanSession, h.will, h.willRetain, h.username,
    h.password, QoS.eq_toUInt8_of_parse h.willQoS, ofConnect]
  rcases c.will with _ | w <;> rfl

theorem eq_flagIf_hasFlag (flags : UInt8) : flags &&& 0x01 = flagIf (hasFlag flags 0x01) 0x01 := by
  revert flags
  refine forall_byte ?_
  decide +kernel

/-- The first byte of a PUBLISH is made up of its parts. -/
theorem eq_publishHeader (header : UInt8) : header >>> 4 = PacketKind.publish.number →
    header = PacketKind.publish.header ((((header &&& 0x0F) >>> 1) &&& 0x03) <<< 1 |||
      flagIf (hasFlag (header &&& 0x0F) 0x08) 0x08 |||
      flagIf (hasFlag (header &&& 0x0F) 0x01) 0x01) := by
  revert header
  refine forall_byte ?_
  decide +kernel

/-! ### Bodies -/

theorem decodeOptional_eq_ok {α : Type} {d : Decoder α} {g : α → Bytes} {q : α → Prop}
    {present : Bool} {body left : Bytes} {o : Option α}
    (hd : ∀ {body a left}, d.run body = .ok a left → body = g a ++ left ∧ q a)
    (h : (decodeOptional present d).run body = .ok o left) :
    present = o.isSome ∧ body = Bytes.ofOption g o ++ left ∧ ∀ a ∈ o, q a := by
  cases present with
  | false =>
    obtain ⟨rfl, rfl⟩ := pure_eq_ok h
    exact ⟨rfl, rfl, by simp⟩
  | true =>
    obtain ⟨a, ha, rfl⟩ := map_eq_ok h
    obtain ⟨rfl, hq⟩ := hd ha
    exact ⟨rfl, rfl, by simpa using hq⟩

theorem decodeWill_eq_ok {qos : QoS} {retain : Bool} {w : Will} {body left : Bytes}
    (h : (do
      let topic ← Decoder.text
      let payload ← Decoder.binary
      return { topic, payload, qos, retain } : Decoder Will).run body = .ok w left) :
    body = w.body ++ left ∧ w.qos = qos ∧ w.retain = retain ∧
      (Bytes.ofText w.topic).length ≤ Bytes.fieldLimit ∧ w.payload.length ≤ Bytes.fieldLimit := by
  obtain ⟨topic, _, htopic, h⟩ := bind_eq_ok h
  obtain ⟨payload, _, hpayload, h⟩ := bind_eq_ok h
  obtain ⟨rfl, rfl⟩ := pure_eq_ok h
  obtain ⟨rfl, htopicFits⟩ := text_eq_ok htopic
  obtain ⟨rfl, hpayloadFits⟩ := binary_eq_ok hpayload
  exact ⟨(List.append_assoc ..).symm, rfl, rfl, htopicFits, hpayloadFits⟩

theorem decodeConnect_eq_ok {v : Version} {c : Connect} {body left : Bytes}
    (h : (decodeConnect v).run body = .ok c left) :
    body = c.body v ++ left ∧ (connect c).Sound ∧
      ∀ bs ∈ (connect c).fields, bs.length ≤ Bytes.fieldLimit := by
  unfold decodeConnect at h
  obtain ⟨name, _, hname, h⟩ := bind_eq_ok h
  obtain ⟨level, _, hlevel, h⟩ := bind_eq_ok h
  obtain ⟨asked, _, hasked, h⟩ := bind_eq_ok h
  obtain ⟨hversion, h⟩ := check_eq_ok h
  obtain ⟨flags, _, hflags, h⟩ := bind_eq_ok h
  obtain ⟨hreserved, h⟩ := check_eq_ok h
  obtain ⟨willQoS, _, hwillQoS, h⟩ := bind_eq_ok h
  obtain ⟨hnoWill, h⟩ := check_eq_ok h
  obtain ⟨hnoWord, h⟩ := check_eq_ok h
  obtain ⟨keepAlive, _, hkeepAlive, h⟩ := bind_eq_ok h
  obtain ⟨clientId, _, hclientId, h⟩ := bind_eq_ok h
  obtain ⟨hid, h⟩ := check_eq_ok h
  obtain ⟨will, _, hwill, h⟩ := bind_eq_ok h
  obtain ⟨username, _, husername, h⟩ := bind_eq_ok h
  obtain ⟨password, _, hpassword, h⟩ := bind_eq_ok h
  obtain ⟨hc, rfl⟩ := pure_eq_ok h
  -- The bytes, field by field, the last one first.
  obtain ⟨hhasPassword, rfl, hpasswordFits⟩ :=
    decodeOptional_eq_ok (q := fun bs => bs.length ≤ Bytes.fieldLimit) binary_eq_ok hpassword
  obtain ⟨hhasUsername, rfl, husernameFits⟩ :=
    decodeOptional_eq_ok (g := fun s => (Bytes.ofText s).field)
      (q := fun s => (Bytes.ofText s).length ≤ Bytes.fieldLimit) text_eq_ok husername
  obtain ⟨hhasWill, rfl, hwillSays⟩ := decodeOptional_eq_ok decodeWill_eq_ok hwill
  obtain ⟨rfl, hclientIdFits⟩ := text_eq_ok hclientId
  obtain rfl := uint16_eq_ok hkeepAlive
  obtain ⟨hqos, rfl⟩ := ofExcept_eq_ok hwillQoS
  obtain rfl := byte_eq_ok hflags
  obtain ⟨hprotocol, rfl⟩ := ofExcept_eq_ok hasked
  obtain rfl := byte_eq_ok hlevel
  obtain ⟨rfl, -⟩ := text_eq_ok hname
  obtain rfl : asked = v := not_not.1 hversion
  obtain ⟨rfl, rfl⟩ := Version.eq_of_ofProtocol hprotocol
  -- What the checks have let through.
  have hplain : hasFlag flags ConnectFlags.will = false →
      willQoS = .atMostOnce ∧ hasFlag flags willRetain = false := by simpa using hnoWill
  have hsaid : SaysConnect flags c := by
    subst hc
    refine ⟨by simpa using hreserved, rfl, hhasWill, ?_, ?_, hhasUsername, hhasPassword⟩
    · cases will with
      | none => rw [hqos, (hplain hhasWill).1]; rfl
      | some w => rw [hqos, ← (hwillSays w rfl).1]; rfl
    · cases will with
      | none => exact (hplain hhasWill).2
      | some w => exact (hwillSays w rfl).2.1.symm
  have hsound : (connect c).Sound := by
    subst hc
    rw [hhasPassword, hhasUsername] at hnoWord
    refine ⟨by simpa [Option.isSome_iff_ne_none] using hnoWord, fun hempty => ?_⟩
    simpa [show clientId = "" from hempty] using hid
  rw [hsaid.eq_ofConnect]
  subst hc
  refine ⟨?_, hsound, forall_fields_connect.2
    ⟨hclientIdFits, fun w hw => (hwillSays w hw).2.2, husernameFits, hpasswordFits⟩⟩
  simp only [Connect.body, List.append_assoc, List.cons_append, List.nil_append]

/-- What counts of the first byte of a CONNACK. Version 3.1 has no meaning for any of its bits. -/
def keptFlags (first : UInt8) : Version → UInt8
  | .v310 => 0
  | .v311 => first &&& 0x01

theorem decodeConnAck_eq_ok {v : Version} {a : ConnAck} {body left : Bytes}
    (h : (decodeConnAck v).run body = .ok a left) :
    ∃ first code, body = first :: code :: left ∧ a.body v = [keptFlags first v, code] ∧
      (connAck a).carried v = connAck a := by
  unfold decodeConnAck at h
  obtain ⟨first, _, hfirst, h⟩ := bind_eq_ok h
  obtain ⟨second, _, hsecond, h⟩ := bind_eq_ok h
  obtain ⟨code, _, hcode, h⟩ := bind_eq_ok h
  obtain ⟨rfl, rfl⟩ := pure_eq_ok h
  obtain ⟨hparse, rfl⟩ := ofExcept_eq_ok hcode
  obtain rfl := ConnectCode.eq_toUInt8_of_parse hparse
  obtain rfl := byte_eq_ok hsecond
  obtain rfl := byte_eq_ok hfirst
  refine ⟨first, code.toUInt8, rfl, ?_, ?_⟩
  · cases v with
    | v310 => rfl
    | v311 => rw [keptFlags, ConnAck.body, eq_flagIf_hasFlag first]
  · cases v <;> rfl

/-- A packet id and at least one item, up to the end of the body. -/
theorem decodeList_eq_ok {α : Type} {item : Decoder α} {g : α → Bytes} {q : α → Prop}
    (hitem : ∀ {body a left}, item.run body = .ok a left → body = g a ++ left ∧ g a ≠ [] ∧ q a)
    {missing : Violation} {id : UInt16} {l : List α} {body left : Bytes}
    (h : (decodeList item missing).run body = .ok (id, l) left) :
    body = Bytes.ofUInt16 id ++ l.flatMap g ∧ l ≠ [] ∧ ∀ a ∈ l, q a := by
  unfold decodeList at h
  obtain ⟨id', _, hid, h⟩ := bind_eq_ok h
  obtain ⟨l', _, hl, h⟩ := bind_eq_ok h
  obtain ⟨hne, h⟩ := check_eq_ok h
  obtain ⟨hpair, rfl⟩ := pure_eq_ok h
  cases hpair
  obtain rfl := uint16_eq_ok hid
  obtain ⟨rfl, -, hq⟩ := all_eq_ok hitem hl
  exact ⟨rfl, by simpa using hne, hq⟩

theorem decodeSubscription_eq_ok {s : Subscription} {body left : Bytes}
    (h : decodeSubscription.run body = .ok s left) :
    body = s.body ++ left ∧ s.body ≠ [] ∧ (Bytes.ofText s.filter).length ≤ Bytes.fieldLimit := by
  unfold decodeSubscription at h
  obtain ⟨filter, _, hfilter, h⟩ := bind_eq_ok h
  obtain ⟨asked, _, hasked, h⟩ := bind_eq_ok h
  obtain ⟨-, h⟩ := check_eq_ok h
  obtain ⟨qos, _, hqos, h⟩ := bind_eq_ok h
  obtain ⟨rfl, rfl⟩ := pure_eq_ok h
  obtain ⟨hparse, rfl⟩ := ofExcept_eq_ok hqos
  obtain rfl := QoS.eq_toUInt8_of_parse hparse
  obtain rfl := byte_eq_ok hasked
  obtain ⟨rfl, hfits⟩ := text_eq_ok hfilter
  exact ⟨by rw [Subscription.body, List.append_assoc]; rfl, by simp [Subscription.body], hfits⟩

theorem decodeSubscribeCode_eq_ok {c : SubscribeCode} {body left : Bytes}
    (h : (do ofExcept (SubscribeCode.parse (← Decoder.byte)) : Decoder SubscribeCode).run body =
      .ok c left) : body = [c.toUInt8] ++ left ∧ [c.toUInt8] ≠ [] ∧ True := by
  obtain ⟨b, _, hb, h⟩ := bind_eq_ok h
  obtain ⟨hc, rfl⟩ := ofExcept_eq_ok h
  obtain rfl := SubscribeCode.eq_toUInt8_of_parse hc
  obtain rfl := byte_eq_ok hb
  exact ⟨rfl, List.cons_ne_nil _ _, trivial⟩

theorem decodeFilter_eq_ok {s : String} {body left : Bytes}
    (h : Decoder.text.run body = .ok s left) :
    body = (Bytes.ofText s).field ++ left ∧ (Bytes.ofText s).field ≠ [] ∧
      (Bytes.ofText s).length ≤ Bytes.fieldLimit := by
  obtain ⟨hbody, hfits⟩ := text_eq_ok h
  exact ⟨hbody, Bytes.field_ne_nil _, hfits⟩

theorem decodeId_eq_ok {f : Frame} {id : UInt16} (h : decodeId f = .ok id) :
    f.body = Bytes.ofUInt16 id := by
  unfold decodeId at h
  split at h
  · cases h
  · next hi lo hbody =>
    cases h
    rw [hbody, Bytes.ofUInt16_toUInt16]
  · cases h

theorem decodeEmpty_eq_ok {f : Frame} {p q : Packet} (h : decodeEmpty f q = .ok p) :
    p = q ∧ f.body = [] := by
  unfold decodeEmpty at h
  split_ifs at h with hempty
  · cases h
    exact ⟨rfl, List.isEmpty_iff.1 hempty⟩
  · cases h

theorem decodeBody_eq_ok {α : Type} {f : Frame} {d : Decoder α} {a : α}
    (h : f.decodeBody d = .ok a) : ∃ left, d.run f.body = .ok a left := by
  unfold Frame.decodeBody at h
  split_ifs at h
  · cases h
  · exact decode_eq_ok h

theorem decodePacketId_eq_ok {id : UInt16} {body left : Bytes}
    (h : (do
      let id ← Decoder.uint16
      if id = 0 then Decoder.violated .packetIdZero
      return id : Decoder UInt16).run body = .ok id left) :
    body = Bytes.ofUInt16 id ++ left ∧ id ≠ 0 := by
  obtain ⟨id', _, hid, h⟩ := bind_eq_ok h
  obtain ⟨hne, h⟩ := check_eq_ok h
  obtain ⟨rfl, rfl⟩ := pure_eq_ok h
  exact ⟨uint16_eq_ok hid, hne⟩

theorem decodePublish_eq_ok {f : Frame} {m : Publish} (hkind : f.kind = .ok .publish)
    (h : decodePublish f = .ok m) :
    f.body = m.body ∧ f.header = (publish m).header ∧
      (Bytes.ofText m.topic).length ≤ Bytes.fieldLimit ∧
      (m.qos != .atMostOnce) = m.packetId.isSome ∧ ∀ id ∈ m.packetId, id ≠ 0 := by
  unfold decodePublish at h
  rcases hqos : QoS.parse ((f.flags >>> 1) &&& 0x03) with e | qos
  · rw [hqos] at h
    cases h
  · rw [hqos] at h
    obtain ⟨left, h⟩ := decodeBody_eq_ok h
    obtain ⟨topic, _, htopic, h⟩ := bind_eq_ok h
    obtain ⟨id, _, hid, h⟩ := bind_eq_ok h
    obtain ⟨payload, _, hpayload, h⟩ := bind_eq_ok h
    obtain ⟨rfl, rfl⟩ := pure_eq_ok h
    obtain ⟨rfl, rfl⟩ := rest_eq_ok hpayload
    obtain ⟨hpresent, rfl, hne⟩ := decodeOptional_eq_ok decodePacketId_eq_ok hid
    obtain ⟨hbody, hfits⟩ := text_eq_ok htopic
    refine ⟨by rw [hbody, Publish.body, List.append_assoc], ?_, hfits, hpresent, hne⟩
    rw [header, Publish.flags, ← QoS.eq_toUInt8_of_parse hqos]
    exact eq_publishHeader f.header (PacketKind.eq_number_of_ofHeader hkind)

/-! ### Packets -/

theorem of_bind_eq_ok {α β : Type} {r : Except Fault α} {k : α → Except Fault β} {b : β}
    (h : (r >>= k) = .ok b) : ∃ a, r = .ok a ∧ k a = .ok b := by
  rcases r with e | a
  · cases h
  · exact ⟨a, rfl, h⟩

/-- What counts of the body from which a packet was read. Of a CONNECT these are its fields. Of a
CONNACK these are the last bit of its first byte, if the version has a meaning for it, and its
second byte. -/
def significant (v : Version) (p : Packet) (received : Bytes) : Bytes :=
  match p, received with
  | connect c, received => received.take (c.body v).length
  | connAck _, first :: code :: _ => [keptFlags first v, code]
  | _, received => received

/-- What is known of a packet that has been read from a frame. -/
structure ReadFrom (v : Version) (f : Frame) (p : Packet) : Prop where
  /-- Its bytes are those that count. -/
  body : p.body v = p.significant v f.body
  /-- The first byte of a message is kept. -/
  header : ∀ m, p = publish m → p.header = f.header
  /-- Every field had room behind a two-byte length. -/
  fields : ∀ bs ∈ p.fields, bs.length ≤ Bytes.fieldLimit
  /-- Only a message may break a rule for the packet as a whole. -/
  sound : (∀ m, p = publish m → m.validate = .ok ()) → p.Sound
  /-- Nothing is said that the version does not carry. -/
  carried : p.carried v = p

theorem readFrom_of_decode {v : Version} {f : Frame} {p : Packet} (h : decode v f = .ok p) :
    ReadFrom v f p := by
  -- A body of which every byte counts.
  have hall {p : Packet} (hbody : f.body = p.body v) (hsame : p.significant v f.body = f.body)
      (hheader : ∀ m, p = publish m → p.header = f.header)
      (hfields : ∀ bs ∈ p.fields, bs.length ≤ Bytes.fieldLimit)
      (hsound : (∀ m, p = publish m → m.validate = .ok ()) → p.Sound)
      (hcarried : p.carried v = p) : ReadFrom v f p :=
    ⟨by rw [hsame, hbody], hheader, hfields, hsound, hcarried⟩
  unfold decode at h
  obtain ⟨k, hkind, h⟩ := of_bind_eq_ok h
  cases k with
  | connect =>
    obtain ⟨c, hc, h⟩ := of_bind_eq_ok h
    cases h
    obtain ⟨left, hc⟩ := decodeBody_eq_ok hc
    obtain ⟨hbody, hsound, hfields⟩ := decodeConnect_eq_ok hc
    refine ⟨?_, by simp, hfields, fun _ => hsound, rfl⟩
    rw [hbody, significant, List.take_left' rfl]
    rfl
  | connAck =>
    obtain ⟨a, ha, h⟩ := of_bind_eq_ok h
    cases h
    obtain ⟨left, ha⟩ := decodeBody_eq_ok ha
    obtain ⟨first, code, hbody, hwritten, hcarried⟩ := decodeConnAck_eq_ok ha
    refine ⟨?_, by simp, by simp [fields], fun _ => trivial, hcarried⟩
    rw [hbody]
    exact hwritten
  | publish =>
    obtain ⟨m, hm, h⟩ := of_bind_eq_ok h
    cases h
    obtain ⟨hbody, hheader, hfits, -⟩ := decodePublish_eq_ok hkind hm
    refine hall hbody rfl ?_ (by simpa [fields] using hfits) (fun hvalid => hvalid m rfl) rfl
    rintro m' ⟨⟩
    exact hheader.symm
  | pubAck | pubRec | pubRel | pubComp | unsubAck =>
    obtain ⟨id, hid, h⟩ := of_bind_eq_ok h
    cases h
    exact hall (decodeId_eq_ok hid) rfl (by simp) (by simp [fields]) (fun _ => trivial) rfl
  | subscribe =>
    obtain ⟨⟨id, wanted⟩, hlist, h⟩ := of_bind_eq_ok h
    cases h
    obtain ⟨left, hlist⟩ := decodeBody_eq_ok hlist
    obtain ⟨hbody, hne, hfits⟩ := decodeList_eq_ok decodeSubscription_eq_ok hlist
    exact hall hbody rfl (by simp) (by simpa [fields] using hfits) (fun _ => hne) rfl
  | subAck =>
    obtain ⟨⟨id, codes⟩, hlist, h⟩ := of_bind_eq_ok h
    cases h
    obtain ⟨left, hlist⟩ := decodeBody_eq_ok hlist
    obtain ⟨hbody, hne, -⟩ := decodeList_eq_ok decodeSubscribeCode_eq_ok hlist
    exact hall hbody rfl (by simp) (by simp [fields]) (fun _ => hne) rfl
  | unsubscribe =>
    obtain ⟨⟨id, filters⟩, hlist, h⟩ := of_bind_eq_ok h
    cases h
    obtain ⟨left, hlist⟩ := decodeBody_eq_ok hlist
    obtain ⟨hbody, hne, hfits⟩ := decodeList_eq_ok decodeFilter_eq_ok hlist
    exact hall hbody rfl (by simp) (by simpa [fields] using hfits) (fun _ => hne) rfl
  | pingReq | pingResp | disconnect =>
    obtain ⟨rfl, hbody⟩ := decodeEmpty_eq_ok h
    exact hall hbody rfl (by simp) (by simp [fields]) (fun _ => trivial) rfl

/-- A message that has been read has a packet id exactly above level 0, and it is none of 0. -/
theorem packetIds_of_decode {v : Version} {f : Frame} {m : Publish}
    (h : decode v f = .ok (publish m)) :
    (m.qos != .atMostOnce) = m.packetId.isSome ∧ ∀ id ∈ m.packetId, id ≠ 0 := by
  have hkind : f.kind = .ok .publish := by
    rw [Frame.kind, ← (readFrom_of_decode h).header m rfl]
    exact ofHeader_header _
  unfold decode at h
  rw [bind_of_eq_ok hkind] at h
  obtain ⟨m', hm, h⟩ := of_bind_eq_ok h
  cases h
  exact (decodePublish_eq_ok hkind hm).2.2.2

theorem packetId_of_decode {v : Version} {f : Frame} {m : Publish}
    (h : decode v f = .ok (publish m)) :
    (m.qos != .atMostOnce) = m.packetId.isSome := (packetIds_of_decode h).1

theorem length_significant_le (v : Version) (p : Packet) (received : Bytes) :
    (p.significant v received).length ≤ received.length := by
  unfold significant
  split
  · exact List.length_take_le' _ _
  · simp
  · exact Nat.le_refl _

/-- A packet that has been read from a stream can be written, unless it is a message that breaks
the rules. -/
theorem ReadFrom.wellFormed {v : Version} {f : Frame} {p : Packet} (h : ReadFrom v f p)
    (hsize : f.body.length ≤ RemainingLength.limit)
    (hvalid : ∀ m, p = publish m → m.validate = .ok ()) : p.WellFormed v where
  sound := h.sound hvalid
  fields := h.fields
  size := by
    rw [h.body]
    exact Nat.le_trans (length_significant_le v p f.body) hsize

/-- **A packet that has been read is written as it came.** Of the body from which it was read, the
packet's own body is what counts, and a message has its first byte. No other body makes the same
packet, unless they differ in what does not count. If a message keeps the rules, the packet can be
written behind whatever is there, and whatever follows, its frame is found there and decodes to the
packet again. -/
theorem decode_canonical {v : Version} {bs : Bytes} {f : Frame} {n : Nat} {p : Packet}
    (hparse : Frame.parse bs = .ok (some (f, n))) (hdecode : decode v f = .ok p) :
    p.body v = p.significant v f.body ∧ (∀ m, p = publish m → p.header = f.header) ∧
      (∀ f', decode v f' = .ok p → p.significant v f'.body = p.significant v f.body) ∧
      ((∀ m, p = publish m → m.validate = .ok ()) → ∀ w rest, ∃ w' g,
        (writeFrame v p).run w = .ok () w' ∧ w'.written = w.written ++ g.bytes ∧
        Frame.parse (g.bytes ++ rest) = .ok (some (g, g.bytes.length)) ∧
        g.header = p.header ∧ g.body = p.body v ∧ decode v g = .ok p) := by
  have hread := readFrom_of_decode hdecode
  refine ⟨hread.body, hread.header, fun f' hdecode' => ?_, fun hvalid w rest => ?_⟩
  · rw [← (readFrom_of_decode hdecode').body, hread.body]
  · have hwell := hread.wellFormed (Frame.parse_length hparse).2.2 hvalid
    obtain ⟨w', hrun, hwritten⟩ := writeFrame_ok hwell w
    refine ⟨w', p.frame v, hrun, hwritten, Frame.parse_bytes_append hwell.size rest, rfl, rfl, ?_⟩
    rw [decode_frame hwell, hread.carried]

/-- Eight bytes that carry a message are written again for it. -/
theorem decode_canonical_message :
    let sent : Bytes := [0x32, 6, 0, 1, 0x74, 0, 7, 0xaa]
    let f : Frame := ⟨0x32, [0, 1, 0x74, 0, 7, 0xaa]⟩
    let m : Publish := ⟨"t", [0xaa], .atLeastOnce, false, false, some 7⟩
    Frame.parse sent = .ok (some (f, 8)) ∧ decode .v311 f = .ok (publish m) ∧
      m.validate = .ok () ∧
      ∃ w', (writeFrame .v311 (publish m)).run Writer.empty = .ok () w' ∧ w'.written = sent := by
  intro sent f m
  have hparse : Frame.parse sent = .ok (some (f, 8)) := by decide
  have hdecode : decode .v311 f = .ok (publish m) := by decide +kernel
  have hvalid : m.validate = .ok () := by decide
  obtain ⟨-, -, -, hwrite⟩ := decode_canonical hparse hdecode
  obtain ⟨w', g, hrun, hwritten, -, hheader, hbody, -⟩ := hwrite
    (fun m' h => by cases h; exact hvalid) Writer.empty []
  refine ⟨hparse, hdecode, hvalid, w', hrun, ?_⟩
  rw [hwritten, Frame.bytes, hheader, hbody]
  decide +kernel

/-! ### Messages -/

/-- Of a message whose packet id is where it belongs, only one rule is left to break. -/
theorem validate_eq {m : Publish} (hpresent : (m.qos != .atMostOnce) = m.packetId.isSome)
    (hne : ∀ id ∈ m.packetId, id ≠ 0) :
    m.validate = if m.qos = .atMostOnce ∧ m.dup = true then violate .dupAtQoS0 else .ok () := by
  obtain ⟨topic, payload, qos, retain, dup, packetId⟩ := m
  rcases packetId with _ | id
  · obtain rfl : qos = .atMostOnce := by simpa using hpresent
    simp [Publish.validate]
  · have hid : id ≠ 0 := hne id rfl
    cases qos <;> simp_all [Publish.validate]

/-- A message is repeated at level 0 exactly if its frame begins with one of two bytes. -/
theorem header_repeated_iff (m : Publish) :
    ((publish m).header = 0x38 ∨ (publish m).header = 0x39) ↔
      m.qos = .atMostOnce ∧ m.dup = true := by
  have hflags (qos : QoS) (dup retain : Bool) :
      let header := PacketKind.publish.header
        ((qos.toUInt8 <<< 1) ||| flagIf dup 0x08 ||| flagIf retain 0x01)
      (header = 0x38 ∨ header = 0x39) ↔ qos = .atMostOnce ∧ dup = true := by
    cases qos <;> cases dup <;> cases retain <;> decide
  exact hflags m.qos m.dup m.retain

/-- **A message that has been read keeps the rules unless it is repeated at level 0.** The decoder
checks the packet id as the rules ask, but not the repetition flag. So of a frame that begins with
0x38 or 0x39 it may make a message that the rules forbid, and that no encoder sends; every other
message that it makes keeps the rules and can be sent in either version. -/
theorem validate_of_decode {v : Version} {f : Frame} {m : Publish}
    (h : decode v f = .ok (publish m)) :
    (m.validate = .ok () ↔ f.header ≠ 0x38 ∧ f.header ≠ 0x39) ∧
      (m.validate = .ok () ∨ m.validate = violate .dupAtQoS0) ∧
      (f.body.length ≤ RemainingLength.limit →
        ∀ v', (∃ bs, (publish m).toBytes v' = .ok bs) ↔ m.validate = .ok ()) := by
  have hread := readFrom_of_decode h
  obtain ⟨hpresent, hne⟩ := packetIds_of_decode h
  have hvalid := validate_eq hpresent hne
  refine ⟨?_, ?_, fun hsize v' => ⟨fun ⟨bs, hbs⟩ => ?_, fun hm => ?_⟩⟩
  · rw [← not_or, ← hread.header m rfl, header_repeated_iff, hvalid]
    split_ifs with hrepeated
    · exact iff_of_false nofun fun hnot => hnot hrepeated
    · exact iff_of_true rfl hrepeated
  · rw [hvalid]
    split_ifs
    · exact .inr rfl
    · exact .inl rfl
  · exact (toBytes_eq_ok.1 hbs).1.sound
  · have hwell := hread.wellFormed hsize fun m' hm' => by cases hm'; exact hm
    exact ⟨_, toBytes_eq_ok.2 ⟨⟨hwell.sound, hwell.fields, hwell.size⟩, rfl⟩⟩

/-- Five bytes are read as a message that cannot be sent. -/
theorem not_validate_of_decode_repeated :
    let sent : Bytes := [0x38, 3, 0, 1, 0x74]
    let f : Frame := ⟨0x38, [0, 1, 0x74]⟩
    let m : Publish := ⟨"t", [], .atMostOnce, false, true, none⟩
    Frame.parse sent = .ok (some (f, 5)) ∧ decode .v311 f = .ok (publish m) ∧
      m.validate ≠ .ok () ∧ ¬∃ bs, (publish m).toBytes .v311 = .ok bs := by
  intro sent f m
  have hdecode : decode .v311 f = .ok (publish m) := by decide +kernel
  obtain ⟨hvalid, -, hsend⟩ := validate_of_decode hdecode
  have hnot : m.validate ≠ .ok () := fun hm => (hvalid.1 hm).1 rfl
  exact ⟨by decide, hdecode, hnot, mt (hsend (by decide) .v311).1 hnot⟩

end Packet
end Mqtt
