import Mathlib.Data.List.TakeWhile
import Mqtt.Proofs.Packet.InPlace
/-!
# What a faulty packet leaves behind

`Packet.encode` looks for most faults before it writes anything. A field that is too long for its
two-byte length is the exception: it is found where it is written, and the fields in front of it
are committed by then.

To say what is committed, a body is taken apart into `Part`s: bytes that are written as they are,
and fields that stand behind their length. An encoder `Lays` a row of parts if it writes them one
after the other up to the first that does not fit, and fails there. Rows are laid one after the
other along `>>=` (`Lays.bind`), so the row of a packet follows its layout (`encode_lays`).

A PUBLISH has one field only, and it stands in front, so nothing is in front of the fault. In front
of each field of a CONNECT, a SUBSCRIBE and an UNSUBSCRIBE there is something, and it stays
(`encode_whole_or_nothing_iff`).
-/

namespace Mqtt
namespace Encoder

variable {α β : Type}

/-! ### Parts of a body -/

/-- A part of a body. -/
inductive Part where
  /-- Bytes that are written as they are. -/
  | plain (bs : Bytes)
  /-- A byte string that stands behind its length. -/
  | field (bs : Bytes)
deriving DecidableEq, Repr

namespace Part

/-- What a part is on the wire. -/
def bytes : Part → Bytes
  | plain bs => bs
  | field bs => bs.field

/-- The size of a field that is too long. -/
def excess : Part → Option Nat
  | plain _ => none
  | field bs => if Bytes.fieldLimit < bs.length then some bs.length else none

/-- Whether a part can be written. -/
def fits (part : Part) : Bool := part.excess.isNone

/-- What of a row of parts is in front of the first that does not fit. -/
def front (parts : List Part) : Bytes := (parts.takeWhile fits).flatMap bytes

theorem fits_plain (bs : Bytes) : (plain bs).fits = true := rfl

theorem fits_field {bs : Bytes} : (field bs).fits = true ↔ bs.length ≤ Bytes.fieldLimit := by
  rw [← Nat.not_lt]
  simp [fits, excess]

theorem findSome?_excess_eq_none_iff {parts : List Part} :
    parts.findSome? excess = none ↔ ∀ part ∈ parts, part.fits = true := by
  simp only [List.findSome?_eq_none_iff, fits, Option.isNone_iff_eq_none]

@[simp] theorem front_nil : front [] = [] := rfl

theorem front_cons_of_fits {part : Part} {parts : List Part} (h : part.fits = true) :
    front (part :: parts) = part.bytes ++ front parts := by
  rw [front, List.takeWhile_cons_of_pos h, List.flatMap_cons, front]

theorem front_cons_of_misfit {part : Part} {parts : List Part} (h : ¬part.fits = true) :
    front (part :: parts) = [] := by
  rw [front, List.takeWhile_cons_of_neg h, List.flatMap_nil]

theorem front_of_fits {parts : List Part} (h : ∀ part ∈ parts, part.fits = true) :
    front parts = parts.flatMap bytes := by
  rw [front, List.takeWhile_eq_self_iff.2 h]

/-- Behind a row that fits, what is in front of the first misfit goes on. -/
theorem front_append_of_fits {parts parts' : List Part}
    (h : ∀ part ∈ parts, part.fits = true) :
    front (parts ++ parts') = front parts ++ front parts' := by
  rw [front_of_fits h, front, List.takeWhile_append_of_pos h, List.flatMap_append, front]

/-- Behind a row that does not fit there is nothing more. -/
theorem front_append_of_misfit {parts parts' : List Part}
    (h : ¬∀ part ∈ parts, part.fits = true) : front (parts ++ parts') = front parts := by
  have hlength : (parts.takeWhile fits).length ≠ parts.length := fun heq =>
    h (List.takeWhile_eq_self_iff.1 ((List.takeWhile_prefix _).eq_of_length heq))
  rw [front, List.takeWhile_append, if_neg hlength, front]

/-- What is in front of the first misfit is the front of the whole row. -/
theorem front_prefix (parts : List Part) : front parts <+: parts.flatMap bytes := by
  obtain ⟨rest, hrest⟩ := List.takeWhile_prefix fits (l := parts)
  refine ⟨rest.flatMap bytes, ?_⟩
  rw [front, ← List.flatMap_append, hrest]

end Part

/-! ### Encoders that lay parts -/

/-- How an encoder ends that lays these parts. -/
def ending (parts : List Part) (a : α) (w : Writer) : EStateM.Result Fault Writer α :=
  match parts.findSome? Part.excess with
  | none => .ok a w
  | some n => .error (.violation (.fieldTooLong n)) w

/-- On any writer the encoder appends the parts that are in front of the first misfit, and fails if
there is one. -/
def Lays (e : Encoder α) (parts : List Part) (a : α) : Prop :=
  ∀ w : Writer, ∃ w', e.run w = ending parts a w' ∧ w'.written = w.written ++ Part.front parts

theorem Lays.bind {e : Encoder α} {k : α → Encoder β} {parts parts' : List Part} {a : α} {b : β}
    (he : e.Lays parts a) (hk : (k a).Lays parts' b) : (e >>= k).Lays (parts ++ parts') b := by
  intro w
  obtain ⟨w₁, h₁, hw₁⟩ := he w
  unfold ending at h₁ ⊢
  rw [List.findSome?_append]
  cases hfind : parts.findSome? Part.excess with
  | none =>
    -- The first encoder gets through, and the second one starts behind it.
    have hfits := Part.findSome?_excess_eq_none_iff.1 hfind
    obtain ⟨w₂, h₂, hw₂⟩ := hk w₁
    rw [hfind] at h₁
    refine ⟨w₂, ?_, ?_⟩
    · rw [EStateM.run_bind, h₁]
      exact h₂
    · rw [hw₂, hw₁, Part.front_append_of_fits hfits, List.append_assoc]
  | some n =>
    -- The first encoder stops at a misfit, so what the second one would lay does not count.
    have hmisfit : ¬∀ part ∈ parts, part.fits = true := fun hfits => by
      rw [Part.findSome?_excess_eq_none_iff.2 hfits] at hfind
      nomatch hfind
    rw [hfind] at h₁
    refine ⟨w₁, ?_, ?_⟩
    · rw [EStateM.run_bind, h₁]
      rfl
    · rw [hw₁, Part.front_append_of_misfit hmisfit]

/-- The same with the parts in another form. -/
theorem Lays.congr {e : Encoder α} {parts parts' : List Part} {a : α} (he : e.Lays parts a)
    (h : parts = parts') : e.Lays parts' a := h ▸ he

theorem lays_pure (a : α) : (pure a : Encoder α).Lays [] a := fun w =>
  ⟨w, rfl, by rw [Part.front_nil, List.append_nil]⟩

theorem lays_bytes (bs : Bytes) : (bytes bs).Lays [.plain bs] () := by
  refine fun w => ⟨w.put bs, rfl, ?_⟩
  rw [Writer.written_put, Part.front_cons_of_fits (Part.fits_plain bs), Part.front_nil,
    List.append_nil]
  rfl

/-- The length of a field is checked before the field is written, and the field is written whole. -/
theorem lays_binary (bs : Bytes) : (binary bs).Lays [.field bs] () := by
  intro w
  by_cases hbs : bs.length ≤ Bytes.fieldLimit
  · have hfits := Part.fits_field.2 hbs
    obtain ⟨w', hrun, hw⟩ := (binary_writes bs).appends hbs w
    refine ⟨w', ?_, ?_⟩
    · rw [hrun, ending, Part.findSome?_excess_eq_none_iff.2 (by simpa using hfits)]
    · rw [hw, Part.front_cons_of_fits hfits, Part.front_nil, List.append_nil]
      rfl
  · have hlong : 65535 < bs.length := Nat.not_le.1 hbs
    refine ⟨w, ?_, ?_⟩
    · have hexcess : [Part.field bs].findSome? Part.excess = some bs.length := by
        rw [List.findSome?_singleton, Part.excess, if_pos (Nat.not_le.1 hbs)]
      unfold binary
      rw [ending, hexcess, if_pos hlong]
      rfl
    · rw [Part.front_cons_of_misfit (mt Part.fits_field.1 hbs), List.append_nil]

/-- A check that lets the encoder go on. -/
theorem lays_check {c : Prop} [Decidable c] (hc : ¬c) (f : Fault) {k : Unit → Encoder β}
    {parts : List Part} {b : β} (hk : (k ()).Lays parts b) :
    (if c then throw f >>= k else k () : Encoder β).Lays parts b := by
  rw [if_neg hc]
  exact hk

/-- A check that stops the encoder. -/
theorem refuses_check {c : Prop} [Decidable c] (hc : c) (f : Fault) (k : Unit → Encoder β) :
    (if c then throw f >>= k else k () : Encoder β).Refuses f := by
  rw [if_pos hc]
  exact fun w => ⟨w, rfl, rfl⟩

theorem Refuses.bind {e : Encoder α} {f : Fault} (he : e.Refuses f) (k : α → Encoder β) :
    (e >>= k).Refuses f := by
  intro w
  obtain ⟨w', hrun, hw⟩ := he w
  exact ⟨w', by rw [EStateM.run_bind, hrun], hw⟩

theorem lays_text (s : String) : (text s).Lays [.field (Bytes.ofText s)] () :=
  lays_binary (Bytes.ofText s)

theorem lays_forM {f : α → Encoder Unit} {g : α → List Part} (h : ∀ a, (f a).Lays (g a) ())
    (l : List α) : (l.forM f).Lays (l.flatMap g) () := by
  induction l with
  | nil => exact lays_pure ()
  | cons a l ih => exact (h a).bind (k := fun _ => l.forM f) ih

end Encoder

open Encoder

/-! ### The parts of a packet -/

/-- The parts of a CONNECT. -/
def Connect.parts (v : Version) (c : Connect) : List Part :=
  [.field (Bytes.ofText v.protocolName), .plain [v.level], .plain [ConnectFlags.ofConnect c],
    .plain (Bytes.ofUInt16 c.keepAlive), .field (Bytes.ofText c.clientId)] ++
    c.will.toList.flatMap (fun w => [.field (Bytes.ofText w.topic), .field w.payload]) ++
    c.username.toList.flatMap (fun s => [.field (Bytes.ofText s)]) ++
    c.password.toList.flatMap fun bs => [.field bs]

namespace Packet

/-- The parts of a packet, in the order in which they are written. -/
def parts (v : Version) : Packet → List Part
  | connect c => c.parts v
  | connAck a => (a.body v).map fun b => .plain [b]
  | publish p =>
    .field (Bytes.ofText p.topic) ::
      p.packetId.toList.flatMap (fun id => [.plain (Bytes.ofUInt16 id)]) ++ [.plain p.payload]
  | pubAck id | pubRec id | pubRel id | pubComp id | unsubAck id => [.plain (Bytes.ofUInt16 id)]
  | subscribe id wanted =>
    .plain (Bytes.ofUInt16 id) ::
      wanted.flatMap fun s => [.field (Bytes.ofText s.filter), .plain [s.qos.toUInt8]]
  | subAck id codes => .plain (Bytes.ofUInt16 id) :: codes.flatMap fun c => [.plain [c.toUInt8]]
  | unsubscribe id filters =>
    .plain (Bytes.ofUInt16 id) :: filters.flatMap fun s => [.field (Bytes.ofText s)]
  | pingReq | pingResp | disconnect => []

variable {v : Version} {p : Packet}

/-- The parts make up the body. -/
theorem flatMap_parts (v : Version) (p : Packet) : (p.parts v).flatMap Part.bytes = p.body v := by
  cases p with
  | connect c =>
    obtain ⟨clientId, keepAlive, cleanSession, username, password, will⟩ := c
    cases will <;> cases username <;> cases password <;>
      simp [parts, Connect.parts, Part.bytes, body, Connect.body, Bytes.ofOption, Will.body]
  | publish m =>
    obtain ⟨topic, payload, qos, retain, dup, packetId⟩ := m
    cases packetId <;> simp [parts, Part.bytes, body, Publish.body, Bytes.ofOption]
  | subscribe id wanted =>
    simp only [parts, body, List.flatMap_cons, List.flatMap_assoc, List.flatMap_nil,
      List.append_nil, Part.bytes]
    rfl
  | _ => simp [parts, Part.bytes, body, ConnAck.body, List.flatMap_assoc]

/-- They fit exactly if the fields do. -/
theorem forall_parts_fit_iff :
    (∀ part ∈ p.parts v, part.fits = true) ↔ ∀ bs ∈ p.fields, bs.length ≤ Bytes.fieldLimit := by
  have hcat {α : Type} (l : List α) (g : α → List Part) :
      (∀ part ∈ l.flatMap g, part.fits = true) ↔ ∀ a ∈ l, ∀ part ∈ g a, part.fits = true := by
    simp only [List.mem_flatMap, forall_exists_index, and_imp]
    exact ⟨fun h a ha part => h part a ha, fun h part a ha => h a ha part⟩
  cases p with
  | connect c =>
    have hname := protocolName_fits v
    rw [forall_fields_connect]
    simp [parts, Connect.parts, List.forall_mem_append, hcat, Part.fits_plain, Part.fits_field,
      hname, -List.mem_append, -List.mem_flatMap]
  | _ =>
    simp [parts, fields, List.forall_mem_append, hcat, Part.fits_plain, Part.fits_field,
      -List.mem_append, -List.mem_flatMap]

theorem lays_encodeOptional {α : Type} {put : α → Encoder Unit} {g : α → List Part}
    (h : ∀ a, (put a).Lays (g a) ()) (o : Option α) :
    (encodeOptional put o).Lays (o.toList.flatMap g) () := by
  cases o with
  | none => exact lays_pure ()
  | some a =>
    rw [Option.toList_some, List.flatMap_singleton]
    exact h a

theorem lays_encodeConnect {c : Connect} (h : (connect c).Sound) (v : Version) :
    (encodeConnect v c).Lays (c.parts v) () := by
  have hwill (w : Will) : (do Encoder.text w.topic; Encoder.binary w.payload : Encoder Unit).Lays
      [.field (Bytes.ofText w.topic), .field w.payload] () :=
    (lays_text w.topic).bind (k := fun _ => Encoder.binary w.payload) (lays_binary w.payload)
  obtain ⟨hpassword, hclient⟩ := h
  have hpassword : ¬(c.password.isSome && c.username.isNone) = true := by
    cases hp : c.password.isSome <;> cases hu : c.username <;> simp_all
  have hclient : ¬(c.clientId.isEmpty && !c.cleanSession) = true := by
    rw [Bool.and_eq_true, String.isEmpty_iff]
    rintro ⟨hempty, hkept⟩
    rw [hclient hempty] at hkept
    nomatch hkept
  unfold encodeConnect
  refine lays_check hpassword _ (lays_check hclient _ (Lays.congr
    ((lays_text _).bind ((lays_bytes _).bind ((lays_bytes _).bind ((lays_bytes _).bind
      ((lays_text _).bind ((lays_encodeOptional hwill c.will).bind
        ((lays_encodeOptional lays_text c.username).bind
          (lays_encodeOptional lays_binary c.password)))))))) ?_))
  simp [Connect.parts]

theorem lays_encodePublish {m : Publish} (h : (publish m).Sound) (v : Version) :
    (encodePublish m).Lays ((publish m).parts v) () := by
  have hvalid : m.validate = .ok () := h
  unfold encodePublish
  rw [hvalid]
  exact (lays_text _).bind
    ((lays_encodeOptional (fun _ => lays_bytes _) m.packetId).bind (lays_bytes m.payload))

/-- **The parts of a sound packet are laid.** -/
theorem encode_lays (h : p.Sound) (v : Version) : (encode v p).Lays (p.parts v) p.header := by
  have hid (id : UInt16) (b : UInt8) :
      (do Encoder.uint16 id; return b : Encoder UInt8).Lays [.plain (Bytes.ofUInt16 id)] b :=
    (lays_bytes _).bind (k := fun _ => pure b) (lays_pure b)
  unfold encode
  cases p with
  | connect c =>
    refine Lays.congr ((lays_encodeConnect h v).bind (lays_pure _)) (List.append_nil _)
  | connAck a =>
    refine Lays.congr ((lays_bytes _).bind ((lays_bytes _).bind (lays_pure _))) rfl
  | publish m =>
    refine Lays.congr ((lays_encodePublish h v).bind (lays_pure _)) (List.append_nil _)
  | pubAck id | pubRec id | pubRel id | pubComp id | unsubAck id => exact hid id _
  | subscribe id wanted =>
    have hitem (s : Subscription) :
        (do Encoder.text s.filter; Encoder.byte s.qos.toUInt8 : Encoder Unit).Lays
          [.field (Bytes.ofText s.filter), .plain [s.qos.toUInt8]] () :=
      (lays_text s.filter).bind (k := fun _ => Encoder.byte s.qos.toUInt8) (lays_bytes _)
    -- That the row is not empty is checked before anything is laid.
    refine lays_check (mt List.isEmpty_iff.1 h) _ (Lays.congr ((lays_bytes _).bind
      ((lays_forM hitem wanted).bind (lays_pure _))) ?_)
    rw [List.append_nil]
    rfl
  | subAck id codes =>
    refine lays_check (mt List.isEmpty_iff.1 h) _ (Lays.congr ((lays_bytes _).bind
      ((lays_forM (fun c : SubscribeCode => lays_bytes [c.toUInt8]) codes).bind
        (lays_pure _))) ?_)
    rw [List.append_nil]
    rfl
  | unsubscribe id filters =>
    refine lays_check (mt List.isEmpty_iff.1 h) _ (Lays.congr ((lays_bytes _).bind
      ((lays_forM lays_text filters).bind (lays_pure _))) ?_)
    rw [List.append_nil]
    rfl
  | pingReq | pingResp | disconnect => exact lays_pure _

theorem encodeConnect_refuses {c : Connect} (h : ¬(connect c).Sound) (v : Version) :
    ∃ f, (encodeConnect v c).Refuses f := by
  unfold encodeConnect
  by_cases hpassword : (c.password.isSome && c.username.isNone) = true
  · exact ⟨_, refuses_check hpassword _ _⟩
  · rw [if_neg hpassword]
    refine ⟨_, refuses_check ?_ _ _⟩
    by_contra hclient
    refine h ⟨fun hp => ?_, fun hempty => ?_⟩
    · cases hu : c.username <;> simp_all
    · simp_all

/-- A packet that is not sound is refused before anything is written. -/
theorem encode_refuses (h : ¬p.Sound) (v : Version) : ∃ f, (encode v p).Refuses f := by
  unfold encode
  cases p with
  | connect c =>
    obtain ⟨f, hf⟩ := encodeConnect_refuses h v
    exact ⟨f, hf.bind _⟩
  | publish m =>
    rcases hv : m.validate with f | ⟨⟩
    · refine ⟨f, Refuses.bind (fun w => ⟨w, ?_, rfl⟩) _⟩
      rw [encodePublish, hv]
      rfl
    · exact absurd hv h
  | subscribe id wanted => exact ⟨_, refuses_check (List.isEmpty_iff.2 (not_not.1 h)) _ _⟩
  | subAck id codes => exact ⟨_, refuses_check (List.isEmpty_iff.2 (not_not.1 h)) _ _⟩
  | unsubscribe id filters => exact ⟨_, refuses_check (List.isEmpty_iff.2 (not_not.1 h)) _ _⟩
  | _ => exact absurd trivial h

/-! ### What stays -/

/-- What is committed of a packet that fails: of a sound one the parts in front of the first that is
too long, of any other nothing. -/
theorem written_of_encode_error {w w' : Writer} {f : Fault}
    (h : (encode v p).run w = .error f w') :
    p.Sound ∧ w'.written = w.written ++ Part.front (p.parts v) ∧
        (¬∀ bs ∈ p.fields, bs.length ≤ Bytes.fieldLimit) ∨
      ¬p.Sound ∧ w'.written = w.written := by
  by_cases hs : p.Sound
  · obtain ⟨w₁, hrun, hw⟩ := encode_lays hs v w
    rw [h, ending] at hrun
    refine .inl ⟨hs, ?_, fun hfields => ?_⟩
    · split at hrun
      · nomatch hrun
      · cases hrun
        exact hw
    · have hfits := Part.findSome?_excess_eq_none_iff.2 (forall_parts_fit_iff (v := v) |>.2 hfields)
      rw [hfits] at hrun
      nomatch hrun
  · obtain ⟨e, he⟩ := encode_refuses hs v
    obtain ⟨w₁, hrun, hw⟩ := he w
    rw [h] at hrun
    cases hrun
    exact .inr ⟨hs, hw⟩

/-- A packet with fields begins with something that fits, unless it is a PUBLISH. -/
theorem front_parts_ne_nil (h : p.fields ≠ []) (hp : ∀ m, p ≠ publish m) :
    Part.front (p.parts v) ≠ [] := by
  have hplain (id : UInt16) (rest : List Part) :
      Part.front (.plain (Bytes.ofUInt16 id) :: rest) ≠ [] := by
    rw [Part.front_cons_of_fits (Part.fits_plain _)]
    exact fun hnil => nomatch hnil
  cases p with
  | connect c =>
    have hname : (Part.field (Bytes.ofText v.protocolName)).fits = true :=
      Part.fits_field.2 (protocolName_fits v)
    show Part.front (.field (Bytes.ofText v.protocolName) :: _) ≠ []
    rw [Part.front_cons_of_fits hname]
    exact fun hnil => Bytes.field_ne_nil _ (List.append_eq_nil_iff.1 hnil).1
  | publish m => exact absurd rfl (hp m)
  | subscribe id wanted => exact hplain id _
  | unsubscribe id filters => exact hplain id _
  | _ => exact absurd rfl h

/-- **A packet is written whole or not at all** if it breaks a rule that is checked first, or is a
PUBLISH, or has no field that is too long, and only then. In every case what stays of a packet that
fails is a front part of its body, and it ends where the first field that is too long would
begin. -/
theorem encode_whole_or_nothing_iff (v : Version) (p : Packet) :
    ((∀ w f w', (encode v p).run w = .error f w' → w'.written = w.written) ↔
      ¬p.Sound ∨ (∃ m, p = publish m) ∨ ∀ bs ∈ p.fields, bs.length ≤ Bytes.fieldLimit) ∧
      ∀ w f w', (encode v p).run w = .error f w' → ∃ left, w'.written = w.written ++ left ∧
        left <+: p.body v ∧ (p.Sound → left = Part.front (p.parts v)) := by
  refine ⟨⟨fun h => ?_, fun h w f w' hrun => ?_⟩, fun w f w' hrun => ?_⟩
  · by_contra hnot
    obtain ⟨hs, hpublish, hlong⟩ : p.Sound ∧ (∀ m, p ≠ publish m) ∧
        ¬∀ bs ∈ p.fields, bs.length ≤ Bytes.fieldLimit := by simpa using hnot
    have hfields : p.fields ≠ [] := by
      rintro hnil
      exact hlong fun bs hbs => absurd (hnil ▸ hbs) List.not_mem_nil
    obtain ⟨f, w', more, hrun, -⟩ :=
      (encode_writes v p).fails (fun hwrites => hlong hwrites.2) .empty
    rcases written_of_encode_error hrun with ⟨-, hw, -⟩ | ⟨hns, -⟩
    · rw [h _ _ _ hrun, List.self_eq_append_right] at hw
      exact front_parts_ne_nil hfields hpublish hw
    · exact hns hs
  · rcases written_of_encode_error hrun with ⟨hs, hw, hlong⟩ | ⟨-, hw⟩
    · rcases h with hns | ⟨m, rfl⟩ | hfits
      · exact absurd hs hns
      · -- The field that is too long is the first part, so nothing is in front of it.
        have htopic : ¬(Part.field (Bytes.ofText m.topic)).fits = true := fun hfits =>
          hlong (by simpa [fields] using Part.fits_field.1 hfits)
        rw [hw]
        show w.written ++ Part.front (.field (Bytes.ofText m.topic) :: _) = w.written
        rw [Part.front_cons_of_misfit htopic, List.append_nil]
      · exact absurd hfits hlong
    · exact hw
  · rcases written_of_encode_error hrun with ⟨-, hw, -⟩ | ⟨hns, hw⟩
    · exact ⟨_, hw, flatMap_parts v p ▸ Part.front_prefix _, fun _ => rfl⟩
    · exact ⟨[], by rw [hw, List.append_nil], List.nil_prefix, fun hs => absurd hs hns⟩

/-- A CONNECT whose password is too long leaves all its other fields behind. -/
theorem encode_leaves_front_of_connect :
    ¬∀ w f w', (encode .v311
        (connect ⟨"c", 0, true, some "u", some (.replicate 65536 0), none⟩)).run w = .error f w' →
      w'.written = w.written := by
  have hpassword : Bytes.fieldLimit < (List.replicate 65536 (0 : UInt8)).length := by
    rw [List.length_replicate]
    decide
  generalize List.replicate 65536 (0 : UInt8) = password at hpassword ⊢
  rw [(encode_whole_or_nothing_iff _ _).1]
  rintro (hns | ⟨m, hm⟩ | hfits)
  · exact hns ⟨fun _ => rfl, fun _ => rfl⟩
  · nomatch hm
  · exact absurd (hfits password (by simp [fields])) (Nat.not_le.2 hpassword)

end Packet
end Mqtt
