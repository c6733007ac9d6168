import Mqtt.Proofs.Field
/-!
# Rows of fields

A body is written field by field and read back by asking for the same kinds in the same order. What
is asked for is not in the bytes, so a reader may ask for anything: `answers` are what it gets, and
it goes on asking when a call has failed.

That a row of fields comes back whatever follows it is the round trip of each field, one after the
other (`answers_row`). Of a row that lacks bytes at its end, the fields in front come back, and the
next one fails for want of bytes (`answers_part`): a decoder that `Starves` on every part of what it
reads keeps doing so behind another one (`Starves.bind`), whether the cut falls into a length, right
behind it, or into the bytes that it announces.
-/

namespace Mqtt

/-! ### Fields -/

/-- A field with its value. -/
inductive Field where
  | byte (b : UInt8)
  | uint16 (n : UInt16)
  | text (s : String)
  | binary (bs : Bytes)
deriving DecidableEq, Repr

/-- What a field can be read as. -/
inductive FieldKind where
  | byte
  | uint16
  | text
  | binary
deriving DecidableEq, Repr

namespace Field

/-- The kind of a field. -/
def kind : Field → FieldKind
  | byte _ => .byte
  | uint16 _ => .uint16
  | text _ => .text
  | binary _ => .binary

/-- What stands behind a length is not longer than a length can say. -/
def Fits : Field → Prop
  | byte _ => True
  | uint16 _ => True
  | text s => s.utf8ByteSize ≤ Bytes.fieldLimit
  | binary bs => bs.length ≤ Bytes.fieldLimit

instance (f : Field) : Decidable f.Fits :=
  match f with
  | byte _ => inferInstanceAs (Decidable True)
  | uint16 _ => inferInstanceAs (Decidable True)
  | text s => inferInstanceAs (Decidable (s.utf8ByteSize ≤ Bytes.fieldLimit))
  | binary bs => inferInstanceAs (Decidable (bs.length ≤ Bytes.fieldLimit))

/-- Appends a field. -/
def write : Field → Encoder Unit
  | byte b => Encoder.byte b
  | uint16 n => Encoder.uint16 n
  | text s => Encoder.text s
  | binary bs => Encoder.binary bs

/-- What a field is on the wire. -/
def bytes : Field → Bytes
  | byte b => [b]
  | uint16 n => Bytes.ofUInt16 n
  | text s => (Bytes.ofText s).field
  | binary bs => bs.field

theorem writes (f : Field) : f.write.Writes f.Fits f.bytes () := by
  cases f with
  | byte b => exact Encoder.byte_writes b
  | uint16 n => exact Encoder.uint16_writes n
  | text s => exact Encoder.text_writes s
  | binary bs => exact Encoder.binary_writes bs

end Field

/-- Takes a field. -/
def FieldKind.read : FieldKind → Decoder Field
  | byte => .byte <$> Decoder.byte
  | uint16 => .uint16 <$> Decoder.uint16
  | text => .text <$> Decoder.text
  | binary => .binary <$> Decoder.binary

theorem Field.reads {f : Field} (h : f.Fits) : f.kind.read.Reads f.bytes f := by
  cases f with
  | byte b => exact (Decoder.byte_reads b).map _
  | uint16 n => exact (Decoder.uint16_reads n).map _
  | text s => exact (Decoder.text_reads h).map _
  | binary bs => exact (Decoder.binary_reads h).map _

/-! ### Cuts -/

namespace Decoder

variable {α β : Type} {d : Decoder α} {k : α → Decoder β} {a : α} {s t : Bytes}

/-- On these bytes without some at their end, the decoder fails for want of bytes. -/
def Starves (d : Decoder α) (bs : Bytes) : Prop :=
  ∀ part, part <+: bs → part ≠ bs →
    ∃ need left rest, d.run part = .error (.violation (.bodyTooShort need left)) rest

/-- What lacks bytes of two byte strings lacks bytes of the first, or only of the second. -/
theorem cut_append {part : Bytes} (h : part <+: s ++ t) (hne : part ≠ s ++ t) :
    (part <+: s ∧ part ≠ s) ∨ ∃ behind, part = s ++ behind ∧ behind <+: t ∧ behind ≠ t := by
  by_cases hs : s <+: part
  · obtain ⟨behind, rfl⟩ := hs
    exact .inr ⟨behind, rfl, (List.prefix_append_right_inj s).1 h, fun heq => hne (by rw [heq])⟩
  · have hpart : part <+: s :=
      (List.prefix_or_prefix_of_prefix h (List.prefix_append s t)).resolve_right hs
    exact .inl ⟨hpart, fun heq => hs (heq ▸ List.prefix_refl _)⟩

/-- What comes behind a decoder that starves does not matter. -/
theorem Starves.bind_left (h : d.Starves s) (k : α → Decoder β) : (d >>= k).Starves s := by
  intro part hpart hne
  obtain ⟨need, left, rest, hrun⟩ := h part hpart hne
  exact ⟨need, left, rest, by rw [EStateM.run_bind, hrun]⟩

theorem Starves.map (h : d.Starves s) (f : α → β) : (f <$> d).Starves s := by
  rw [map_eq_pure_bind]
  exact h.bind_left _

/-- The cut falls into what the first decoder reads, or behind it. -/
theorem Starves.bind (hd : d.Starves s) (hread : d.Reads s a) (hk : (k a).Starves t) :
    (d >>= k).Starves (s ++ t) := by
  intro part hpart hne
  rcases cut_append hpart hne with ⟨hfront, hne'⟩ | ⟨behind, rfl, hbehind, hne'⟩
  · exact hd.bind_left k part hfront hne'
  · obtain ⟨need, left, rest, hrun⟩ := hk behind hbehind hne'
    exact ⟨need, left, rest, by rw [EStateM.run_bind, hread]; exact hrun⟩

theorem take_starves (bs : Bytes) : (take bs.length).Starves bs := by
  intro part hpart hne
  have hlt : part.length < bs.length :=
    Nat.lt_of_le_of_ne hpart.length_le fun heq => hne (hpart.eq_of_length heq)
  refine ⟨bs.length, part.length, part, ?_⟩
  simp only [take, EStateM.run_bind, EStateM.run_get, Bytes.hasAtLeast_eq, decide_eq_true_eq,
    if_neg (Nat.not_le.2 hlt)]
  rfl

theorem byte_starves (b : UInt8) : byte.Starves [b] := (take_starves [b]).bind_left _

theorem uint16_starves (n : UInt16) : uint16.Starves (Bytes.ofUInt16 n) :=
  (take_starves (Bytes.ofUInt16 n)).bind_left _

theorem binary_starves {bs : Bytes} (h : bs.length ≤ Bytes.fieldLimit) :
    binary.Starves bs.field := by
  refine (uint16_starves _).bind (uint16_reads _) ?_
  rw [Bytes.toNat_ofNat_length h]
  exact take_starves bs

theorem text_starves {s : String} (h : s.utf8ByteSize ≤ Bytes.fieldLimit) :
    text.Starves (Bytes.ofText s).field :=
  (binary_starves h).bind_left _

end Decoder

theorem Field.starves {f : Field} (h : f.Fits) : f.kind.read.Starves f.bytes := by
  cases f with
  | byte b => exact (Decoder.byte_starves b).map _
  | uint16 n => exact (Decoder.uint16_starves n).map _
  | text s => exact (Decoder.text_starves h).map _
  | binary bs => exact (Decoder.binary_starves h).map _

/-! ### Calls -/

/-- A call on a body that is being read. -/
inductive BodyCall where
  | read (k : FieldKind)
  /-- Takes everything that is left. -/
  | rest
deriving DecidableEq, Repr

/-- What a call is answered with. -/
inductive BodyAnswer where
  | field (f : Field)
  | rest (bs : Bytes)
  | failed (e : Fault)
deriving DecidableEq, Repr

namespace BodyCall

/-- The decoder of a call. -/
def decoder : BodyCall → Decoder BodyAnswer
  | read k => .field <$> k.read
  | rest => .rest <$> Decoder.rest

/-- A call on a body, and what it leaves of it. -/
def onBody (body : Bytes) (c : BodyCall) : BodyAnswer × Bytes :=
  match c.decoder.run body with
  | .ok a left => (a, left)
  | .error e left => (.failed e, left)

/-- The answers to calls in turn. A call that fails does not end them. -/
def answers : Bytes → List BodyCall → List BodyAnswer
  | _, [] => []
  | body, c :: cs => (c.onBody body).1 :: answers (c.onBody body).2 cs

/-- The calls that ask for fields of the same kinds. -/
def askFor (fields : List Field) : List BodyCall := fields.map fun f => read f.kind

variable {fields : List Field} {f : Field}

theorem onBody_read (h : f.Fits) (rest : Bytes) :
    (read f.kind).onBody (f.bytes ++ rest) = (.field f, rest) := by
  have hrun := (Field.reads h).map BodyAnswer.field rest
  rw [onBody, show (read f.kind).decoder = .field <$> f.kind.read from rfl, hrun]

theorem onBody_part (h : f.Fits) {part : Bytes} (hpart : part <+: f.bytes) (hne : part ≠ f.bytes) :
    ∃ need left, ((read f.kind).onBody part).1 =
      .failed (.violation (.bodyTooShort need left)) := by
  obtain ⟨need, left, rest, hrun⟩ := (Field.starves h).map BodyAnswer.field part hpart hne
  refine ⟨need, left, ?_⟩
  rw [onBody, show (read f.kind).decoder = .field <$> f.kind.read from rfl, hrun]

/-- **A row comes back**, and leaves what follows it. -/
theorem answers_row (hfits : ∀ f ∈ fields, f.Fits) (rest : Bytes) (cs : List BodyCall) :
    answers (fields.flatMap Field.bytes ++ rest) (askFor fields ++ cs) =
      fields.map .field ++ answers rest cs := by
  induction fields with
  | nil => rfl
  | cons f fields ih =>
    obtain ⟨hf, hfits⟩ := List.forall_mem_cons.1 hfits
    rw [List.flatMap_cons, List.append_assoc, askFor, List.map_cons, List.cons_append, answers,
      onBody_read hf, ← askFor, ih hfits, List.map_cons, List.cons_append]

/-- **A row that lacks bytes fails for want of them**, and the fields in front come back. -/
theorem answers_part (hfits : ∀ f ∈ fields, f.Fits) {part : Bytes}
    (hpart : part <+: fields.flatMap Field.bytes) (hne : part ≠ fields.flatMap Field.bytes) :
    ∃ earlier need left later, earlier <+: fields ∧
      answers part (askFor fields) =
        earlier.map .field ++ .failed (.violation (.bodyTooShort need left)) :: later := by
  induction fields generalizing part with
  | nil => exact absurd (List.prefix_nil.1 hpart) hne
  | cons f fields ih =>
    obtain ⟨hf, hfits⟩ := List.forall_mem_cons.1 hfits
    rw [List.flatMap_cons] at hpart hne
    rw [askFor, List.map_cons, answers, ← askFor]
    rcases Decoder.cut_append hpart hne with ⟨hfront, hne'⟩ | ⟨behind, rfl, hbehind, hne'⟩
    · obtain ⟨need, left, hfailed⟩ := onBody_part hf hfront hne'
      exact ⟨[], need, left, _, List.nil_prefix, by rw [hfailed]; rfl⟩
    · obtain ⟨earlier, need, left, later, hearlier, hanswers⟩ := ih hfits hbehind hne'
      refine ⟨f :: earlier, need, left, later, (List.prefix_cons_inj f).2 hearlier, ?_⟩
      rw [onBody_read hf, hanswers]
      rfl

/-- What is refused as a text has been taken, and reading goes on behind it. -/
example : answers [0x00, 0x02, 0xC3, 0x28, 0x07, 0x00] [.read .text, .read .byte, .read .uint16] =
    [.failed (.violation .invalidText), .field (.byte 7),
      .failed (.violation (.bodyTooShort 2 1))] := by
  decide +kernel

end BodyCall
end Mqtt
