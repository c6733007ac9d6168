import Mqtt.Frame
import Mqtt.Proofs.Field
import Mqtt.Proofs.RemainingLength
/-!
# Frames and byte streams

`Frame.parse` finds the frame that `Frame.write` wrote, whatever follows (`parse_bytes_append`).
What it finds does not depend on what follows (`parse_append`), and as long as a byte is missing it
finds nothing (`parse_take`). So a stream of frames falls into frames in one way only: a stream of
whole frames cannot also be read as whole frames with a part of a frame behind them
(`flatten_append_ne_flatten`).
-/

namespace Mqtt
namespace Frame

/-- The bytes of a frame, its length in the shortest form. -/
def bytes (f : Frame) : Bytes := f.header :: RemainingLength.digits f.body.length ++ f.body

/-- Bytes that read as exactly one frame. -/
def Whole (bs : Bytes) : Prop := ∃ f, parse bs = .ok (some (f, bs.length))

/-! ### Writing -/

theorem written_putChunks (bs : Bytes) (w : Writer) :
    (putChunks bs w).written = w.written ++ bs := by
  induction bs, w using putChunks.induct with
  | case1 w =>
    rw [putChunks, dif_pos rfl, List.append_nil]
  | case2 bs w h ih =>
    rw [putChunks, dif_neg h, ih, Writer.written_put, List.append_assoc, List.take_append_drop]

theorem write_writes (f : Frame) :
    f.write.Writes (f.body.length ≤ RemainingLength.limit) f.bytes () := by
  have hbody : (modify fun w => putChunks f.body w : Encoder Unit).Writes True f.body () :=
    ⟨fun _ w => ⟨putChunks f.body w, rfl, written_putChunks f.body w⟩, fun h => absurd trivial h⟩
  have hlength : (Encoder.remainingLength f.body.length).Writes
      (f.body.length ≤ RemainingLength.limit) (RemainingLength.digits f.body.length)
      (RemainingLength.digits f.body.length).length := by
    unfold Encoder.remainingLength
    refine Encoder.Writes.congr (Encoder.check_writes _
      ((Encoder.bytes_writes _).bind (Encoder.pure_writes _))) ?_ (List.append_nil _)
    rw [and_true, and_true, Nat.not_lt]
  unfold write
  refine Encoder.Writes.congr (Encoder.check_writes _ ((Encoder.byte_writes f.header).bind
    ((hlength.bind (Encoder.pure_writes ())).bind hbody))) ?_ ?_
  · rw [Nat.not_lt]
    tauto
  · rw [List.append_nil]
    rfl

/-! ### Parsing -/

/-- A frame is found once its length and its body are there. -/
theorem parse_cons (header : UInt8) (rest : Bytes) :
    parse (header :: rest) = (RemainingLength.parse rest).map fun r => r.bind fun p =>
      if p.1 ≤ (rest.drop p.2).length then
        some (⟨header, (rest.drop p.2).take p.1⟩, 1 + p.2 + p.1)
      else none := by
  rw [parse]
  rcases RemainingLength.parse rest with e | _ | ⟨n, used⟩
  · rfl
  · rfl
  · simp only [bind, Except.bind, Except.map, Option.bind, Bytes.hasAtLeast_eq,
      decide_eq_true_eq]
    split_ifs <;> rfl

/-- What it means that a frame is found. -/
theorem parse_cons_eq_some {header : UInt8} {rest : Bytes} {f : Frame} {n : Nat} :
    parse (header :: rest) = .ok (some (f, n)) ↔
      ∃ size used, RemainingLength.parse rest = .ok (some (size, used)) ∧
        used + size ≤ rest.length ∧ f = ⟨header, (rest.drop used).take size⟩ ∧
        n = 1 + used + size := by
  rw [parse_cons]
  rcases hp : RemainingLength.parse rest with e | _ | ⟨size, used⟩
  · simp [Except.map]
  · simp [Except.map]
  · obtain ⟨hused, -, -⟩ := RemainingLength.parse_used hp
    simp only [Except.map, Option.bind, Except.ok.injEq, Option.some.injEq, Prod.mk.injEq,
      List.length_drop]
    constructor
    · intro h
      split_ifs at h with hle
      · simp only [Option.some.injEq, Prod.mk.injEq] at h
        exact ⟨size, used, ⟨rfl, rfl⟩, by omega, h.1.symm, h.2.symm⟩
    · rintro ⟨size', used', ⟨rfl, rfl⟩, hle, rfl, rfl⟩
      rw [if_pos (by omega)]

theorem parse_length {bs : Bytes} {f : Frame} {n : Nat} (h : parse bs = .ok (some (f, n))) :
    0 < n ∧ n ≤ bs.length ∧ f.body.length ≤ RemainingLength.limit := by
  cases bs with
  | nil => cases h
  | cons header rest =>
    obtain ⟨size, used, hp, hle, rfl, rfl⟩ := parse_cons_eq_some.1 h
    obtain ⟨-, -, hsize⟩ := RemainingLength.parse_used hp
    refine ⟨by omega, by rw [List.length_cons]; omega, ?_⟩
    show ((rest.drop used).take size).length ≤ _
    rw [List.length_take]
    omega

/-- A frame takes more bytes than its body. -/
theorem length_body_lt {bs : Bytes} {f : Frame} {n : Nat} (h : parse bs = .ok (some (f, n))) :
    f.body.length < n := by
  cases bs with
  | nil => cases h
  | cons header rest =>
    obtain ⟨size, used, -, -, rfl, rfl⟩ := parse_cons_eq_some.1 h
    show ((rest.drop used).take size).length < _
    rw [List.length_take]
    omega

/-- What follows a frame does not matter. -/
theorem parse_append {bs : Bytes} {f : Frame} {n : Nat} (h : parse bs = .ok (some (f, n)))
    (more : Bytes) : parse (bs ++ more) = .ok (some (f, n)) := by
  cases bs with
  | nil => cases h
  | cons header rest =>
    obtain ⟨size, used, hp, hle, rfl, rfl⟩ := parse_cons_eq_some.1 h
    rw [List.cons_append, parse_cons_eq_some]
    refine ⟨size, used, RemainingLength.parse_append hp more, ?_, ?_, rfl⟩
    · rw [List.length_append]
      omega
    · rw [List.drop_append_of_le_length (by omega), List.take_append_of_le_length]
      rw [List.length_drop]
      omega

/-- A frame is found in its own bytes. -/
theorem parse_take_self {bs : Bytes} {f : Frame} {n : Nat} (h : parse bs = .ok (some (f, n))) :
    parse (bs.take n) = .ok (some (f, n)) := by
  cases bs with
  | nil => cases h
  | cons header rest =>
    obtain ⟨size, used, hp, hle, rfl, rfl⟩ := parse_cons_eq_some.1 h
    rw [Nat.add_assoc, Nat.add_comm, List.take_succ_cons, parse_cons_eq_some]
    refine ⟨size, used, RemainingLength.parse_take_of_le hp (by omega), ?_, ?_, by omega⟩
    · rw [List.length_take]
      omega
    · rw [List.drop_take, List.take_take, Nat.add_sub_cancel_left, Nat.min_self]

/-- Nothing is found as long as a byte of the frame is missing. -/
theorem parse_take {bs : Bytes} {f : Frame} {n k : Nat} (h : parse bs = .ok (some (f, n)))
    (hk : k < n) : parse (bs.take k) = .ok none := by
  cases bs with
  | nil => cases h
  | cons header rest =>
    obtain ⟨size, used, hp, hle, rfl, rfl⟩ := parse_cons_eq_some.1 h
    cases k with
    | zero => rfl
    | succ k =>
      rw [List.take_succ_cons, parse_cons]
      by_cases hu : k < used
      · -- Not even the length is whole.
        rw [RemainingLength.parse_take hp hu]
        rfl
      · -- The length can be read, and more bytes are due than there are.
        rw [RemainingLength.parse_take_of_le hp (by omega)]
        simp only [Except.map, Option.bind, List.length_drop, List.length_take]
        rw [if_neg (by omega)]

/-- **A frame is found again where it was written**, whatever follows it. -/
theorem parse_bytes_append {f : Frame} (h : f.body.length ≤ RemainingLength.limit)
    (rest : Bytes) : parse (f.bytes ++ rest) = .ok (some (f, f.bytes.length)) := by
  rw [bytes, List.cons_append, List.cons_append, parse_cons_eq_some]
  refine ⟨f.body.length, (RemainingLength.digits f.body.length).length, ?_, ?_, ?_, ?_⟩
  · rw [List.append_assoc]
    exact RemainingLength.parse_digits_append h _
  · simp only [List.length_append]
    omega
  · rw [List.append_assoc, List.drop_left, List.take_left]
  · simp only [List.length_cons, List.length_append]
    omega

theorem whole_bytes {f : Frame} (h : f.body.length ≤ RemainingLength.limit) : Whole f.bytes := by
  have := parse_bytes_append h []
  rw [List.append_nil] at this
  exact ⟨f, this⟩

/-! ### Streams -/

namespace Whole

variable {bs part left : Bytes}

theorem ne_nil (h : Whole bs) : bs ≠ [] := by
  rintro rfl
  obtain ⟨f, h⟩ := h
  cases h

/-- A whole frame is found in front of any rest. -/
theorem parse_append (h : Whole bs) (rest : Bytes) :
    ∃ f, parse (bs ++ rest) = .ok (some (f, bs.length)) := by
  obtain ⟨f, h⟩ := h
  exact ⟨f, Frame.parse_append h rest⟩

/-- A proper part of a whole frame is no frame. -/
theorem parse_part (h : Whole (part ++ left)) (hleft : left ≠ []) : parse part = .ok none := by
  obtain ⟨f, h⟩ := h
  have hlt : part.length < (part ++ left).length := by
    have := List.length_pos_iff.2 hleft
    rw [List.length_append]
    omega
  have := parse_take h hlt
  rwa [List.take_left] at this

/-- Of two whole frames in front of the same bytes neither is longer. -/
theorem append_inj {bs' rest rest' : Bytes} (h : Whole bs) (h' : Whole bs')
    (heq : bs ++ rest = bs' ++ rest') : bs = bs' ∧ rest = rest' := by
  obtain ⟨f, hf⟩ := h.parse_append rest
  obtain ⟨g, hg⟩ := h'.parse_append rest'
  rw [heq, hg] at hf
  simp only [Except.ok.injEq, Option.some.injEq, Prod.mk.injEq] at hf
  exact List.append_inj heq hf.2.symm

end Whole

/-- **A stream of whole frames cannot also be read as whole frames with a part of one behind.** -/
theorem flatten_append_ne_flatten {xs ys : List Bytes} {part left : Bytes}
    (hx : ∀ x ∈ xs, Whole x) (hy : ∀ y ∈ ys, Whole y) (hw : Whole (part ++ left))
    (hpart : part ≠ []) (hleft : left ≠ []) : xs.flatten ++ part ≠ ys.flatten := by
  induction xs generalizing ys with
  | nil =>
    cases ys with
    | nil => simpa using hpart
    | cons y ys =>
      -- The part would begin with a whole frame.
      intro h
      rw [List.flatten_nil, List.nil_append, List.flatten_cons] at h
      obtain ⟨f, hf⟩ := (hy y List.mem_cons_self).parse_append ys.flatten
      rw [← h, hw.parse_part hleft] at hf
      cases hf
  | cons x xs ih =>
    cases ys with
    | nil => simp [(hx x List.mem_cons_self).ne_nil]
    | cons y ys =>
      intro h
      rw [List.flatten_cons, List.flatten_cons, List.append_assoc] at h
      -- Both streams begin with the same frame.
      obtain ⟨-, htail⟩ := (hx x List.mem_cons_self).append_inj (hy y List.mem_cons_self) h
      exact ih (fun z hz => hx z (List.mem_cons_of_mem _ hz))
        (fun z hz => hy z (List.mem_cons_of_mem _ hz)) htail

end Frame

/-- A frame is whole, if it can be laid out. -/
def FrameWhole (frame : Except Fault Bytes) : Prop := ∀ bs, frame = .ok bs → Frame.Whole bs

end Mqtt
