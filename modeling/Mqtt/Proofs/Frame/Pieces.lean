import Mqtt.Proofs.Frame.Split
/-!
# Frames delimit themselves

As bytes arrive, the answer of `Frame.parse` changes at most once: from "not yet" to a frame or to a
fault, and then it stands (`parse_append`, `parse_append_of_error`, `parse_take`). So the frames in
a byte string are known from the bytes alone. `Splits` says that a byte string falls into pieces
that are whole frames and a rest that begins with none: it does so in one way (`exists_splits`,
`Splits.unique`), and bytes that are added leave the pieces as they are (`Splits.append`).
-/

namespace Mqtt
namespace Frame

variable {bs piece rest rest' : Bytes} {pieces pieces' : List Bytes}

/-- A fault stands whatever follows. -/
theorem parse_append_of_error {e : Fault} (h : parse bs = .error e) (more : Bytes) :
    parse (bs ++ more) = .error e :=
  parse_eq_error.2 (extent_append_of_error (parse_eq_error.1 h) more).2

/-- The bytes are whole frames, one behind the other, and a rest that is incomplete or malformed. -/
structure Splits (bs : Bytes) (pieces : List Bytes) (rest : Bytes) : Prop where
  join : bs = pieces.flatten ++ rest
  whole : ∀ piece ∈ pieces, Whole piece
  stop : parse rest = .ok none ∨ ∃ e, parse rest = .error e

namespace Splits

theorem nil (h : parse bs = .ok none ∨ ∃ e, parse bs = .error e) : Splits bs [] bs :=
  ⟨rfl, List.forall_mem_nil _, h⟩

theorem cons (hpiece : Whole piece) (h : Splits bs pieces rest) :
    Splits (piece ++ bs) (piece :: pieces) rest where
  join := by rw [List.flatten_cons, List.append_assoc, ← h.join]
  whole := List.forall_mem_cons.2 ⟨hpiece, h.whole⟩
  stop := h.stop

/-- No whole frame stands in front of the rest. -/
theorem ne_whole_append (h : Splits bs pieces rest) (hpiece : Whole piece) (more : Bytes) :
    rest ≠ piece ++ more := by
  rintro rfl
  obtain ⟨f, hf⟩ := hpiece.parse_append more
  rcases h.stop with hnone | ⟨e, herror⟩
  · rw [hf] at hnone
    cases hnone
  · rw [hf] at herror
    cases herror

/-- **The pieces and the rest are known from the bytes.** -/
theorem unique (h : Splits bs pieces rest) (h' : Splits bs pieces' rest') :
    pieces' = pieces ∧ rest' = rest := by
  induction pieces generalizing bs pieces' with
  | nil =>
    have hrest : bs = rest := h.join
    cases pieces' with
    | nil => exact ⟨rfl, h'.join.symm.trans hrest⟩
    | cons piece' pieces' =>
      have hjoin := h'.join
      rw [hrest, List.flatten_cons, List.append_assoc] at hjoin
      exact absurd hjoin (h.ne_whole_append (h'.whole _ List.mem_cons_self) _)
  | cons piece pieces ih =>
    have hjoin := h.join
    rw [List.flatten_cons, List.append_assoc] at hjoin
    cases pieces' with
    | nil =>
      have hrest' : bs = rest' := h'.join
      rw [hrest'] at hjoin
      exact absurd hjoin (h'.ne_whole_append (h.whole _ List.mem_cons_self) _)
    | cons piece' pieces' =>
      have hjoin' := h'.join
      rw [hjoin, List.flatten_cons, List.append_assoc] at hjoin'
      -- Both begin with the same frame.
      obtain ⟨rfl, hbehind⟩ :=
        (h.whole _ List.mem_cons_self).append_inj (h'.whole _ List.mem_cons_self) hjoin'
      obtain ⟨rfl, hrest⟩ := ih
        ⟨rfl, fun p hp => h.whole p (List.mem_cons_of_mem _ hp), h.stop⟩
        ⟨hbehind, fun p hp => h'.whole p (List.mem_cons_of_mem _ hp), h'.stop⟩
      exact ⟨rfl, hrest⟩

/-- Bytes that are added are split together with the rest. -/
theorem append {c : Bytes} {more : List Bytes} (h : Splits bs pieces rest)
    (h' : Splits (rest ++ c) more rest') : Splits (bs ++ c) (pieces ++ more) rest' where
  join := by rw [h.join, List.append_assoc, h'.join, List.flatten_append, List.append_assoc]
  whole p hp := (List.mem_append.1 hp).elim (h.whole p) (h'.whole p)
  stop := h'.stop

end Splits

/-- The bytes that a frame was found in are a whole frame. -/
theorem whole_take {f : Frame} {n : Nat} (h : parse bs = .ok (some (f, n))) :
    Whole (bs.take n) := by
  refine ⟨f, ?_⟩
  rw [List.length_take_of_le (parse_length h).2.1]
  exact parse_take_self h

theorem exists_splits (bs : Bytes) : ∃ pieces rest, Splits bs pieces rest := by
  induction hlength : bs.length using Nat.strongRecOn generalizing bs with
  | ind length ih =>
    rcases h : parse bs with e | _ | ⟨f, n⟩
    · exact ⟨[], bs, .nil (.inr ⟨e, h⟩)⟩
    · exact ⟨[], bs, .nil (.inl h)⟩
    · obtain ⟨hpos, hle, -⟩ := parse_length h
      have hshorter : (bs.drop n).length < length := by
        rw [List.length_drop]
        omega
      obtain ⟨pieces, rest, hsplits⟩ := ih _ hshorter (bs.drop n) rfl
      refine ⟨bs.take n :: pieces, rest, ?_⟩
      have hcons := hsplits.cons (whole_take h)
      rwa [List.take_append_drop] at hcons

/-- **Frames delimit themselves.** A fault and a frame stand whatever follows; a frame is made of
bytes that are there, and with any byte of it missing there is none. So every byte string falls into
whole frames and a rest in exactly one way, and however it is extended, these frames remain the
first ones and the rest is split together with what follows. -/
theorem parse_selfDelimiting (b c : Bytes) :
    (∀ e, parse b = .error e → parse (b ++ c) = .error e) ∧
      (∀ f n, parse b = .ok (some (f, n)) →
        n ≤ b.length ∧ parse (b ++ c) = .ok (some (f, n)) ∧
          ∀ k < n, parse (b.take k) = .ok none) ∧
      ∃ pieces rest, Splits b pieces rest ∧
        (∀ pieces' rest', Splits b pieces' rest' → pieces' = pieces ∧ rest' = rest) ∧
        ∀ pieces' rest', Splits (b ++ c) pieces' rest' →
          ∃ more, pieces' = pieces ++ more ∧ Splits (rest ++ c) more rest' := by
  refine ⟨fun e h => parse_append_of_error h c, fun f n h => ?_, ?_⟩
  · exact ⟨(parse_length h).2.1, parse_append h c, fun k hk => parse_take h hk⟩
  · obtain ⟨pieces, rest, hsplits⟩ := exists_splits b
    refine ⟨pieces, rest, hsplits, fun _ _ => hsplits.unique, fun pieces' rest' h' => ?_⟩
    obtain ⟨more, left, hmore⟩ := exists_splits (rest ++ c)
    obtain ⟨rfl, rfl⟩ := (hsplits.append hmore).unique h'
    exact ⟨more, rfl, hmore⟩

/-- A ping in front of the beginning of a message, and a length that asks for a fifth byte. -/
theorem parse_selfDelimiting_ping :
    let ping : Bytes := [0xc0, 0]
    let endless : Bytes := [0x30, 0xff, 0xff, 0xff, 0xff]
    parse (ping ++ [0x30, 2]) = .ok (some (⟨0xc0, []⟩, 2)) ∧ parse [0xc0] = .ok none ∧
      parse (endless ++ [1]) = .error (.violation .lengthMalformed) := by
  intro ping endless
  obtain ⟨-, hframe, -⟩ := parse_selfDelimiting ping [0x30, 2]
  obtain ⟨herror, -, -⟩ := parse_selfDelimiting endless [1]
  obtain ⟨-, hstands, hmissing⟩ := hframe ⟨0xc0, []⟩ 2 (by decide)
  exact ⟨hstands, hmissing 1 (by decide), herror _ (by decide)⟩

end Frame
end Mqtt
