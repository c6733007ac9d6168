import Mathlib.Logic.Relation
import Mqtt.Proofs.Frame.Reading
import Mqtt.Proofs.RemainingLength.Spelling
/-!
# How much an assembler holds

Whatever a peer sends, an assembler does not hold much more than the largest frame that it takes. No
line of it says so: it follows from when a call reads on. That is only when the frame in front is
neither whole nor refused, and then either its length is not there yet, or all that is held is less
than the frame, which is within the limit (`length_lt_of_look`). What is held before a read is thus
bounded, and a read brings at most `readSize` bytes.

The bound is an invariant of the single steps of a call (`Step`, `Within.step`), so it holds in the
middle of a call as well, and of a call that has failed or been abandoned there. That calls are made
of such steps is `readFrame_steps`; the steps of any uses of an assembler follow (`play_steps`).
-/

namespace Mqtt

/-! ### Incomplete frames -/

namespace Frame

variable {limit n : Nat} {bs : Bytes} {fs : List Frame} {left : Bytes}

/-- Behind the first byte, a length that is incomplete has not all of its bytes. -/
theorem length_le_of_extent (h : extent bs = .ok none) :
    bs.length ≤ RemainingLength.maxWidth := by
  cases bs with
  | nil => exact Nat.zero_le _
  | cons header rest =>
    rw [extent] at h
    rcases hp : RemainingLength.parse rest with e | _ | p
    · rw [hp] at h
      cases h
    · exact (RemainingLength.parseDigits_eq_none_iff.1 hp).1
    · rw [hp] at h
      cases h

/-- A frame is whole once there are as many bytes as it takes. -/
theorem length_lt_of_parse (h : extent bs = .ok (some n)) (hparse : parse bs = .ok none) :
    bs.length < n := by
  cases bs with
  | nil => cases h
  | cons header rest =>
    rw [extent] at h
    rw [parse_cons] at hparse
    rcases hp : RemainingLength.parse rest with e | _ | ⟨size, used⟩
    · rw [hp] at h
      cases h
    · rw [hp] at h
      cases h
    · rw [hp] at h hparse
      cases h
      obtain ⟨hused, -, -⟩ := RemainingLength.parse_used hp
      simp only [Except.map, Option.bind, Except.ok.injEq, ite_eq_right_iff, reduceCtorEq,
        imp_false, List.length_drop] at hparse
      show rest.length + 1 < 1 + used + size
      omega

/-- **Where no frame is whole and none is refused, there are few bytes.** -/
theorem length_lt_of_look (h : look limit bs = .ok none) :
    bs.length ≤ max (limit - 1) RemainingLength.maxWidth := by
  rcases hext : extent bs with e | _ | n
  · rw [look, hext, parse_eq_error.2 hext] at h
    cases h
  · exact le_max_of_le_right (length_le_of_extent hext)
  · rw [look, hext] at h
    dsimp only at h
    split_ifs at h with hlimit
    · cases h
    · have := length_lt_of_parse hext h
      exact le_max_of_le_left (by omega)

/-- What lies in front of some bytes: the bytes of each of these frames, none above the limit. -/
structure Carries (limit : Nat) (pieces : List Bytes) (fs : List Frame) : Prop where
  holds : List.Forall₂ (fun piece f => parse piece = .ok (some (f, piece.length))) pieces fs
  within : ∀ piece ∈ pieces, piece.length ≤ limit

/-- The bytes that are split off are those of the frames. -/
theorem exists_carries (limit : Nat) (bs : Bytes) : ∃ pieces,
    Carries limit pieces (split limit bs).1 ∧ bs = pieces.flatten ++ (split limit bs).2 := by
  induction bs using split.induct limit with
  | case1 bs f n hlook ih =>
    obtain ⟨pieces, ⟨hholds, hwithin⟩, heq⟩ := ih
    obtain ⟨hparse, hlimit⟩ := look_eq_some.1 hlook
    obtain ⟨-, hn, -⟩ := parse_length hparse
    have hlength : (bs.take n).length = n := List.length_take_of_le hn
    rw [split_of_some hlook]
    refine ⟨bs.take n :: pieces, ⟨.cons ?_ hholds, List.forall_mem_cons.2 ⟨?_, hwithin⟩⟩, ?_⟩
    · rw [hlength]
      exact parse_take_self hparse
    · rw [hlength]
      exact hlimit
    · rw [List.flatten_cons, List.append_assoc, ← heq, List.take_append_drop]
  | case2 bs hlook =>
    rw [split_of_ne_some hlook]
    exact ⟨[], ⟨.nil, by simp⟩, rfl⟩

end Frame

namespace Assembler

open Reading

variable {limit : Nat} {a b : Assembler}

/-! ### The steps of a call -/

/-- What happens to an assembler at once: the last frame is retired, a read brings bytes, or the
frame in front is handed out. -/
inductive Step : Assembler → Assembler → Prop
  | retire {a : Assembler} : Step a a.retire
  | receive {a : Assembler} {bs : Bytes} :
    a.next = .ok none → bs ≠ [] → bs.length ≤ readSize → Step a (a.receive bs)
  | hand {a a' : Assembler} {f : Frame} : a.next = .ok (some (f, a')) → Step a a'

/-- What an assembler holds is bounded, and the last frame is part of it. -/
structure Within (limit : Nat) (a : Assembler) : Prop where
  limit_eq : a.limit = limit
  buffered : a.buffered ≤ max (limit - 1) RemainingLength.maxWidth + readSize
  pending : a.pending ≤ a.buffered

theorem within_empty (limit : Nat) : Within limit (empty limit) :=
  ⟨rfl, Nat.zero_le _, Nat.zero_le _⟩

theorem buffered_retire (a : Assembler) : a.retire.buffered = a.buffered - a.pending := by
  simp only [buffered, retire, ByteQueue.size_eq_length, ByteQueue.toList_drop, List.length_drop]

theorem buffered_receive (a : Assembler) (bs : Bytes) :
    (a.receive bs).buffered = a.buffered + bs.length := by
  simp only [buffered, receive, ByteQueue.size_eq_length, ByteQueue.toList_push, List.length_append]

/-- **No step takes an assembler beyond its bounds.** -/
theorem Within.step (h : Within limit a) (hstep : Step a b) : Within limit b := by
  cases hstep with
  | retire =>
    refine ⟨h.limit_eq, ?_, Nat.zero_le _⟩
    rw [buffered_retire]
    exact (Nat.sub_le _ _).trans h.buffered
  | @receive bs hnext _ hsize =>
    -- A read is made only where few bytes are held.
    have hfew := Frame.length_lt_of_look (look_of_next_eq_none hnext)
    rw [← ByteQueue.size_eq_length, h.limit_eq] at hfew
    have hpending := h.pending
    refine ⟨h.limit_eq, ?_, ?_⟩
    · rw [buffered_receive]
      exact Nat.add_le_add hfew hsize
    · rw [buffered_receive]
      exact Nat.le_add_right_of_le hpending
  | hand hnext =>
    obtain ⟨n, hparse, rfl⟩ := next_eq_some hnext
    refine ⟨h.limit_eq, h.buffered, ?_⟩
    show n ≤ a.buffer.size
    rw [ByteQueue.size_eq_length]
    exact (Frame.parse_length hparse).2.1

theorem Within.steps (h : Within limit a) (hsteps : Relation.ReflTransGen Step a b) :
    Within limit b := by
  induction hsteps with
  | refl => exact h
  | tail _ hstep ih => exact ih.step hstep

/-- Retiring takes away the bytes of the last frame, all of which are there. -/
theorem Within.buffered_retire (h : Within limit a) :
    a.retire.buffered + a.pending = a.buffered := by
  rw [Assembler.buffered_retire, Nat.sub_add_cancel h.pending]

/-- A call consists of steps, from the last frame retired on. -/
theorem go_steps (a : Assembler) (source : List Reading) :
    Relation.ReflTransGen Step a (readFrame.go a source).2.1 := by
  induction a, source using readFrame.go.induct with
  | case1 a source e h =>
    rw [readFrame.go.eq_def, h]
  | case2 a source f a' h =>
    rw [readFrame.go.eq_def, h]
    exact .single (.hand h)
  | case3 a h =>
    rw [readFrame.go, h]
  | case4 a h reason rest =>
    rw [readFrame.go, h]
  | case5 a h rest =>
    rw [readFrame.go, h]
  | case6 a h rest =>
    rw [readFrame.go, h]
    exact .refl
  | case7 a h bs rest hbs hdrop ih =>
    -- A reading that is taken in whole.
    rw [go_of_drop_eq_nil h hbs hdrop]
    exact .head (.receive h hbs (List.drop_eq_nil_iff.1 hdrop)) ih
  | case8 a h bs rest hbs b left hdrop ih =>
    -- A reading of which a part is left for the next step.
    rw [go_of_drop_eq_cons h hbs hdrop]
    refine .head (.receive h ?_ (List.length_take_le _ _)) ih
    rw [Ne, List.take_eq_nil_iff]
    exact not_or.2 ⟨by decide, hbs⟩

theorem readFrame_steps (a : Assembler) (source : List Reading) :
    Relation.ReflTransGen Step a (a.readFrame source).2.1 :=
  .head .retire (go_steps a.retire source)

/-- Any uses of an assembler consist of steps. -/
theorem play_steps (a : Assembler) (uses : List Use) (source : List Reading) :
    Relation.ReflTransGen Step a (a.play uses source).assembler := by
  induction uses generalizing a source with
  | nil => exact .refl
  | cons use uses ih =>
    cases use with
    | retire => exact .head .retire (ih a.retire source)
    | next => exact (readFrame_steps a source).trans (ih _ _)

/-- **An assembler stays small.** Take any uses of a new assembler on any source, whose reads may
bring any number of bytes, end the stream, fail, or have the call abandoned. At every moment, those
in the middle of a call included, what is held is bounded, and all bytes of the last frame are still
there, so that retiring takes away just these. The frames that are handed out come one behind the
other in the source, and none takes more bytes there than the limit. -/
theorem play_within (limit : Nat) (uses : List Use) (source : List Reading) :
    let p := (empty limit).play uses source
    Relation.ReflTransGen Step (empty limit) p.assembler ∧
    (∀ b, Relation.ReflTransGen Step (empty limit) b →
      b.buffered ≤ max (limit - 1) 4 + 4096 ∧ b.pending ≤ b.buffered ∧
        b.retire.buffered + b.pending = b.buffered) ∧
    ∃ pieces, Frame.Carries limit pieces p.frames ∧
      bytesOf source = pieces.flatten ++ p.assembler.rest ++ bytesOf p.source := by
  intro p
  refine ⟨play_steps _ uses source, fun b hsteps => ?_, ?_⟩
  · have hwithin := (within_empty limit).steps hsteps
    exact ⟨hwithin.buffered, hwithin.pending, hwithin.buffered_retire⟩
  · obtain ⟨seen, hsource, -, front, hseen, hsplit⟩ := (kept_empty limit).play uses source
    obtain ⟨pieces, hcarries, hfront⟩ := Frame.exists_carries limit front
    rw [List.nil_append] at hseen hsplit
    rw [hsplit] at hcarries hfront
    rw [List.append_nil] at hfront
    refine ⟨pieces, hcarries, ?_⟩
    rw [← hfront, hsource, hseen]

end Assembler
end Mqtt
