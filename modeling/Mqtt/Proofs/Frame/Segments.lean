import Mqtt.Frame.View
import Mqtt.Proofs.Frame
/-!
# Frames in segments

Received bytes may lie in several segments, cut anywhere. `FrameView.parseSegments` looks only at
the bytes in front (`takeAcross_eq`) and then collects the body from the segments that it lies in
(`span_fst`), so it finds what `Frame.parse` finds in the segments put together.

`span` walks along the segments up to the first that holds a byte of the body. If the body ends
there as well it is not copied, and no other segment could hold all of it (`span_snd`), as long as
it has a byte at all.
-/

namespace Mqtt
namespace FrameView

variable {segments : List Bytes} {start size : Nat}

/-- The bytes from `start` up to `stop` lie in one of the segments. -/
def InOneSegment (segments : List Bytes) (start stop : Nat) : Prop :=
  ∃ before segment after, segments = before ++ segment :: after ∧
    before.flatten.length ≤ start ∧ stop ≤ before.flatten.length + segment.length

theorem takeAcross_eq (n : Nat) (segments : List Bytes) :
    takeAcross n segments = segments.flatten.take n := by
  induction segments generalizing n with
  | nil => rw [takeAcross, List.flatten_nil, List.take_nil]
  | cons s rest ih => rw [takeAcross, ih, List.flatten_cons, List.take_append]

/-- The span holds the bytes at its place. -/
theorem span_fst (h : start + size ≤ segments.flatten.length) :
    (span segments start size).1 = (segments.flatten.drop start).take size := by
  induction segments generalizing start with
  | nil => rw [span, List.flatten_nil, List.drop_nil, List.take_nil]
  | cons s rest ih =>
    rw [List.flatten_cons, List.length_append] at h
    rw [span, List.flatten_cons, List.drop_append]
    split_ifs with hbehind hinside
    · -- The segment ends in front of the span.
      rw [ih (by omega), List.drop_of_length_le hbehind, List.nil_append]
    · rw [List.take_append_of_le_length]
      rw [List.length_drop]
      omega
    · have hleft : start - s.length = 0 := by omega
      have hsize : size - (s.drop start).length = start + size - s.length := by
        rw [List.length_drop]
        omega
      have hall : (s.drop start).take size = s.drop start := by
        rw [List.take_of_length_le]
        rw [List.length_drop]
        omega
      rw [takeAcross_eq, hleft, List.drop_zero, List.take_append, hsize, hall]

/-- A span lies in the first segment, or behind it in one of the others. -/
theorem inOneSegment_cons {s : Bytes} {rest : List Bytes} {stop : Nat} :
    InOneSegment (s :: rest) start stop ↔
      stop ≤ s.length ∨
        s.length ≤ start ∧ InOneSegment rest (start - s.length) (stop - s.length) := by
  constructor
  · rintro ⟨_ | ⟨b, before⟩, segment, after, heq, hstart, hstop⟩
    · rw [List.nil_append, List.cons.injEq] at heq
      rw [← heq.1, List.flatten_nil, List.length_nil, Nat.zero_add] at hstop
      exact .inl hstop
    · rw [List.cons_append, List.cons.injEq] at heq
      rw [List.flatten_cons, ← heq.1, List.length_append] at hstart hstop
      exact .inr ⟨by omega, before, segment, after, heq.2, by omega, by omega⟩
  · rintro (hstop | ⟨hle, before, segment, after, rfl, hstart, hstop⟩)
    · exact ⟨[], s, rest, rfl, Nat.zero_le _, by simpa using hstop⟩
    · refine ⟨s :: before, segment, after, rfl, ?_, ?_⟩ <;>
        rw [List.flatten_cons, List.length_append] <;> omega

/-- A span with a byte is in place exactly if it lies in one segment. -/
theorem span_snd (hsize : 0 < size) (h : start + size ≤ segments.flatten.length) :
    (span segments start size).2 = true ↔ InOneSegment segments start (start + size) := by
  induction segments generalizing start with
  | nil =>
    rw [List.flatten_nil, List.length_nil] at h
    omega
  | cons s rest ih =>
    rw [List.flatten_cons, List.length_append] at h
    rw [span, inOneSegment_cons]
    split_ifs with hbehind hinside
    · have hstop : start + size - s.length = start - s.length + size := by omega
      rw [ih (by omega), hstop]
      constructor
      · exact fun hin => .inr ⟨hbehind, hin⟩
      · rintro (hstop | ⟨-, hin⟩)
        · omega
        · exact hin
    · exact iff_of_true rfl (.inl hinside)
    · -- The span begins in this segment and ends in another.
      refine iff_of_false (by simp) ?_
      rintro (hstop | ⟨hle, -⟩) <;> omega

/-- What is found is looked for in the segments put together, and only the body is collected from
them. -/
theorem parseSegments_eq (segments : List Bytes) :
    parseSegments segments =
      (Frame.parse segments.flatten).map (Option.map fun p =>
        (⟨p.1, p.1.body.isEmpty ||
          (span segments (p.2 - p.1.body.length) p.1.body.length).2⟩, p.2)) := by
  rw [parseSegments, takeAcross_eq]
  cases hbytes : segments.flatten with
  | nil => rfl
  | cons header rest =>
    rw [Nat.add_comm, List.take_succ_cons, Frame.parse_cons]
    dsimp only
    rw [RemainingLength.parse_take_maxWidth]
    rcases hp : RemainingLength.parse rest with e | _ | ⟨n, used⟩
    · rfl
    · rfl
    · obtain ⟨hused, -, -⟩ := RemainingLength.parse_used hp
      simp only [bind, Except.bind, Except.map, Option.bind, Option.map, pure, Except.pure,
        List.length_cons, List.length_drop]
      by_cases hwhole : rest.length + 1 < 1 + used + n
      · rw [if_pos hwhole, if_neg (by omega)]
      · have hlength : ((rest.drop used).take n).length = n := by
          rw [List.length_take, List.length_drop]
          omega
        -- The body is there, and collecting it from the segments gives what stands in them put
        -- together.
        have hbody : (span segments (1 + used) n).1 = (rest.drop used).take n := by
          rw [span_fst (by rw [hbytes, List.length_cons]; omega), hbytes, Nat.add_comm 1,
            List.drop_succ_cons]
        have hle : n ≤ rest.length - used := by omega
        rw [if_neg hwhole, if_pos hle]
        dsimp only
        rw [hlength, Nat.add_sub_cancel]
        -- An empty body is borrowed wherever the segments are cut.
        by_cases hn : n = 0
        · subst hn
          simp
        · rw [if_neg hn]
          have hne : ((rest.drop used).take n).isEmpty = false := by
            rw [List.isEmpty_eq_false_iff, ← List.length_pos_iff]
            omega
          rw [hbody, hne, Bool.false_or]

/-- **A frame is found in segments as it is found in the segments put together**, wherever they are
cut; and its body is borrowed exactly when it is empty or lies in one segment. -/
theorem parseSegments_eq_parse (segments : List Bytes) :
    (parseSegments segments).map (Option.map fun p => (p.1.frame, p.2)) =
        Frame.parse segments.flatten ∧
      ∀ v n, parseSegments segments = .ok (some (v, n)) →
        (v.borrowed = true ↔
          v.frame.body = [] ∨ InOneSegment segments (n - v.frame.body.length) n) := by
  rw [parseSegments_eq]
  rcases hparse : Frame.parse segments.flatten with e | _ | ⟨f, m⟩
  · exact ⟨rfl, fun v n h => nomatch h⟩
  · exact ⟨rfl, fun v n h => nomatch h⟩
  · refine ⟨rfl, fun v n h => ?_⟩
    cases h
    obtain ⟨-, hm, -⟩ := Frame.parse_length hparse
    have hbody := Frame.length_body_lt hparse
    dsimp only
    rw [Bool.or_eq_true, List.isEmpty_iff]
    by_cases hempty : f.body = []
    · simp [hempty]
    · have hsize : 0 < f.body.length := List.length_pos_iff.2 hempty
      rw [span_snd hsize (by omega), Nat.sub_add_cancel hbody.le]

/-- A body of two bytes, the cut and an empty segment between them, is copied. -/
theorem parseSegments_eq_parse_straddling :
    let segments : List Bytes := [[0x30], [2, 1], [], [2, 0xff]]
    parseSegments segments = .ok (some (⟨⟨0x30, [1, 2]⟩, false⟩, 4)) ∧
      Frame.parse segments.flatten = .ok (some (⟨0x30, [1, 2]⟩, 4)) ∧
      ¬InOneSegment segments 2 4 := by
  intro segments
  have h : parseSegments segments = .ok (some (⟨⟨0x30, [1, 2]⟩, false⟩, 4)) := by decide
  obtain ⟨hparse, hborrowed⟩ := parseSegments_eq_parse segments
  rw [h] at hparse
  exact ⟨h, hparse.symm, fun hin => Bool.false_ne_true ((hborrowed _ _ h).2 (.inr hin))⟩

end FrameView
end Mqtt
