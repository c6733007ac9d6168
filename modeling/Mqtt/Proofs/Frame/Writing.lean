import Mqtt.Proofs.Frame.Forwarding
/-!
# What is written for a frame

The size of a frame is worked out in three places: by the writer, which lays it out, by
`Frame.encodedSize`, which counts, and by the parser, which comes upon it. They agree because a
length has as many digits as `RemainingLength.width` says, and because no spelling of a length is
shorter than its digits (`encodedSize_le`).

`write_shortest` says all that a frame goes through when it is written: it is refused, with nothing
done to the writer, or it ends up behind what was there as the shortest bytes that hold it.
-/

namespace Mqtt
namespace Frame

variable {f : Frame} {w : Writer}

/-- A frame that is too long is refused before anything else is done. -/
theorem write_of_limit_lt (h : RemainingLength.limit < f.body.length) :
    f.write.run w = .error (.violation (.frameTooLarge f.body.length)) w := by
  simp only [write, if_pos h]
  rfl

/-- Any other frame ends up behind what was there. -/
theorem write_of_le_limit (h : f.body.length ≤ RemainingLength.limit) (w : Writer) :
    ∃ w', f.write.run w = .ok () w' ∧ w'.written = w.written ++ f.bytes :=
  (write_writes f).appends h w

/-- No bytes that hold a frame are fewer than those that are counted for it. -/
theorem encodedSize_le {bs : Bytes} (h : parse bs = .ok (some (f, bs.length))) :
    f.encodedSize ≤ bs.length :=
  (take_eq_bytes_iff h).1

/-- A frame is refused for its length, and for nothing else. -/
theorem write_fails_iff :
    (∃ e w', f.write.run w = .error e w') ↔ RemainingLength.limit < f.body.length := by
  refine ⟨fun ⟨e, w', h⟩ => Nat.lt_of_not_le fun hshort => ?_, fun h => ⟨_, _, write_of_limit_lt h⟩⟩
  obtain ⟨_, hrun, -⟩ := write_of_le_limit hshort w
  rw [hrun] at h
  cases h

/-- **Writing a frame.** A frame is refused exactly if its body is longer than a length can say, and
then the writer stays as it is. Otherwise the bytes that come behind those already there are as many
as were counted, read as this frame whatever comes behind them, and are the fewest that hold it. -/
theorem write_shortest (f : Frame) (w : Writer) :
    ((∃ e w', f.write.run w = .error e w') ↔ 268435455 < f.body.length) ∧
    (268435455 < f.body.length →
      f.write.run w = .error (.violation (.frameTooLarge f.body.length)) w) ∧
    (f.body.length ≤ 268435455 → ∃ w' bs, f.write.run w = .ok () w' ∧
      w'.written = w.written ++ bs ∧ bs.length = f.encodedSize ∧
      (∀ rest, parse (bs ++ rest) = .ok (some (f, bs.length))) ∧
      ∀ bs', parse bs' = .ok (some (f, bs'.length)) → bs.length ≤ bs'.length) := by
  refine ⟨write_fails_iff, write_of_limit_lt, fun hshort => ?_⟩
  obtain ⟨w', hrun, hwritten⟩ := write_of_le_limit hshort w
  have hlength : f.bytes.length = f.encodedSize := length_bytes hshort
  refine ⟨w', f.bytes, hrun, hwritten, hlength, parse_bytes_append hshort, fun bs' h => ?_⟩
  rw [hlength]
  exact encodedSize_le h

end Frame
end Mqtt
