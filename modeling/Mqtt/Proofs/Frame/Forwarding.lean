import Mqtt.Proofs.Frame
/-!
# Frames that are passed on

A frame that has been read holds its first byte and its body, but not the spelling of its length:
whoever passes it on spells the length anew, in the shortest form. So first byte and body always
arrive as they were sent (`parse_spelling`), and the bytes in between do exactly if the sender used
the shortest form as well (`write_eq_take_iff`).
-/

namespace Mqtt
namespace Frame

variable {bs : Bytes} {f : Frame} {n : Nat}

/-- The bytes of a frame are as many as its length says. -/
theorem length_bytes (h : f.body.length ≤ RemainingLength.limit) :
    f.bytes.length = f.encodedSize := by
  rw [bytes, encodedSize_eq h, List.cons_append, List.length_cons, List.length_append,
    RemainingLength.length_digits h]
  omega

/-- The bytes in which a frame was found: its first byte, a spelling of its length, and its body. -/
theorem parse_spelling (h : parse bs = .ok (some (f, n))) :
    ∃ spelling budget, bs.take n = f.header :: spelling ++ f.body ∧
      RemainingLength.Spells budget spelling f.body.length spelling.length := by
  cases bs with
  | nil => cases h
  | cons header rest =>
    obtain ⟨size, used, hparse, hle, rfl, rfl⟩ := parse_cons_eq_some.1 h
    have hspells := RemainingLength.parseDigits_eq_some.1 hparse
    have hbody : ((rest.drop used).take size).length = size := by
      rw [List.length_take, List.length_drop]
      omega
    have hlength : (rest.take used).length = used := List.length_take_of_le (by omega)
    refine ⟨rest.take used, RemainingLength.maxWidth, ?_, ?_⟩
    · rw [Nat.add_assoc, Nat.add_comm, List.take_succ_cons, List.take_add]
      rfl
    · show RemainingLength.Spells _ _ ((rest.drop used).take size).length _
      rw [hbody, hlength]
      exact hspells.take (Nat.le_refl used)

/-- A frame takes the fewest bytes if its length is in the shortest form, and then they are the ones
that are written for it. -/
theorem take_eq_bytes_iff (h : parse bs = .ok (some (f, n))) :
    f.encodedSize ≤ n ∧ (bs.take n = f.bytes ↔ n = f.encodedSize) := by
  obtain ⟨-, hn, hlimit⟩ := parse_length h
  obtain ⟨spelling, budget, htake, hspells⟩ := parse_spelling h
  have hsize : n = 1 + spelling.length + f.body.length := by
    have := congrArg List.length htake
    rw [List.length_take_of_le hn, List.cons_append, List.length_cons, List.length_append] at this
    omega
  have hshort := hspells.length_digits_le
  rw [RemainingLength.length_digits hlimit] at hshort
  refine ⟨by rw [encodedSize_eq hlimit]; omega, ?_, ?_⟩
  · intro heq
    rw [← length_bytes hlimit, ← heq, List.length_take_of_le hn]
  · intro heq
    have hwidth : spelling.length = (RemainingLength.digits f.body.length).length := by
      rw [RemainingLength.length_digits hlimit]
      rw [encodedSize_eq hlimit] at heq
      omega
    have hdigits := hspells.take_eq_digits hwidth
    rw [List.take_length] at hdigits
    rw [htake, hdigits, bytes]

/-- **When a frame is passed on as it came.** A frame that has been found is written without a
fault, with the first byte and the body that it had. What is written is what was read exactly if the
length was spelt in the shortest form, and otherwise it is less. -/
theorem write_eq_take_iff (h : parse bs = .ok (some (f, n))) (w : Writer) :
    ∃ w' spelling, f.write.run w = .ok () w' ∧
      bs.take n = f.header :: spelling ++ f.body ∧
      w'.written = w.written ++ (f.header :: RemainingLength.digits f.body.length ++ f.body) ∧
      f.encodedSize ≤ n ∧ (w'.written = w.written ++ bs.take n ↔ n = f.encodedSize) := by
  obtain ⟨-, -, hlimit⟩ := parse_length h
  obtain ⟨w', hrun, hwritten⟩ := (write_writes f).appends hlimit w
  obtain ⟨spelling, -, htake, -⟩ := parse_spelling h
  obtain ⟨hle, hiff⟩ := take_eq_bytes_iff h
  refine ⟨w', spelling, hrun, htake, hwritten, hle, ?_⟩
  rw [hwritten, List.append_cancel_left_eq, eq_comm, hiff]

/-- A message of five bytes whose length is spelt with a digit too many comes to be a byte
shorter. -/
theorem write_ne_take_padded :
    let sent : Bytes := [0x30, 0x85, 0, 0, 1, 0x74, 0xaa, 0xbb]
    let f : Frame := ⟨0x30, [0, 1, 0x74, 0xaa, 0xbb]⟩
    parse sent = .ok (some (f, 8)) ∧
      ∃ w', f.write.run Writer.empty = .ok () w' ∧
        w'.written ≠ Writer.empty.written ++ sent.take 8 := by
  intro sent f
  have hparse : parse sent = .ok (some (f, 8)) := by decide
  obtain ⟨w', -, hrun, -, -, -, hiff⟩ := write_eq_take_iff hparse Writer.empty
  refine ⟨hparse, w', hrun, fun heq => ?_⟩
  have hsize : f.encodedSize = 7 := by decide
  have := hiff.1 heq
  omega

end Frame
end Mqtt
