import Mqtt.Frame.Assembler
import Mqtt.Proofs.Frame.Split
/-!
# Assembled frames

An assembler looks at the front of the bytes it holds, and nowhere else (`next_eq`), so a frame that
it hands out has been found where `Frame.parse` finds the same (`next_eq_some`). `Assembler.rest` is
what it has received and not handed out.
-/

namespace Mqtt
namespace Assembler

variable {a a' : Assembler} {f : Frame}

/-- The bytes received behind the last frame handed out. -/
def rest (a : Assembler) : Bytes := a.buffer.toList.drop a.pending

theorem rest_retire : a.retire.rest = a.rest := by
  simp [rest, retire]

theorem rest_of_retired (h : a.pending = 0) : a.rest = a.buffer.toList := by
  rw [rest, h, List.drop_zero]

theorem rest_receive (h : a.pending = 0) (bs : Bytes) : (a.receive bs).rest = a.rest ++ bs := by
  simp [rest, receive, h]

/-- The bounds of the frame in front, by its length alone. -/
theorem bounds_eq (a : Assembler) : a.bounds =
    match a.buffer.toList with
    | [] => .ok none
    | _ :: more => (RemainingLength.parse more).bind fun
      | none => .ok none
      | some (n, used) =>
        if a.limit < 1 + used + n then violate (.packetTooLarge (1 + used + n) a.limit)
        else if a.buffer.size < 1 + used + n then .ok none
        else .ok (some (1 + used, 1 + used + n)) := by
  rw [bounds, ByteQueue.take_eq]
  rcases a.buffer.toList with _ | ⟨header, more⟩
  · rfl
  · rw [Nat.add_comm 1, List.take_succ_cons]
    dsimp only
    rw [RemainingLength.parse_take_maxWidth]
    rfl

/-- **A look at the front of the bytes that are held.** -/
theorem next_eq (a : Assembler) : a.next = (Frame.look a.limit a.buffer.toList).map
    (Option.map fun p => (p.1, { a with pending := p.2 })) := by
  rw [next, bounds_eq, ByteQueue.size_eq_length]
  rcases hbytes : a.buffer.toList with _ | ⟨header, more⟩
  · rfl
  · rw [Frame.look, Frame.extent, Frame.parse_cons]
    dsimp only
    rcases hp : RemainingLength.parse more with e | _ | ⟨n, used⟩
    · rfl
    · rfl
    · obtain ⟨hused, -, -⟩ := RemainingLength.parse_used hp
      simp only [Except.bind, Except.map, Option.map, Option.bind, List.length_cons,
        List.length_drop]
      -- The limit is checked before it is known whether the body is there.
      by_cases hlimit : a.limit < 1 + used + n
      · rw [if_pos hlimit, if_pos hlimit]
        rfl
      · rw [if_neg hlimit, if_neg hlimit]
        by_cases hsize : more.length + 1 < 1 + used + n
        · rw [if_pos hsize, if_neg (by omega)]
          rfl
        · rw [if_neg hsize, if_pos (by omega)]
          -- The whole frame is there: its body is what is taken behind the header and the length.
          have htake : (header :: more).take (1 + used + n) = header :: more.take (used + n) := by
            rw [Nat.add_assoc, Nat.add_comm, List.take_succ_cons]
          have hdrop : (header :: more.take (used + n)).drop (1 + used) =
              (more.drop used).take n := by
            rw [Nat.add_comm, List.drop_succ_cons, List.drop_take, Nat.add_sub_cancel_left]
          simp only [bind, Except.bind, pure, Except.pure, ByteQueue.take_eq, hbytes, htake, hdrop]
          rfl

theorem look_of_next_eq_error {e : Fault} (h : a.next = .error e) :
    Frame.look a.limit a.buffer.toList = .error e := by
  rw [next_eq] at h
  rcases hlook : Frame.look a.limit a.buffer.toList with e' | p
  · rw [hlook] at h
    cases h
    rfl
  · rw [hlook] at h
    cases h

theorem look_of_next_eq_none (h : a.next = .ok none) :
    Frame.look a.limit a.buffer.toList = .ok none := by
  rw [next_eq] at h
  rcases hlook : Frame.look a.limit a.buffer.toList with e' | _ | p
  · rw [hlook] at h
    cases h
  · rfl
  · rw [hlook] at h
    cases h

theorem look_of_next_eq_some (h : a.next = .ok (some (f, a'))) :
    ∃ n, Frame.look a.limit a.buffer.toList = .ok (some (f, n)) ∧
      a' = { a with pending := n } := by
  rw [next_eq] at h
  rcases hlook : Frame.look a.limit a.buffer.toList with e' | _ | ⟨g, n⟩
  · rw [hlook] at h
    cases h
  · rw [hlook] at h
    cases h
  · rw [hlook] at h
    cases h
    exact ⟨n, rfl, rfl⟩

/-- **A frame that is handed out was in front.** -/
theorem next_eq_some (h : a.next = .ok (some (f, a'))) :
    ∃ n, Frame.parse a.buffer.toList = .ok (some (f, n)) ∧ a' = { a with pending := n } := by
  obtain ⟨n, hlook, ha'⟩ := look_of_next_eq_some h
  exact ⟨n, (Frame.look_eq_some.1 hlook).1, ha'⟩

end Assembler
end Mqtt
