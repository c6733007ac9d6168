import Mqtt.Proofs.Frame
/-!
# Splitting a byte string into frames

`Frame.split` takes frames off the front of a byte string as long as `Frame.parse` finds one there,
and leaves the rest. It also stops in front of a frame above its limit, which the length alone
decides: nothing of the body need be there.

A refusal stands whatever follows, and so does a frame that was found, so bytes that are added can
only add frames (`split_append`).
-/

namespace Mqtt
namespace Frame

variable {limit n : Nat} {bs : Bytes} {f : Frame} {e : Fault}

/-! ### The frame at the front -/

/-- How many bytes the frame at the front takes in all, once its length is there. -/
def extent : Bytes → Except Fault (Option Nat)
  | [] => .ok none
  | _ :: rest => (RemainingLength.parse rest).map (Option.map fun p => 1 + p.2 + p.1)

/-- The frame at the front as `parse` finds it, unless it is above the limit. -/
def look (limit : Nat) (bs : Bytes) : Except Fault (Option (Frame × Nat)) :=
  match extent bs with
  | .ok (some n) => if limit < n then violate (.packetTooLarge n limit) else parse bs
  | _ => parse bs

/-- The extent of a frame that is found is what the frame takes. -/
theorem extent_of_parse (h : parse bs = .ok (some (f, n))) : extent bs = .ok (some n) := by
  cases bs with
  | nil => cases h
  | cons header rest =>
    obtain ⟨size, used, hp, -, -, rfl⟩ := parse_cons_eq_some.1 h
    rw [extent, hp]
    rfl

/-- A malformed length is the only fault of `parse`. -/
theorem parse_eq_error : parse bs = .error e ↔ extent bs = .error e := by
  cases bs with
  | nil => simp [parse, extent]
  | cons header rest =>
    rw [parse_cons, extent]
    rcases RemainingLength.parse rest with e | _ | p <;> simp [Except.map]

theorem extent_append (h : extent bs = .ok (some n)) (more : Bytes) :
    extent (bs ++ more) = .ok (some n) := by
  cases bs with
  | nil => cases h
  | cons header rest =>
    rw [extent] at h
    rcases hp : RemainingLength.parse rest with e | _ | p
    · rw [hp] at h
      cases h
    · rw [hp] at h
      cases h
    · rw [hp] at h
      rw [List.cons_append, extent, RemainingLength.parse_append hp more]
      exact h

theorem extent_append_of_error (h : extent bs = .error e) (more : Bytes) :
    e = .violation .lengthMalformed ∧ extent (bs ++ more) = .error e := by
  cases bs with
  | nil => cases h
  | cons header rest =>
    rw [extent] at h
    rcases hp : RemainingLength.parse rest with e' | p
    · rw [hp] at h
      cases h
      obtain ⟨he, happend⟩ := RemainingLength.parse_append_of_error hp more
      rw [List.cons_append, extent, happend]
      exact ⟨he, rfl⟩
    · rw [hp] at h
      cases h

theorem look_eq_some : look limit bs = .ok (some (f, n)) ↔
    parse bs = .ok (some (f, n)) ∧ n ≤ limit := by
  constructor
  · intro h
    rcases hext : extent bs with e | _ | m
    · rw [look, hext] at h
      rw [parse_eq_error.2 hext] at h
      cases h
    · rw [look, hext] at h
      rw [extent_of_parse h] at hext
      cases hext
    · rw [look, hext] at h
      dsimp only at h
      split_ifs at h with hlimit
      · cases h
      · obtain rfl : n = m := by simpa [extent_of_parse h] using hext
        exact ⟨h, by omega⟩
  · rintro ⟨h, hlimit⟩
    rw [look, extent_of_parse h]
    dsimp only
    rw [if_neg (by omega), h]

/-- **When a frame is refused**: its length is malformed, or it would take more than the limit. -/
theorem look_eq_error : look limit bs = .error e ↔
    (extent bs = .error e ∧ e = .violation .lengthMalformed) ∨
      ∃ n, extent bs = .ok (some n) ∧ limit < n ∧ e = .violation (.packetTooLarge n limit) := by
  rw [look]
  rcases hext : extent bs with e' | _ | m
  · dsimp only
    rw [parse_eq_error, hext]
    constructor
    · intro h
      cases h
      exact .inl ⟨rfl, (extent_append_of_error hext []).1⟩
    · rintro (⟨h, -⟩ | ⟨n, h, -⟩)
      · exact h
      · cases h
  · simp [parse_eq_error, hext]
  · dsimp only
    split_ifs with hlimit
    · simp [violate, hlimit, eq_comm]
    · simp [parse_eq_error, hext, hlimit]

/-- A frame that is taken is taken whatever follows. -/
theorem look_append (h : look limit bs = .ok (some (f, n))) (more : Bytes) :
    look limit (bs ++ more) = .ok (some (f, n)) := by
  obtain ⟨hparse, hlimit⟩ := look_eq_some.1 h
  exact look_eq_some.2 ⟨parse_append hparse more, hlimit⟩

/-- A refusal stands whatever follows. -/
theorem look_append_of_error (h : look limit bs = .error e) (more : Bytes) :
    look limit (bs ++ more) = .error e := by
  rw [look_eq_error] at h ⊢
  rcases h with ⟨hext, he⟩ | ⟨n, hext, hlimit, he⟩
  · exact .inl ⟨(extent_append_of_error hext more).2, he⟩
  · exact .inr ⟨n, extent_append hext more, hlimit, he⟩

/-- A frame that is taken is taken from its own bytes. -/
theorem look_take (h : look limit bs = .ok (some (f, n))) :
    look limit (bs.take n) = .ok (some (f, n)) := by
  obtain ⟨hparse, hlimit⟩ := look_eq_some.1 h
  exact look_eq_some.2 ⟨parse_take_self hparse, hlimit⟩

/-! ### All frames at the front -/

/-- The frames at the front of a byte string, as far as they are whole and not refused, and the
bytes behind them. -/
def split (limit : Nat) (bs : Bytes) : List Frame × Bytes :=
  match _h : look limit bs with
  | .ok (some (f, n)) => (f :: (split limit (bs.drop n)).1, (split limit (bs.drop n)).2)
  | _ => ([], bs)
termination_by bs.length
decreasing_by
  all_goals
    obtain ⟨hparse, -⟩ := look_eq_some.1 ‹_›
    obtain ⟨hpos, hle, -⟩ := parse_length hparse
    rw [List.length_drop]
    omega

theorem split_of_some (h : look limit bs = .ok (some (f, n))) : split limit bs =
    (f :: (split limit (bs.drop n)).1, (split limit (bs.drop n)).2) := by
  rw [split]
  split
  · next h' =>
    rw [h] at h'
    cases h'
    rfl
  · next h' => exact absurd h (h' f n)

theorem split_of_ne_some (h : ∀ f n, look limit bs ≠ .ok (some (f, n))) :
    split limit bs = ([], bs) := by
  rw [split]
  split
  · next h' => exact absurd h' (h _ _)
  · rfl

theorem split_of_error (h : look limit bs = .error e) : split limit bs = ([], bs) :=
  split_of_ne_some fun _ _ h' => nomatch h.symm.trans h'

theorem split_of_none (h : look limit bs = .ok none) : split limit bs = ([], bs) :=
  split_of_ne_some fun _ _ h' => nomatch h.symm.trans h'

theorem split_nil : split limit [] = ([], []) := split_of_none rfl

/-- The bytes of one frame are that frame. -/
theorem split_take (h : look limit bs = .ok (some (f, n))) :
    split limit (bs.take n) = ([f], []) := by
  rw [split_of_some (look_take h), List.drop_take, Nat.sub_self, List.take_zero, split_nil]

/-- **Bytes that are added only add frames**: those that they complete together with what was
left. -/
theorem split_append (limit : Nat) (bs more : Bytes) :
    split limit (bs ++ more) = ((split limit bs).1 ++ (split limit ((split limit bs).2 ++ more)).1,
      (split limit ((split limit bs).2 ++ more)).2) := by
  induction bs using split.induct limit with
  | case1 bs g m hlook ih =>
    obtain ⟨-, hle, -⟩ := parse_length (look_eq_some.1 hlook).1
    rw [split_of_some (look_append hlook more), split_of_some hlook,
      List.drop_append_of_le_length hle, ih]
    rfl
  | case2 bs hlook => rw [split_of_ne_some hlook, List.nil_append]

end Frame
end Mqtt
