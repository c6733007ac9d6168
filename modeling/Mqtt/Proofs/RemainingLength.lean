import Mathlib.Tactic.Ring
import Mathlib.Tactic.Linarith
import Mqtt.RemainingLength
/-!
# Reading back a remaining length

`parse` undoes `digits`, whatever follows (`parse_digits_append`). Of any spelling that it reads,
what follows does not matter (`parse_append`), and as long as a digit is missing it finds nothing
(`parse_take`).
-/

namespace Mqtt
namespace RemainingLength

/-! ### The digits -/

theorem digits_of_lt {n : Nat} (h : n < 128) : digits n = [UInt8.ofNat n] := by
  rw [digits, if_pos h]

theorem digits_of_le {n : Nat} (h : 128 ≤ n) :
    digits n = UInt8.ofNat (n % 128 + 128) :: digits (n / 128) := by
  rw [digits, if_neg (by omega)]

theorem digits_ne_nil (n : Nat) : digits n ≠ [] := by
  unfold digits
  split <;> simp

/-- A number below `128^k` has at most `k` digits. -/
theorem length_digits_le {k n : Nat} (hk : 0 < k) (h : n < 128 ^ k) : (digits n).length ≤ k := by
  induction k generalizing n with
  | zero => omega
  | succ k ih =>
    by_cases hn : n < 128
    · rw [digits_of_lt hn]
      simp
    · rw [digits_of_le (by omega), List.length_cons]
      have hk0 : 0 < k := by
        by_contra h0
        obtain rfl : k = 0 := by omega
        omega
      have hd : n / 128 < 128 ^ k := Nat.div_lt_of_lt_mul (by rw [pow_succ] at h; omega)
      have := ih hk0 hd
      omega

theorem length_digits_le_maxWidth {n : Nat} (h : n ≤ limit) : (digits n).length ≤ maxWidth :=
  length_digits_le (by decide) (by simp only [limit, maxWidth] at *; omega)

/-- The width is the number of digits. -/
theorem length_digits {n : Nat} (h : n ≤ limit) : (digits n).length = width n := by
  unfold limit at h
  unfold width
  split_ifs with h1 h2 h3
  · rw [digits_of_lt h1]; rfl
  · rw [digits_of_le (by omega), digits_of_lt (by omega)]; rfl
  · rw [digits_of_le (by omega), digits_of_le (by omega), digits_of_lt (by omega)]; rfl
  · rw [digits_of_le (by omega), digits_of_le (by omega), digits_of_le (by omega),
      digits_of_lt (by omega)]
    rfl

/-! ### Reading digits -/

theorem parseDigits_last {budget : Nat} {b : UInt8} (h : b < 128) (rest : Bytes) :
    parseDigits (budget + 1) (b :: rest) = .ok (some (b.toNat, 1)) := by
  rw [parseDigits, if_pos h]

/-- A digit with its high bit set counts on from what the digits behind it come to. -/
theorem parseDigits_more {budget : Nat} {b : UInt8} (h : ¬b < 128) (rest : Bytes) :
    parseDigits (budget + 1) (b :: rest) =
      (parseDigits budget rest).map
        (Option.map fun p => (b.toNat - 128 + 128 * p.1, p.2 + 1)) := by
  rw [parseDigits, if_neg h]
  rcases parseDigits budget rest with e | _ | ⟨n, used⟩ <;> rfl

theorem ofNat_lt {n : Nat} (h : n < 128) : UInt8.ofNat n < 128 := by
  rw [UInt8.lt_iff_toNat_lt, UInt8.toNat_ofNat']
  show n % 256 < 128
  omega

theorem not_ofNat_add_lt (n : Nat) : ¬UInt8.ofNat (n % 128 + 128) < 128 := by
  rw [UInt8.lt_iff_toNat_lt, UInt8.toNat_ofNat']
  show ¬(n % 128 + 128) % 256 < 128
  omega

theorem toNat_ofNat_add (n : Nat) : (UInt8.ofNat (n % 128 + 128)).toNat = n % 128 + 128 := by
  rw [UInt8.toNat_ofNat']
  omega

theorem parseDigits_digits_append {budget n : Nat} (h : (digits n).length ≤ budget) (rest : Bytes) :
    parseDigits budget (digits n ++ rest) = .ok (some (n, (digits n).length)) := by
  induction budget generalizing n with
  | zero => exact absurd (List.length_eq_zero_iff.1 (by omega)) (digits_ne_nil n)
  | succ budget ih =>
    by_cases hn : n < 128
    · rw [digits_of_lt hn, List.cons_append, parseDigits_last (ofNat_lt hn),
        UInt8.toNat_ofNat', Nat.mod_eq_of_lt (by omega)]
      rfl
    · rw [digits_of_le (by omega)] at h ⊢
      rw [List.length_cons] at h
      rw [List.cons_append, parseDigits_more (not_ofNat_add_lt n), ih (by omega),
        toNat_ofNat_add]
      simp only [Except.map, Option.map, List.length_cons]
      -- The digit without its high bit, and what the digits behind it come to.
      have : n % 128 + 128 - 128 + 128 * (n / 128) = n := by omega
      rw [this]

/-- **A length is read back**, whatever follows it. -/
theorem parse_digits_append {n : Nat} (h : n ≤ limit) (rest : Bytes) :
    parse (digits n ++ rest) = .ok (some (n, (digits n).length)) :=
  parseDigits_digits_append (length_digits_le_maxWidth h) rest

/-! ### What a reading depends on -/

/-- Digits at the head of some bytes spell this number, and they are so many. The budget says how
many there may be. -/
inductive Spells : Nat → Bytes → Nat → Nat → Prop
  | last {budget : Nat} {b : UInt8} {rest : Bytes} : b < 128 →
    Spells (budget + 1) (b :: rest) b.toNat 1
  | more {budget n used : Nat} {b : UInt8} {rest : Bytes} : ¬b < 128 → Spells budget rest n used →
    Spells (budget + 1) (b :: rest) (b.toNat - 128 + 128 * n) (used + 1)

theorem parseDigits_eq_some {budget : Nat} {bs : Bytes} {n used : Nat} :
    parseDigits budget bs = .ok (some (n, used)) ↔ Spells budget bs n used := by
  constructor
  · intro h
    induction budget generalizing bs n used with
    | zero => simp [parseDigits, violate] at h
    | succ budget ih =>
      cases bs with
      | nil => simp [parseDigits] at h
      | cons b rest =>
        -- The digit is the last one, or the rest is read with one digit less to spend.
        by_cases hb : b < 128
        · rw [parseDigits_last hb] at h
          cases h
          exact .last hb
        · rw [parseDigits_more hb] at h
          rcases hp : parseDigits budget rest with e | _ | ⟨m, u⟩
          · rw [hp] at h
            cases h
          · rw [hp] at h
            cases h
          · rw [hp] at h
            cases h
            exact .more hb (ih hp)
  · intro h
    induction h with
    | last hb => exact parseDigits_last hb _
    | more hb _ ih =>
      rw [parseDigits_more hb, ih]
      rfl

variable {budget n used k : Nat} {bs : Bytes}

theorem Spells.bounds (h : Spells budget bs n used) :
    0 < used ∧ used ≤ bs.length ∧ used ≤ budget ∧ n < 128 ^ used := by
  induction h with
  | @last budget b rest hb =>
    rw [UInt8.lt_iff_toNat_lt] at hb
    exact ⟨by omega, by simp, by omega, by simpa using hb⟩
  | @more budget n used b rest hb _ ih =>
    obtain ⟨hpos, hlen, hbudget, hlt⟩ := ih
    -- `b - 128 < 128` and `n < 128 ^ used`.
    have hbyte := b.toNat_lt
    refine ⟨by omega, by rw [List.length_cons]; omega, by omega, ?_⟩
    rw [pow_succ]
    omega

/-- What follows the digits does not matter. -/
theorem Spells.append (h : Spells budget bs n used) (more : Bytes) :
    Spells budget (bs ++ more) n used := by
  induction h with
  | last hb => exact .last hb
  | more hb _ ih => exact .more hb ih

/-- A spelling is read from its own digits. -/
theorem Spells.take (h : Spells budget bs n used) (hk : used ≤ k) :
    Spells budget (bs.take k) n used := by
  induction h generalizing k with
  | last hb =>
    obtain ⟨k, rfl⟩ := Nat.exists_eq_succ_of_ne_zero (show k ≠ 0 by omega)
    exact .last hb
  | more hb _ ih =>
    obtain ⟨k, rfl⟩ := Nat.exists_eq_succ_of_ne_zero (show k ≠ 0 by omega)
    exact .more hb (ih (by omega))

/-- A spelling that lacks a digit is incomplete. -/
theorem Spells.parseDigits_take (h : Spells budget bs n used) (hk : k < used) :
    parseDigits budget (bs.take k) = .ok none := by
  induction h generalizing k with
  | last _ =>
    obtain rfl : k = 0 := by omega
    rfl
  | more hb _ ih =>
    cases k with
    | zero => rfl
    | succ k =>
      rw [List.take_succ_cons, parseDigits_more hb, ih (by omega)]
      rfl

/-- No spelling of a number is shorter than its digits. -/
theorem Spells.length_digits_le (h : Spells budget bs n used) : (digits n).length ≤ used := by
  obtain ⟨hpos, -, -, hlt⟩ := h.bounds
  exact RemainingLength.length_digits_le hpos hlt

/-- A spelling as short as the digits is the digits. -/
theorem Spells.take_eq_digits (h : Spells budget bs n used) (hused : used = (digits n).length) :
    bs.take used = digits n := by
  induction h with
  | @last budget b rest hb =>
    have hlt : b.toNat < 128 := UInt8.lt_iff_toNat_lt.1 hb
    rw [digits_of_lt hlt, UInt8.ofNat_toNat]
    rfl
  | @more budget n used b rest hb h ih =>
    have hpos := h.bounds.1
    have hbyte : 128 ≤ b.toNat := Nat.not_lt.1 fun hlt => hb (UInt8.lt_iff_toNat_lt.2 hlt)
    have hmax := b.toNat_lt
    by_cases hn : b.toNat - 128 + 128 * n < 128
    · -- One digit would do, and the spelling has two at least.
      rw [digits_of_lt hn, List.length_singleton] at hused
      omega
    · have hlow : (b.toNat - 128 + 128 * n) % 128 + 128 = b.toNat := by omega
      have hhigh : (b.toNat - 128 + 128 * n) / 128 = n := by omega
      rw [digits_of_le (by omega), hlow, hhigh, UInt8.ofNat_toNat] at hused ⊢
      rw [List.length_cons, Nat.add_right_cancel_iff] at hused
      rw [List.take_succ_cons, ih hused]

/-- A length that can be read takes at most four bytes and is at most `limit`. -/
theorem parse_used (h : parse bs = .ok (some (n, used))) :
    used ≤ bs.length ∧ used ≤ maxWidth ∧ n ≤ limit := by
  obtain ⟨-, hlen, hbudget, hlt⟩ := (parseDigits_eq_some.1 h).bounds
  refine ⟨hlen, hbudget, ?_⟩
  have hpow : 128 ^ used ≤ 128 ^ maxWidth := Nat.pow_le_pow_right (by decide) hbudget
  simp only [maxWidth, limit] at hpow ⊢
  omega

/-- As many digits as there may be decide. -/
theorem parseDigits_take_budget (budget : Nat) (bs : Bytes) :
    parseDigits budget (bs.take budget) = parseDigits budget bs := by
  induction budget generalizing bs with
  | zero => rfl
  | succ budget ih =>
    cases bs with
    | nil => rfl
    | cons b rest =>
      rw [List.take_succ_cons]
      by_cases hb : b < 128
      · rw [parseDigits_last hb, parseDigits_last hb]
      · rw [parseDigits_more hb, parseDigits_more hb, ih]

theorem parse_take_maxWidth (bs : Bytes) : parse (bs.take maxWidth) = parse bs :=
  parseDigits_take_budget maxWidth bs

/-- Digits that are malformed remain so, and malformed is all that they can be. -/
theorem parseDigits_append_of_error {e : Fault} (h : parseDigits budget bs = .error e)
    (more : Bytes) :
    e = .violation .lengthMalformed ∧ parseDigits budget (bs ++ more) = .error e := by
  induction budget generalizing bs with
  | zero =>
    rw [parseDigits] at h
    cases h
    exact ⟨rfl, rfl⟩
  | succ budget ih =>
    cases bs with
    | nil => cases h
    | cons b rest =>
      by_cases hb : b < 128
      · rw [parseDigits_last hb] at h
        cases h
      · rw [parseDigits_more hb] at h
        -- Only running out of digits is malformed, and that comes from further on.
        rcases hp : parseDigits budget rest with e' | _ | p
        · rw [hp] at h
          cases h
          obtain ⟨he, happend⟩ := ih hp
          rw [List.cons_append, parseDigits_more hb, happend]
          exact ⟨he, rfl⟩
        · rw [hp] at h
          cases h
        · rw [hp] at h
          cases h

theorem parse_append_of_error {e : Fault} (h : parse bs = .error e) (more : Bytes) :
    e = .violation .lengthMalformed ∧ parse (bs ++ more) = .error e :=
  parseDigits_append_of_error h more

theorem parse_append (h : parse bs = .ok (some (n, used))) (more : Bytes) :
    parse (bs ++ more) = .ok (some (n, used)) :=
  parseDigits_eq_some.2 ((parseDigits_eq_some.1 h).append more)

theorem parse_take_of_le (h : parse bs = .ok (some (n, used))) (hk : used ≤ k) :
    parse (bs.take k) = .ok (some (n, used)) :=
  parseDigits_eq_some.2 ((parseDigits_eq_some.1 h).take hk)

theorem parse_take (h : parse bs = .ok (some (n, used))) (hk : k < used) :
    parse (bs.take k) = .ok none :=
  (parseDigits_eq_some.1 h).parseDigits_take hk

end RemainingLength
end Mqtt
