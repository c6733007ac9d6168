import Mathlib.Data.Nat.Bitwise
import Mathlib.Data.Nat.Digits.Lemmas
import Mqtt.Proofs.Field
import Mqtt.Proofs.RemainingLength
/-!
# The spellings of a remaining length

`parse` is a recursion that builds the number up from its last digit. What it reads can be said
without it. A `Whole` byte string has the high bit set on all of its bytes but the last, and its
`value` is the number whose digits in base 128 are the low seven bits of its bytes. The spellings
that are read are exactly the whole byte strings of at most four bytes in front of the input
(`parse_eq_some_iff`). As long as no byte lacks its high bit the length goes on
(`parseDigits_eq_none_iff`), and after four such bytes it is malformed (`parse_eq_error_iff`).

A reader that works in 32-bit numbers goes through the digits from the front instead, with a sum
and the weight of the next digit (`scan`). Before digit `i` the sum is below `128 ^ i` and the
weight is `128 ^ i`, and there are four digits at most, so no addition and no multiplication leaves
32 bits, and the answer is that of `parse` (`map_toNumbers_parseWords`).
-/

namespace Mqtt
namespace RemainingLength

/-! ### High bits and low bits -/

/-- Whether another digit has to follow a byte: its high bit is set. -/
def Continues (b : UInt8) : Prop := b &&& 0x80 ≠ 0

instance : DecidablePred Continues := fun b => inferInstanceAs (Decidable (b &&& 0x80 ≠ 0))

/-- The digit that a byte holds: its low seven bits. -/
def payload (b : UInt8) : Nat := (b &&& 0x7F).toNat

theorem payload_eq_mod (b : UInt8) : payload b = b.toNat % 128 := by
  rw [payload, UInt8.toNat_and]
  exact Nat.and_two_pow_sub_one_eq_mod b.toNat 7

theorem payload_lt (b : UInt8) : payload b < 128 := by
  rw [payload_eq_mod]
  exact Nat.mod_lt _ (by decide)

theorem continues_iff (b : UInt8) : Continues b ↔ ¬b < 128 := by
  have hmax := b.toNat_lt
  have hhigh : b.toNat / 2 ^ 7 % 2 = 1 ↔ ¬b.toNat < 128 := by omega
  rw [Continues, ne_eq, ← UInt8.toNat_inj, UInt8.toNat_and, UInt8.lt_iff_toNat_lt]
  show ¬b.toNat &&& 2 ^ 7 = 0 ↔ ¬b.toNat < 128
  rw [Nat.and_two_pow, Nat.testBit_eq_decide_div_mod_eq, ← hhigh]
  by_cases h : b.toNat / 2 ^ 7 % 2 = 1 <;> simp

theorem payload_of_lt {b : UInt8} (h : b < 128) : payload b = b.toNat := by
  have hlt : b.toNat < 128 := UInt8.lt_iff_toNat_lt.1 h
  rw [payload_eq_mod, Nat.mod_eq_of_lt hlt]

theorem payload_of_not_lt {b : UInt8} (h : ¬b < 128) : payload b = b.toNat - 128 := by
  have hmax := b.toNat_lt
  have hle : 128 ≤ b.toNat := Nat.not_lt.1 fun hlt => h (UInt8.lt_iff_toNat_lt.2 hlt)
  rw [payload_eq_mod]
  omega

/-! ### Whole spellings -/

/-- A byte string is one whole number: a digit follows each of its bytes but the last. -/
def Whole (ds : Bytes) : Prop :=
  ∃ front last, ds = front ++ [last] ∧ (∀ b ∈ front, Continues b) ∧ ¬Continues last

/-- What a byte string comes to as digits in base 128, least significant first. -/
def value (ds : Bytes) : Nat := Nat.ofDigits 128 (ds.map payload)

theorem value_cons (b : UInt8) (ds : Bytes) : value (b :: ds) = payload b + 128 * value ds :=
  Nat.ofDigits_cons ..

theorem value_singleton {b : UInt8} (h : b < 128) : value [b] = b.toNat := by
  rw [value_cons, payload_of_lt h]
  rfl

theorem whole_singleton {b : UInt8} (h : ¬Continues b) : Whole [b] :=
  ⟨[], b, rfl, by simp, h⟩

theorem Whole.cons {b : UInt8} {ds : Bytes} (hb : Continues b) (h : Whole ds) :
    Whole (b :: ds) := by
  obtain ⟨front, last, rfl, hfront, hlast⟩ := h
  exact ⟨b :: front, last, rfl, List.forall_mem_cons.2 ⟨hb, hfront⟩, hlast⟩

variable {budget n used : Nat} {bs : Bytes}

/-- What is read is a whole spelling at the front. -/
theorem Spells.exists_whole (h : Spells budget bs n used) :
    ∃ ds, ds <+: bs ∧ ds.length = used ∧ Whole ds ∧ value ds = n := by
  induction h with
  | @last budget b rest hb =>
    exact ⟨[b], ⟨rest, rfl⟩, rfl, whole_singleton fun hc => (continues_iff b).1 hc hb,
      value_singleton hb⟩
  | @more budget n used b rest hb _ ih =>
    obtain ⟨ds, hfront, rfl, hwhole, rfl⟩ := ih
    refine ⟨b :: ds, (List.prefix_cons_inj b).2 hfront, rfl,
      hwhole.cons ((continues_iff b).2 hb), ?_⟩
    rw [value_cons, payload_of_not_lt hb]

/-- A whole spelling is read, if it is within the budget. -/
theorem spells_of_whole {ds : Bytes} (h : Whole ds) (hbudget : ds.length ≤ budget) (rest : Bytes) :
    Spells budget (ds ++ rest) (value ds) ds.length := by
  obtain ⟨front, last, rfl, hfront, hlast⟩ := h
  induction front generalizing budget with
  | nil =>
    cases budget with
    | zero => simp at hbudget
    | succ budget =>
      have hlt : last < 128 := not_not.1 fun h => hlast ((continues_iff last).2 h)
      rw [List.nil_append, value_singleton hlt]
      exact .last hlt
  | cons b front ih =>
    cases budget with
    | zero => simp at hbudget
    | succ budget =>
      obtain ⟨hb, hfront⟩ := List.forall_mem_cons.1 hfront
      have hmore := (continues_iff b).1 hb
      rw [List.cons_append, value_cons, payload_of_not_lt hmore]
      exact .more hmore (ih (by simpa using hbudget) hfront)

theorem spells_iff :
    Spells budget bs n used ↔
      used ≤ budget ∧ ∃ ds, ds <+: bs ∧ ds.length = used ∧ Whole ds ∧ value ds = n := by
  constructor
  · exact fun h => ⟨h.bounds.2.2.1, h.exists_whole⟩
  · rintro ⟨hbudget, ds, ⟨rest, rfl⟩, rfl, hwhole, rfl⟩
    exact spells_of_whole hwhole hbudget rest

/-- **A length is read** from exactly the whole spellings of at most four bytes. -/
theorem parse_eq_some_iff :
    parse bs = .ok (some (n, used)) ↔
      used ≤ maxWidth ∧ ∃ ds, ds <+: bs ∧ ds.length = used ∧ Whole ds ∧ value ds = n :=
  parseDigits_eq_some.trans spells_iff

/-! ### Lengths that go on -/

/-- A length is incomplete as long as each byte asks for another and the budget is not used up. -/
theorem parseDigits_eq_none_iff :
    parseDigits budget bs = .ok none ↔ bs.length < budget ∧ ∀ b ∈ bs, Continues b := by
  induction budget generalizing bs with
  | zero => simp [parseDigits, violate]
  | succ budget ih =>
    cases bs with
    | nil => simp [parseDigits]
    | cons b rest =>
      rw [List.forall_mem_cons, List.length_cons, Nat.succ_lt_succ_iff, continues_iff]
      by_cases hb : b < 128
      · rw [parseDigits_last hb]
        simp [hb]
      · rw [parseDigits_more hb, and_iff_right hb, ← ih]
        rcases parseDigits budget rest with e | _ | p <;> simp [Except.map]

/-- A length is malformed if the budget is used up and the last byte still asks for another. -/
theorem parseDigits_eq_error_iff {e : Fault} :
    parseDigits budget bs = .error e ↔
      e = .violation .lengthMalformed ∧
        budget ≤ bs.length ∧ ∀ b ∈ bs.take budget, Continues b := by
  induction budget generalizing bs with
  | zero => simp [parseDigits, violate, eq_comm]
  | succ budget ih =>
    cases bs with
    | nil => simp [parseDigits]
    | cons b rest =>
      rw [List.take_succ_cons, List.forall_mem_cons, List.length_cons, Nat.succ_le_succ_iff,
        continues_iff]
      by_cases hb : b < 128
      · rw [parseDigits_last hb]
        simp [hb]
      · rw [parseDigits_more hb, and_iff_right hb, ← ih]
        rcases parseDigits budget rest with e' | _ | p <;> simp [Except.map]

/-! ### 32-bit numbers -/

/-- The sum of two 32-bit numbers, if it is one. -/
def add? (a b : UInt32) : Option UInt32 :=
  if a.toNat + b.toNat < UInt32.size then some (a + b) else none

/-- The product of two 32-bit numbers, if it is one. -/
def mul? (a b : UInt32) : Option UInt32 :=
  if a.toNat * b.toNat < UInt32.size then some (a * b) else none

theorem exists_add? {a b : UInt32} (h : a.toNat + b.toNat < UInt32.size) :
    ∃ c, add? a b = some c ∧ c.toNat = a.toNat + b.toNat :=
  ⟨a + b, if_pos h, by rw [UInt32.toNat_add, Nat.mod_eq_of_lt h]⟩

theorem exists_mul? {a b : UInt32} (h : a.toNat * b.toNat < UInt32.size) :
    ∃ c, mul? a b = some c ∧ c.toNat = a.toNat * b.toNat :=
  ⟨a * b, if_pos h, by rw [UInt32.toNat_mul, Nat.mod_eq_of_lt h]⟩

/-- Reads digits from the front in 32-bit numbers. Before digit `i`, `sum` is what the digits so
far come to and `weight` is what digit `i` counts for. Nothing if a number leaves 32 bits. -/
def scan (i : Nat) (sum weight : UInt32) : Bytes → Option (Except Fault (Option (UInt32 × Nat)))
  | [] => some (.ok none)
  | b :: rest => do
    let term ← mul? (b &&& 0x7F).toUInt32 weight
    let sum ← add? sum term
    if b &&& 0x80 = 0 then some (.ok (some (sum, i + 1)))
    else if i + 1 = maxWidth then some (violate .lengthMalformed)
    else
      let weight ← mul? weight 128
      scan (i + 1) sum weight rest

/-- The length at the front of a byte string, read in 32-bit numbers. -/
def parseWords (bs : Bytes) : Option (Except Fault (Option (UInt32 × Nat))) :=
  scan 0 0 1 (bs.take maxWidth)

/-- An answer without the bound on its numbers. -/
def toNumbers (r : Except Fault (Option (UInt32 × Nat))) : Except Fault (Option (Nat × Nat)) :=
  r.map (Option.map fun p => (p.1.toNat, p.2))

variable {i : Nat} {sum weight : UInt32}

/-- With a digit more, the sum stays below the weight of the next one, and within 32 bits. -/
theorem scan_cons (hi : i < maxWidth) (hsum : sum.toNat < 128 ^ i)
    (hweight : weight.toNat = 128 ^ i)
    (b : UInt8) :
    ∃ next : UInt32, next.toNat = sum.toNat + 128 ^ i * payload b ∧ next.toNat < 128 ^ (i + 1) ∧
      ∀ rest, scan i sum weight (b :: rest) =
        if b < 128 then some (.ok (some (next, i + 1)))
        else if i + 1 = maxWidth then some (violate .lengthMalformed)
        else (mul? weight 128).bind fun weight => scan (i + 1) next weight rest := by
  have hdigit : (b &&& 0x7F).toUInt32.toNat = payload b := UInt8.toNat_toUInt32 _
  -- The digit counts for `127 * 128 ^ i` at most.
  have hpayload := payload_lt b
  have hterm : payload b * 128 ^ i ≤ 127 * 128 ^ i := Nat.mul_le_mul_right _ (by omega)
  have hlt : sum.toNat + payload b * 128 ^ i < 128 ^ (i + 1) := by
    rw [pow_succ]
    omega
  have hpow : 128 ^ (i + 1) ≤ 128 ^ maxWidth := Nat.pow_le_pow_right (by decide) hi
  have hsize : 128 ^ maxWidth < UInt32.size := by decide
  obtain ⟨term, hmul, htermNat⟩ := exists_mul? (a := (b &&& 0x7F).toUInt32) (b := weight) (by
    rw [hdigit, hweight]
    omega)
  rw [hdigit, hweight] at htermNat
  obtain ⟨next, hadd, hnext⟩ := exists_add? (a := sum) (b := term) (by
    rw [htermNat]
    omega)
  rw [htermNat] at hnext
  refine ⟨next, by rw [hnext, Nat.mul_comm (payload b)], by rwa [hnext], fun rest => ?_⟩
  rw [scan, hmul]
  show (add? sum term).bind _ = _
  rw [hadd, Option.bind_some]
  by_cases hb : b < 128
  · have hstop : b &&& 0x80 = 0 := not_not.1 fun h => (continues_iff b).1 h hb
    rw [if_pos hstop, if_pos hb]
  · rw [if_neg ((continues_iff b).2 hb), if_neg hb]
    rfl

/-- The next weight is within 32 bits as long as there is a next digit. -/
theorem exists_weight (hi : i + 1 < maxWidth) (hweight : weight.toNat = 128 ^ i) :
    ∃ next, mul? weight 128 = some next ∧ next.toNat = 128 ^ (i + 1) := by
  have hpow : 128 ^ (i + 1) < 128 ^ maxWidth := Nat.pow_lt_pow_right (by decide) hi
  have hsize : 128 ^ maxWidth < UInt32.size := by decide
  obtain ⟨next, hmul, hnext⟩ := exists_mul? (a := weight) (b := 128) (by
    rw [hweight]
    show 128 ^ i * 128 < _
    rw [← pow_succ]
    omega)
  exact ⟨next, hmul, by rw [hnext, hweight, pow_succ]; rfl⟩

/-- Scanning goes on from what the digits so far come to. -/
theorem map_toNumbers_scan {budget : Nat} (hi : i + budget + 1 = maxWidth)
    (hsum : sum.toNat < 128 ^ i) (hweight : weight.toNat = 128 ^ i) (bs : Bytes) :
    (scan i sum weight (bs.take (budget + 1))).map toNumbers =
      some ((parseDigits (budget + 1) bs).map
        (Option.map fun p => (sum.toNat + 128 ^ i * p.1, i + p.2))) := by
  induction bs generalizing i sum weight budget with
  | nil => rfl
  | cons b rest ih =>
    obtain ⟨next, hnext, hlt, hscan⟩ := scan_cons (by omega) hsum hweight b
    rw [List.take_succ_cons, hscan]
    by_cases hb : b < 128
    · rw [if_pos hb, parseDigits_last hb, ← payload_of_lt hb, Option.map_some, toNumbers]
      simp only [Except.map, Option.map_some, hnext]
    · rw [if_neg hb, parseDigits_more hb]
      cases budget with
      | zero =>
        -- The last digit that there may be has its high bit set.
        rw [if_pos hi]
        rfl
      | succ budget =>
        -- Another digit may follow, so the weight is multiplied once more, and fits.
        obtain ⟨nextWeight, hmul, hnextWeight⟩ := exists_weight (by omega) hweight
        rw [if_neg (by omega), hmul, Option.bind_some, ih (by omega) hlt hnextWeight]
        rcases parseDigits (budget + 1) rest with e | _ | ⟨n, used⟩
        · rfl
        · rfl
        · have hvalue : next.toNat + 128 ^ (i + 1) * n =
              sum.toNat + 128 ^ i * (b.toNat - 128 + 128 * n) := by
            rw [hnext, payload_of_not_lt hb, pow_succ, Nat.mul_add, Nat.mul_assoc, Nat.add_assoc]
          simp only [Except.map, Option.map_some, hvalue, Nat.add_assoc, Nat.add_comm 1]

/-- **32 bits are enough.** Every number of a reading is within them, and the answer is the same. -/
theorem map_toNumbers_parseWords (bs : Bytes) :
    (parseWords bs).map toNumbers = some (parse bs) := by
  have h : (parseWords bs).map toNumbers =
      some ((parse bs).map (Option.map fun p => (0 + 128 ^ 0 * p.1, 0 + p.2))) :=
    map_toNumbers_scan rfl (by decide) (by decide) bs
  rw [h]
  rcases parse bs with e | _ | ⟨n, used⟩
  · rfl
  · rfl
  · simp [Except.map]

/-! ### Writing and reading -/

theorem run_remainingLength_of_le (h : n ≤ limit) (w : Writer) :
    (Encoder.remainingLength n).run w = .ok (width n) (w.put (digits n)) := by
  rw [Encoder.remainingLength, if_neg (Nat.not_lt.2 h), ← length_digits h]
  rfl

theorem run_remainingLength_of_lt (h : limit < n) (w : Writer) :
    (Encoder.remainingLength n).run w = .error (.violation (.lengthTooLarge n)) w := by
  rw [Encoder.remainingLength, if_pos h]
  rfl

theorem width_le_of_parse (h : parse bs = .ok (some (n, used))) : width n ≤ used := by
  rw [← length_digits (parse_used h).2.2]
  exact (parseDigits_eq_some.1 h).length_digits_le

theorem parse_eq_error_iff {e : Fault} :
    parse bs = .error e ↔
      e = .violation .lengthMalformed ∧
        ∃ ds, ds <+: bs ∧ ds.length = maxWidth ∧ ∀ b ∈ ds, Continues b := by
  refine parseDigits_eq_error_iff.trans (and_congr_right fun _ => ⟨?_, ?_⟩)
  · rintro ⟨hlength, hall⟩
    exact ⟨bs.take maxWidth, bs.take_prefix maxWidth, List.length_take_of_le hlength, hall⟩
  · rintro ⟨ds, ⟨rest, rfl⟩, hlength, hall⟩
    rw [← hlength, List.take_left, List.length_append]
    exact ⟨Nat.le_add_right _ _, hall⟩

/-- **Lengths are written and read exactly.** A length of at most 268435455 is appended to any
writer, in as many bytes as `width` says. Whatever follows, it is read back from them, and as long
as one of them is missing it is incomplete. A larger one is refused, and nothing is written. The
other way round, a number is read from any bytes if and only if, among the first four, all bytes up
to the one that ends it have their high bits set and that one has not; it is at most 268435455, and
not spelt in less than its width. A length is malformed if and only if the first four bytes have
their high bits set, and incomplete if and only if there are fewer bytes and all have. The numbers
that are added and multiplied on the way stay within 32 bits. -/
theorem parse_exact (n : Nat) (bs : Bytes) :
    (n ≤ 268435455 →
      (∀ w : Writer, ∃ w', (Encoder.remainingLength n).run w = .ok (width n) w' ∧
        w'.written = w.written ++ digits n) ∧
      (digits n).length = width n ∧
      (∀ rest, parse (digits n ++ rest) = .ok (some (n, width n))) ∧
      ∀ part, part <+: digits n → part ≠ digits n → parse part = .ok none) ∧
    (268435455 < n → ∀ w : Writer,
      (Encoder.remainingLength n).run w = .error (.violation (.lengthTooLarge n)) w) ∧
    (∀ v used, parse bs = .ok (some (v, used)) ↔
      used ≤ 4 ∧ ∃ ds, ds <+: bs ∧ ds.length = used ∧ Whole ds ∧ value ds = v) ∧
    (∀ v used, parse bs = .ok (some (v, used)) → v ≤ 268435455 ∧ width v ≤ used) ∧
    (∀ e, parse bs = .error e ↔ e = .violation .lengthMalformed ∧
      ∃ ds, ds <+: bs ∧ ds.length = 4 ∧ ∀ b ∈ ds, Continues b) ∧
    (parse bs = .ok none ↔ bs.length < 4 ∧ ∀ b ∈ bs, Continues b) ∧
    (parseWords bs).map toNumbers = some (parse bs) := by
  refine ⟨fun hn => ?_, fun hn => run_remainingLength_of_lt hn, fun v used => parse_eq_some_iff,
    fun v used h => ⟨(parse_used h).2.2, width_le_of_parse h⟩, fun e => parse_eq_error_iff,
    parseDigits_eq_none_iff, map_toNumbers_parseWords bs⟩
  have hread (rest : Bytes) : parse (digits n ++ rest) = .ok (some (n, width n)) := by
    rw [parse_digits_append hn, length_digits hn]
  refine ⟨fun w => ⟨_, run_remainingLength_of_le hn w, w.written_put _⟩, length_digits hn, hread,
    fun part hpart hne => ?_⟩
  have hwhole := hread []
  rw [List.append_nil] at hwhole
  -- A proper part of the digits is shorter than they are.
  have hlt : part.length < width n := by
    rw [← length_digits hn]
    exact Nat.lt_of_le_of_ne hpart.length_le fun heq => hne (hpart.eq_of_length heq)
  rw [List.prefix_iff_eq_take.1 hpart]
  exact parse_take hwhole hlt

/-- A spelling may be longer than it has to be. -/
example : parse [0x80, 0x80, 0x00, 0x07] = .ok (some (0, 3)) := rfl

end RemainingLength
end Mqtt
