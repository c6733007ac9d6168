/-!
# Byte strings

What travels on a connection is a list of bytes. This module fixes the type and the conversions
that the wire format needs: 16-bit numbers (high byte first), texts (UTF-8), and a length test
that looks no further than it has to.

Main statements: `toUInt16_ofUInt16` and `ofUInt16_toUInt16` (the two 16-bit conversions are
inverse to each other), `toText?_ofText` and `ofText_of_toText?` (a byte string is the UTF-8 form
of exactly the text that is read from it), `hasAtLeast_eq` (what the length test decides).
-/

namespace Mqtt

/-- A byte string: what a peer sends, or part of it, in order. -/
abbrev Bytes := List UInt8

namespace Bytes

/-! ### 16-bit numbers -/

/-- The two bytes of a 16-bit number, high byte first. -/
def ofUInt16 (n : UInt16) : Bytes :=
  [UInt8.ofNat (n.toNat / 256), UInt8.ofNat (n.toNat % 256)]

/-- The 16-bit number with the given high and low byte. -/
def toUInt16 (hi lo : UInt8) : UInt16 :=
  UInt16.ofNat (256 * hi.toNat + lo.toNat)

@[simp] theorem length_ofUInt16 (n : UInt16) : (ofUInt16 n).length = 2 := rfl

theorem toUInt16_ofUInt16 (n : UInt16) :
    toUInt16 (UInt8.ofNat (n.toNat / 256)) (UInt8.ofNat (n.toNat % 256)) = n := by
  have h := n.toNat_lt
  apply UInt16.toNat_inj.1
  simp only [toUInt16, UInt16.toNat_ofNat', UInt8.toNat_ofNat']
  omega

theorem ofUInt16_toUInt16 (hi lo : UInt8) : ofUInt16 (toUInt16 hi lo) = [hi, lo] := by
  have h₁ := hi.toNat_lt
  have h₂ := lo.toNat_lt
  have h : (toUInt16 hi lo).toNat = 256 * hi.toNat + lo.toNat := by
    simp only [toUInt16, UInt16.toNat_ofNat']
    omega
  simp only [ofUInt16, h, List.cons.injEq, and_true, ← UInt8.toNat_inj, UInt8.toNat_ofNat']
  omega

/-! ### Texts -/

/-- The UTF-8 form of a text. -/
def ofText (s : String) : Bytes :=
  s.toByteArray.data.toList

/-- The text that a byte string is the UTF-8 form of, if it is the form of any. -/
def toText? (bs : Bytes) : Option String :=
  String.fromUTF8? ⟨bs.toArray⟩

@[simp] theorem length_ofText (s : String) : (ofText s).length = s.utf8ByteSize := rfl

@[simp] theorem toText?_ofText (s : String) : toText? (ofText s) = some s := by
  have h : (⟨(ofText s).toArray⟩ : ByteArray) = s.toByteArray := by simp [ofText]
  rw [toText?, h]
  exact dif_pos s.isValidUTF8

theorem ofText_of_toText? {bs : Bytes} {s : String} (h : toText? bs = some s) :
    ofText s = bs := by
  simp only [toText?, String.fromUTF8?] at h
  split at h
  · cases h
    rfl
  · cases h

/-! ### Lengths -/

/-- Whether a byte string has at least the given length. Looks at no more bytes than that. -/
def hasAtLeast : Nat → Bytes → Bool
  | 0, _ => true
  | _ + 1, [] => false
  | n + 1, _ :: bs => hasAtLeast n bs

theorem hasAtLeast_eq (n : Nat) (bs : Bytes) : hasAtLeast n bs = decide (n ≤ bs.length) := by
  induction n generalizing bs with
  | zero => simp [hasAtLeast]
  | succ n ih => cases bs <;> simp [hasAtLeast, ih]

end Bytes
end Mqtt
