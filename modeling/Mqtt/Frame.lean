import Mqtt.Field
/-!
# Frames

A frame is a first byte, the length of the body, and the body. The first byte holds the kind of the
packet and four flags; what the body means is not looked at here.

`Frame.parse` finds the frame at the front of a byte string and says how many bytes it takes. An
input that ends inside the frame is no fault: there is no frame yet.
-/

namespace Mqtt

/-- A frame. -/
structure Frame where
  header : UInt8
  body : Bytes
deriving DecidableEq, Repr, Inhabited

namespace Frame

/-- The four flags in the low half of the first byte. -/
def flags (f : Frame) : UInt8 := f.header &&& 0x0F

/-- The kind of packet that the frame carries. -/
def kind (f : Frame) : Except Fault PacketKind := PacketKind.ofHeader f.header

/-- How many bytes the frame takes when its length is written in the shortest form. The width is
looked up for the length as a 32-bit number. -/
def encodedSize (f : Frame) : Nat :=
  let n := f.body.length
  1 + RemainingLength.width (UInt32.ofNat n).toNat + n

/-- A length that can be written is a 32-bit number. -/
theorem encodedSize_eq {f : Frame} (h : f.body.length ≤ RemainingLength.limit) :
    f.encodedSize = 1 + RemainingLength.width f.body.length + f.body.length := by
  have hrange : f.body.length < UInt32.size := Nat.lt_of_le_of_lt h (by decide)
  rw [encodedSize, UInt32.toNat_ofNat_of_lt' hrange]

/-- The frame at the front of a byte string and the number of bytes that it takes, or nothing as
long as the byte string ends before the frame does. -/
def parse : Bytes → Except Fault (Option (Frame × Nat))
  | [] => .ok none
  | header :: rest => do
    match ← RemainingLength.parse rest with
    | none => return none
    | some (n, used) =>
      let behind := rest.drop used
      if Bytes.hasAtLeast n behind then
        return some (⟨header, behind.take n⟩, 1 + used + n)
      else return none

/-- How much of a body is copied at once. -/
def chunkSize : Nat := 4096

/-- Appends a byte string chunk by chunk. -/
def putChunks (bs : Bytes) (w : Writer) : Writer :=
  if _h : bs = [] then w
  else putChunks (bs.drop chunkSize) (w.put (bs.take chunkSize))
termination_by bs.length
decreasing_by
  have := List.length_pos_iff.2 ‹_›
  simp [chunkSize]
  omega

/-- Appends the frame to a writer. Nothing is written of a frame whose body is too long. -/
def write (f : Frame) : Encoder Unit := do
  let n := f.body.length
  if RemainingLength.limit < n then throw (.violation (.frameTooLarge n))
  Encoder.byte f.header
  discard <| Encoder.remainingLength n
  modify fun w => putChunks f.body w

end Frame
end Mqtt
