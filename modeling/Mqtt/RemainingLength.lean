import Mqtt.Bytes
import Mqtt.Fault
/-!
# Remaining lengths

The length of a frame's body is written in base 128, least significant digit first, and every byte
but the last has its high bit set. Four bytes are the most, so the largest length is `limit`.

A reader takes longer spellings of a small length too (`80 00` is 0); the writer always uses the
shortest one. Input that ends inside a length is incomplete, which is no fault.
-/

namespace Mqtt
namespace RemainingLength

/-- The largest length that four digits can hold. -/
def limit : Nat := 268435455

/-- The most bytes that a length may take. -/
def maxWidth : Nat := 4

/-- The digits of a number in base 128, least significant first, each but the last with its high
bit set. -/
def digits (n : Nat) : Bytes :=
  if n < 128 then [UInt8.ofNat n] else UInt8.ofNat (n % 128 + 128) :: digits (n / 128)

/-- How many bytes a length takes. -/
def width (n : Nat) : Nat :=
  if n < 128 then 1 else if n < 128 * 128 then 2 else if n < 128 * 128 * 128 then 3 else 4

/-- Reads digits until one without the high bit, at most `budget` of them. The answer is the number
and how many bytes it took, or nothing if the input ends first. -/
def parseDigits : Nat → Bytes → Except Fault (Option (Nat × Nat))
  | 0, _ => violate .lengthMalformed
  | _ + 1, [] => .ok none
  | budget + 1, b :: rest =>
    if b < 128 then .ok (some (b.toNat, 1))
    else
      match parseDigits budget rest with
      | .ok (some (n, used)) => .ok (some (b.toNat - 128 + 128 * n, used + 1))
      | .ok none => .ok none
      | .error e => .error e

/-- The length at the front of a byte string, with the number of bytes that it takes; nothing if
the byte string ends inside it. -/
def parse (bs : Bytes) : Except Fault (Option (Nat × Nat)) :=
  parseDigits maxWidth bs

end RemainingLength
end Mqtt
