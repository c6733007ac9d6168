import Mqtt.RemainingLength
import Mqtt.Writer
/-!
# Fields

The body of a packet is a row of fields: single bytes, 16-bit numbers, and byte strings or texts
behind their two-byte length. An `Encoder` appends fields to a writer; what it wrote before a fault
stays written. A `Decoder` takes fields from the front of a body; a fault leaves the body where the
last complete step took it, and reading can go on from there.
-/

namespace Mqtt

/-- A step that appends to a writer, and keeps what it appended when it fails. -/
abbrev Encoder := EStateM Fault Writer

namespace Encoder

/-- Appends bytes as they are. -/
def bytes (bs : Bytes) : Encoder Unit := modify fun w => w.put bs

/-- Appends one byte. -/
def byte (b : UInt8) : Encoder Unit := bytes [b]

/-- Appends a 16-bit number. -/
def uint16 (n : UInt16) : Encoder Unit := bytes (Bytes.ofUInt16 n)

/-- Appends a byte string behind its length. -/
def binary (bs : Bytes) : Encoder Unit := do
  let n := bs.length
  if 65535 < n then throw (.violation (.fieldTooLong n))
  uint16 (UInt16.ofNat n)
  bytes bs

/-- Appends a text behind its length. -/
def text (s : String) : Encoder Unit := binary (Bytes.ofText s)

/-- Appends a remaining length, and tells how many bytes it took. -/
def remainingLength (n : Nat) : Encoder Nat := do
  if RemainingLength.limit < n then throw (.violation (.lengthTooLarge n))
  let ds := RemainingLength.digits n
  bytes ds
  return ds.length

end Encoder

/-- A step that takes something from the front of a body. -/
abbrev Decoder := EStateM Fault Bytes

namespace Decoder

/-- Stops with a violation. -/
def violated {α : Type} (v : Violation) : Decoder α := throw (.violation v)

/-- Takes `n` bytes. -/
def take (n : Nat) : Decoder Bytes := do
  let rest ← get
  if Bytes.hasAtLeast n rest then
    set (rest.drop n)
    return rest.take n
  else violated (.bodyTooShort n rest.length)

/-- Takes one byte. -/
def byte : Decoder UInt8 := do
  let bs ← take 1
  return bs.headD 0

/-- Takes a 16-bit number. -/
def uint16 : Decoder UInt16 := do
  match ← take 2 with
  | [hi, lo] => return Bytes.toUInt16 hi lo
  | _ => return 0

/-- Takes a byte string behind its length. -/
def binary : Decoder Bytes := do
  let n ← uint16
  take n.toNat

/-- Takes a text behind its length. -/
def text : Decoder String := do
  match Bytes.toText? (← binary) with
  | some s => return s
  | none => violated .invalidText

/-- Takes everything that is left. -/
def rest : Decoder Bytes := do
  let bs ← get
  set ([] : Bytes)
  return bs

/-- Takes items until the body is used up, at most `fuel` of them; `taken` holds the earlier ones,
latest first. -/
def untilEmpty {α : Type} (item : Decoder α) : Nat → List α → Decoder (List α)
  | 0, taken => return taken.reverse
  | fuel + 1, taken => do
    if (← get).isEmpty then return taken.reverse
    let a ← item
    untilEmpty item fuel (a :: taken)

/-- Takes items until the body is used up. Every item has to take at least one byte. -/
def all {α : Type} (item : Decoder α) : Decoder (List α) := do
  untilEmpty item (← get).length []

/-- What a decoder makes of a body, whatever it leaves of it. -/
def decode {α : Type} (d : Decoder α) (body : Bytes) : Except Fault α :=
  match d.run body with
  | .ok a _ => .ok a
  | .error e _ => .error e

end Decoder
end Mqtt
