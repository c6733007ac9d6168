/-!
# Hexadecimal text

Numbers and bytes in lower-case hexadecimal.
-/

namespace Mqtt.Text

/-- The lower-case hexadecimal digit of a number below sixteen. -/
def hexDigit (n : Nat) : Char :=
  if n < 10 then Char.ofNat (48 + n) else Char.ofNat (87 + n)

/-- A number in hexadecimal, without leading zeros. -/
def hex (n : Nat) : List Char :=
  go n []
where
  /-- Puts the digits of `n` in front of `acc`. -/
  go (n : Nat) (acc : List Char) : List Char :=
    if n < 16 then hexDigit n :: acc else go (n / 16) (hexDigit (n % 16) :: acc)

/-- A byte as two hexadecimal digits. -/
def hexByte (b : UInt8) : List Char :=
  [hexDigit (b.toNat / 16), hexDigit (b.toNat % 16)]

/-- A byte with the mark `0x` in front. -/
def markedByte (b : UInt8) : String :=
  String.ofList ('0' :: 'x' :: hexByte b)

end Mqtt.Text
