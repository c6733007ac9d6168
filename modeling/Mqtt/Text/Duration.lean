/-!
# Durations

A span of time in seconds, with no more decimals than it needs: `3s`, `1.5s`, `0.25s`.
-/

namespace Mqtt.Text

/-- The decimals of `rest` thousandths, without trailing zeros. -/
def thousandths (rest : Nat) : String :=
  let digit (n : Nat) : Char := Char.ofNat (48 + n % 10)
  let digits := [digit (rest / 100), digit (rest / 10), digit rest]
  String.ofList (digits.reverse.dropWhile (· == '0')).reverse

/-- A whole number of milliseconds, in seconds. -/
def seconds (millis : Nat) : String :=
  if millis % 1000 = 0 then toString (millis / 1000) ++ "s"
  else toString (millis / 1000) ++ "." ++ thousandths (millis % 1000) ++ "s"

end Mqtt.Text
