import Mqtt.Bytes
import Mqtt.Text.Extender
import Mqtt.Text.Hex
import Mqtt.Text.Ranges
import Mqtt.Text.Unprintable
/-!
# Quoted texts and byte strings

A text inside a message stands in double quotes, and whatever cannot be told apart by eye is
written as an escape: the quote, the backslash, the usual controls, and, by its code point, every
grapheme extender and every unprintable character. A byte string is quoted in the same way behind
a `b`; there the escapes hold two hexadecimal digits, and only visible ASCII stands for itself.
-/

namespace Mqtt.Text

/-- The escape that names a code point. -/
def codePointEscape (c : Char) : List Char :=
  '\\' :: 'u' :: '\x7b' :: (hex c.toNat ++ ['\x7d'])

/-- How one character is written between quotes. -/
def quotedChar (c : Char) : List Char :=
  if c = '\x00' then ['\\', '0']
  else if c = '\t' then ['\\', 't']
  else if c = '\r' then ['\\', 'r']
  else if c = '\n' then ['\\', 'n']
  else if c = '"' then ['\\', '"']
  else if c = '\\' then ['\\', '\\']
  else if inRanges extenders c.toNat || inRanges unprintable c.toNat then codePointEscape c
  else [c]

/-- A text in double quotes. -/
def quoted (s : String) : String :=
  String.ofList ('"' :: (s.toList.flatMap quotedChar ++ ['"']))

/-- How one byte is written between quotes. -/
def quotedByte (b : UInt8) : List Char :=
  if b = 0x0A then ['\\', 'n']
  else if b = 0x0D then ['\\', 'r']
  else if b = 0x09 then ['\\', 't']
  else if b = 0x5C then ['\\', '\\']
  else if b = 0x22 then ['\\', '"']
  else if b = 0 then ['\\', '0']
  else if 0x20 ≤ b ∧ b < 0x7F then [Char.ofNat b.toNat]
  else '\\' :: 'x' :: hexByte b

/-- A byte string in double quotes behind a `b`. -/
def quotedBytes (bs : Bytes) : String :=
  String.ofList ('b' :: '"' :: (bs.flatMap quotedByte ++ ['"']))

end Mqtt.Text
