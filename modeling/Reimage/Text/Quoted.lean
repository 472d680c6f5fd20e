/-
  Text quoted for a message: double quotes around it, a backslash before a quote and a backslash,
  short escapes for the common control characters, and `\u{…}` with the code point in hexadecimal
  for every other character without a shape of its own.
-/
import Reimage.Text.Hex
import Reimage.Text.Shapeless

namespace Reimage.Text

/-- The quoted form of one character. -/
def quotedChar (c : Char) : List Char :=
  if c = '\x00' then ['\\', '0']
  else if c = '\t' then ['\\', 't']
  else if c = '\r' then ['\\', 'r']
  else if c = '\n' then ['\\', 'n']
  else if c = '\\' then ['\\', '\\']
  else if c = '\x22' then ['\\', '\x22']
  else if isShapeless c then ['\\', 'u', '\x7b'] ++ hexDigits c.toNat ++ ['\x7d']
  else [c]

/-- A text in double quotes. -/
def quoted (s : String) : String :=
  String.ofList ('\x22' :: s.toList.flatMap quotedChar ++ ['\x22'])

end Reimage.Text
