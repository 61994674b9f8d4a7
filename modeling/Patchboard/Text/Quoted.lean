import Patchboard.Text.Combining
import Patchboard.Text.Unprintable

/-!
# Quoted text

Text that a message or an outline shows is put between double quotes. The quote, the backslash
and the usual controls have short escapes. A character with no visible form of its own, and one
that would attach to the character before it, is written by its code point.
-/

namespace Patchboard.Text

/-- The escape of a character by its code point, in lower-case hexadecimal. -/
def codePoint (c : Char) : List Char :=
  ['\\', 'u', '\x7b'] ++ Nat.toDigits 16 c.toNat ++ ['\x7d']

/-- A character as it stands between quotes. The apostrophe needs no escape. -/
def quotedChar (c : Char) : List Char :=
  if c = '"' then ['\\', '"']
  else if c = '\\' then ['\\', '\\']
  else if c = '\n' then ['\\', 'n']
  else if c = '\r' then ['\\', 'r']
  else if c = '\t' then ['\\', 't']
  else if c = '\x00' then ['\\', '0']
  else if combining.contains c || unprintable.contains c then codePoint c
  else [c]

/-- The text between double quotes, escaped character by character. -/
def quoted (s : String) : String :=
  String.ofList ('"' :: s.toList.flatMap quotedChar ++ ['"'])

end Patchboard.Text
