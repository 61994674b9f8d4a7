import Patchboard.Decimal.Layout
import Patchboard.Json.Basic

/-!
# JSON text

A value is written compactly, on one line and without blanks, or indented by two blanks a level.
Empty lists and objects are written without a line break in both forms.
-/

namespace Patchboard.Json

/-- How numbers that are not whole are written: in full from `0.00001` up to sixteen digits, always
with a fraction, and otherwise with a signed exponent. -/
def numberLayout : Layout where
  positional := fun k => -5 ≤ k && k < 16
  unitFraction := true
  exponentPlus := true
  tie := .toEven
  infinity := "null"

/-- A hexadecimal number of four digits, for a character below the space. -/
def controlEscape (c : Char) : List Char :=
  ['\\', 'u', '0', '0'] ++ [Nat.digitChar (c.toNat / 16), Nat.digitChar (c.toNat % 16)]

/-- A character as it stands in a JSON string. Only the quote, the backslash and the characters
below the space are escaped. -/
def stringChar (c : Char) : List Char :=
  if c = '"' then ['\\', '"']
  else if c = '\\' then ['\\', '\\']
  else if c = '\n' then ['\\', 'n']
  else if c = '\r' then ['\\', 'r']
  else if c = '\t' then ['\\', 't']
  else if c = '\x08' then ['\\', 'b']
  else if c = '\x0c' then ['\\', 'f']
  else if c.toNat < 0x20 then controlEscape c
  else [c]

/-- A JSON string, quotes included. -/
def stringText (s : String) : String :=
  String.ofList ('"' :: s.toList.flatMap stringChar ++ ['"'])

/-- The text of a value that holds no other; other values are written by what they hold. -/
def scalarText : Json → String
  | .null => "null"
  | .bool true => "true"
  | .bool false => "false"
  | .int i => toString i
  | .real b _ => numberLayout.write b
  | .string s => stringText s
  | .array _ => "[]"
  | .object _ => "\x7b\x7d"

mutual

/-- The text of a value on one line, without blanks. -/
def compact : Json → String
  | .array items => "[" ++ String.intercalate "," (compactItems items) ++ "]"
  | .object members => "\x7b" ++ String.intercalate "," (compactMembers members) ++ "\x7d"
  | j => j.scalarText

/-- The compact text of every item. -/
def compactItems : List Json → List String
  | [] => []
  | item :: rest => item.compact :: compactItems rest

/-- The compact text of every member. -/
def compactMembers : List (String × Json) → List String
  | [] => []
  | (key, value) :: rest => (stringText key ++ ":" ++ value.compact) :: compactMembers rest

end

/-- Lines between two brackets, one level deeper than `margin`; the brackets alone if there are
no lines. -/
def block (opening closing margin : String) (lines : List String) : String :=
  if lines.isEmpty then opening ++ closing
  else
    let inner := margin ++ "  "
    opening ++ "\n" ++ inner ++ String.intercalate (",\n" ++ inner) lines
      ++ "\n" ++ margin ++ closing

mutual

/-- The text of a value with one item or member a line, behind the given margin. -/
def indentedAt (margin : String) : Json → String
  | .array items => block "[" "]" margin (indentedItems (margin ++ "  ") items)
  | .object members => block "\x7b" "\x7d" margin (indentedMembers (margin ++ "  ") members)
  | j => j.scalarText

/-- The indented text of every item. -/
def indentedItems (margin : String) : List Json → List String
  | [] => []
  | item :: rest => item.indentedAt margin :: indentedItems margin rest

/-- The indented text of every member. -/
def indentedMembers (margin : String) : List (String × Json) → List String
  | [] => []
  | (key, value) :: rest =>
    (stringText key ++ ": " ++ value.indentedAt margin) :: indentedMembers margin rest

end

/-- The text of a value with one item or member a line. -/
def indented (j : Json) : String :=
  j.indentedAt ""

end Patchboard.Json
