/-
Texts as messages quote them.

Quotes and backslashes are escaped, four control characters have a short escape,
and whatever would not be seen on its own is written with its hexadecimal code.
-/
import GraphFetch.Text.EscapeTable
import GraphFetch.Text.Lowercase

namespace GraphFetch

namespace Text

/-- The escape with a hexadecimal code. -/
def codeEscape (c : Char) : List Char :=
  '\\' :: 'u' :: '\x7b' :: (Nat.toDigits 16 c.toNat ++ ['\x7d'])

/-- A character as it stands between the quotes of a message. -/
def escape (c : Char) : List Char :=
  if c.toNat = 0 then ['\\', '0']
  else if c = '\t' then ['\\', 't']
  else if c = '\r' then ['\\', 'r']
  else if c = '\n' then ['\\', 'n']
  else if c = '\\' then ['\\', '\\']
  else if c = '"' then ['\\', '"']
  else if inRanges hiddenRanges c.toNat then codeEscape c
  else [c]

/-- A text in quotes. -/
def quoted (s : String) : String :=
  String.ofList ('"' :: (s.toList.flatMap escape ++ ['"']))

/-- Quoted texts in brackets. -/
def quotedList (texts : List String) : String :=
  "[" ++ String.intercalate ", " (texts.map quoted) ++ "]"

end Text

end GraphFetch
