/-
JSON text.

The compact text has no spaces and escapes quotes, backslashes and the characters
below U+0020, nothing else.  It is what the cache stores, what keys are hashed from
and what join keys are compared by.  The indented text is for people.
-/
import GraphFetch.Json.Basic

namespace GraphFetch

namespace Json

/-! ### Strings -/

/-- The escape of a character below U+0020 that has no short form. -/
def controlEscape (c : Char) : List Char :=
  ['\\', 'u', '0', '0', Nat.digitChar (c.toNat / 16), Nat.digitChar (c.toNat % 16)]

/-- A character as it stands between quotes. -/
def escape (c : Char) : List Char :=
  if c = '"' then ['\\', '"']
  else if c = '\\' then ['\\', '\\']
  else if c = '\n' then ['\\', 'n']
  else if c = '\r' then ['\\', 'r']
  else if c = '\t' then ['\\', 't']
  else if c.toNat = 8 then ['\\', 'b']
  else if c.toNat = 12 then ['\\', 'f']
  else if c.toNat < 32 then controlEscape c
  else [c]

/-- A string in quotes. -/
def quoted (s : String) : List Char := '"' :: (s.toList.flatMap escape ++ ['"'])

/-! ### Compact text -/

mutual

/-- The compact text of a value. -/
def chars : Json → List Char
  | null => ['n', 'u', 'l', 'l']
  | bool true => ['t', 'r', 'u', 'e']
  | bool false => ['f', 'a', 'l', 's', 'e']
  | num n => n.chars
  | str s => quoted s
  | arr [] => ['[', ']']
  | arr (x :: xs) => '[' :: (chars x ++ moreItems xs)
  | obj [] => ['\x7b', '\x7d']
  | obj ((name, value) :: rest) =>
    '\x7b' :: (quoted name ++ ':' :: (chars value ++ moreMembers rest))

/-- The items after the first one and the closing bracket. -/
def moreItems : List Json → List Char
  | [] => [']']
  | x :: xs => ',' :: (chars x ++ moreItems xs)

/-- The members after the first one and the closing brace. -/
def moreMembers : List (String × Json) → List Char
  | [] => ['\x7d']
  | (name, value) :: rest => ',' :: (quoted name ++ ':' :: (chars value ++ moreMembers rest))

end

/-- The compact text of a value. -/
def text (value : Json) : String := String.ofList value.chars

/-! ### Indented text -/

/-- A new line at a depth of two-space steps. -/
def newLine (depth : Nat) : List Char := '\n' :: List.replicate (2 * depth) ' '

mutual

/-- The indented text of a value that starts at a depth. -/
def indented (depth : Nat) : Json → List Char
  | arr [] => ['[', ']']
  | arr (x :: xs) =>
    '[' :: (newLine (depth + 1) ++ indented (depth + 1) x ++ indentedItems depth xs)
  | obj [] => ['\x7b', '\x7d']
  | obj ((name, value) :: rest) =>
    '\x7b' :: (newLine (depth + 1) ++ quoted name ++ ':' :: ' ' :: indented (depth + 1) value
      ++ indentedMembers depth rest)
  | null => ['n', 'u', 'l', 'l']
  | bool b => chars (bool b)
  | num n => n.chars
  | str s => quoted s

/-- The items after the first one, a line each, and the closing bracket. -/
def indentedItems (depth : Nat) : List Json → List Char
  | [] => newLine depth ++ [']']
  | x :: xs =>
    ',' :: (newLine (depth + 1) ++ indented (depth + 1) x ++ indentedItems depth xs)

/-- The members after the first one, a line each, and the closing brace. -/
def indentedMembers (depth : Nat) : List (String × Json) → List Char
  | [] => newLine depth ++ ['\x7d']
  | (name, value) :: rest =>
    ',' :: (newLine (depth + 1) ++ quoted name ++ ':' :: ' ' :: indented (depth + 1) value
      ++ indentedMembers depth rest)

end

/-- The text of a value on several lines. -/
def prettyText (value : Json) : String := String.ofList (indented 0 value)

end Json

end GraphFetch
