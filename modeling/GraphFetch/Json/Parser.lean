/-
Reading JSON text.

The reader accepts JSON and nothing else: no trailing commas, no raw control
characters in strings, no lone surrogates, nothing after the value.  Values nest
at most 127 deep, which keeps a hostile cache entry from being read at all.  A
repeated member keeps its first place and its last value.

Every step consumes text, so the length of the text bounds the work; the wrapper
`parse?` supplies that bound.
-/
import GraphFetch.Json.Basic
import GraphFetch.Number.Decimal

namespace GraphFetch

namespace Json

/-! ### Blanks and strings -/

/-- The four blanks of JSON. -/
def isBlank (c : Char) : Bool := c == ' ' || c == '\n' || c == '\t' || c == '\r'

def skipBlanks (text : List Char) : List Char := text.dropWhile isBlank

/-- The value of a hexadecimal digit. -/
def hexDigit? (c : Char) : Option Nat :=
  if '0' ≤ c ∧ c ≤ '9' then some (c.toNat - 48)
  else if 'a' ≤ c ∧ c ≤ 'f' then some (c.toNat - 87)
  else if 'A' ≤ c ∧ c ≤ 'F' then some (c.toNat - 55)
  else none

/-- The value of four hexadecimal digits. -/
def hexUnit? : List Char → Option (Nat × List Char)
  | a :: b :: c :: d :: rest => do
    let a ← hexDigit? a
    let b ← hexDigit? b
    let c ← hexDigit? c
    let d ← hexDigit? d
    return (((a * 16 + b) * 16 + c) * 16 + d, rest)
  | _ => none

def isHighSurrogate (u : Nat) : Bool := 0xD800 ≤ u && u < 0xDC00
def isLowSurrogate (u : Nat) : Bool := 0xDC00 ≤ u && u < 0xE000

/-- The character of one unit, or of a pair of surrogates. -/
def unicodeEscape? (text : List Char) : Option (Char × List Char) := do
  let (unit, rest) ← hexUnit? text
  if isLowSurrogate unit then none
  else if isHighSurrogate unit then
    match rest with
    | '\\' :: 'u' :: rest =>
      let (low, rest) ← hexUnit? rest
      if isLowSurrogate low then
        some (Char.ofNat (0x10000 + (unit - 0xD800) * 0x400 + (low - 0xDC00)), rest)
      else none
    | _ => none
  else some (Char.ofNat unit, rest)

/-- The character after a backslash. -/
def escaped? : List Char → Option (Char × List Char)
  | '"' :: rest => some ('"', rest)
  | '\\' :: rest => some ('\\', rest)
  | '/' :: rest => some ('/', rest)
  | 'b' :: rest => some (Char.ofNat 8, rest)
  | 'f' :: rest => some (Char.ofNat 12, rest)
  | 'n' :: rest => some ('\n', rest)
  | 'r' :: rest => some ('\r', rest)
  | 't' :: rest => some ('\t', rest)
  | 'u' :: rest => unicodeEscape? rest
  | _ => none

/-- The characters up to the closing quote. -/
def readChars? : Nat → List Char → Option (List Char × List Char)
  | 0, _ => none
  | _ + 1, [] => none
  | _ + 1, '"' :: rest => some ([], rest)
  | fuel + 1, '\\' :: rest => do
    let (c, rest) ← escaped? rest
    let (cs, rest) ← readChars? fuel rest
    return (c :: cs, rest)
  | fuel + 1, c :: rest =>
    if c.toNat < 32 then none
    else do
      let (cs, rest) ← readChars? fuel rest
      return (c :: cs, rest)

/-- A string in quotes. -/
def readString? : List Char → Option (String × List Char)
  | '"' :: rest => do
    let (cs, rest) ← readChars? (rest.length + 1) rest
    return (String.ofList cs, rest)
  | _ => none

/-! ### Values -/

/-- The rest after a word. -/
def afterWord? : List Char → List Char → Option (List Char)
  | [], text => some text
  | w :: word, c :: text => if w = c then afterWord? word text else none
  | _ :: _, [] => none

/-- The rest after blanks and one given character. -/
def afterMark? (mark : Char) (text : List Char) : Option (List Char) :=
  afterWord? [mark] (skipBlanks text)

mutual

/-- A value that may open `depth - 1` further levels. -/
def readValue? : Nat → Nat → List Char → Option (Json × List Char)
  | 0, _, _ => none
  | fuel + 1, depth, text =>
    match skipBlanks text with
    | 'n' :: rest => (afterWord? ['u', 'l', 'l'] rest).map (null, ·)
    | 't' :: rest => (afterWord? ['r', 'u', 'e'] rest).map (bool true, ·)
    | 'f' :: rest => (afterWord? ['a', 'l', 's', 'e'] rest).map (bool false, ·)
    | '"' :: rest => do
      let (s, rest) ← readString? ('"' :: rest)
      return (str s, rest)
    | '[' :: rest =>
      if depth ≤ 1 then none
      else match afterMark? ']' rest with
        | some rest => some (arr [], rest)
        | none => do
          let (items, rest) ← readItems? fuel (depth - 1) rest
          return (arr items, rest)
    | '\x7b' :: rest =>
      if depth ≤ 1 then none
      else match afterMark? '\x7d' rest with
        | some rest => some (obj [], rest)
        | none => do
          let (members, rest) ← readMembers? fuel (depth - 1) rest
          return (obj (Named.ofList members), rest)
    | text => do
      let (spelling, rest) ← Number.readSpelling? text
      let number ← spelling.toNumber?
      return (num number, rest)

/-- The items of an array and the closing bracket. -/
def readItems? : Nat → Nat → List Char → Option (List Json × List Char)
  | 0, _, _ => none
  | fuel + 1, depth, text => do
    let (item, rest) ← readValue? fuel depth text
    match skipBlanks rest with
    | ',' :: rest =>
      let (items, rest) ← readItems? fuel depth rest
      return (item :: items, rest)
    | ']' :: rest => return ([item], rest)
    | _ => none

/-- The members of an object and the closing brace. -/
def readMembers? : Nat → Nat → List Char → Option (List (String × Json) × List Char)
  | 0, _, _ => none
  | fuel + 1, depth, text => do
    let (name, rest) ← readString? (skipBlanks text)
    let rest ← afterMark? ':' rest
    let (value, rest) ← readValue? fuel depth rest
    match skipBlanks rest with
    | ',' :: rest =>
      let (members, rest) ← readMembers? fuel depth rest
      return ((name, value) :: members, rest)
    | '\x7d' :: rest => return ([(name, value)], rest)
    | _ => none

end

/-- The number of levels that a text may open, and one. -/
def depthLimit : Nat := 128

/-- The value that a whole text stands for. -/
def parseChars? (text : List Char) : Option Json :=
  match readValue? (2 * text.length + 2) depthLimit text with
  | some (value, rest) => if (skipBlanks rest).isEmpty then some value else none
  | none => none

/-- The value that a whole text stands for. -/
def parse? (text : String) : Option Json := parseChars? text.toList

end Json

end GraphFetch
