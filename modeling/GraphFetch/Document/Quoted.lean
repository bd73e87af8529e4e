/-
Strings in documents.

A plain string is one line between quotes with the escapes of JSON, apart from
those of surrogates.  A block string stands between triple quotes and is taken as
it is written, except that its indentation, and blank lines at both ends, belong
to the document and not to the string.
-/
import GraphFetch.Json.Parser

namespace GraphFetch

namespace Document

namespace Quoted

/-! ### Plain strings -/

/-- The character of four hexadecimal digits that are no surrogate. -/
def scalar? (text : List Char) : Option (Char × List Char) := do
  let (unit, rest) ← Json.hexUnit? text
  if Json.isHighSurrogate unit || Json.isLowSurrogate unit then none
  else some (Char.ofNat unit, rest)

/-- The character after a backslash. -/
def escaped? : List Char → Option (Char × List Char)
  | 'u' :: rest => scalar? rest
  | text => Json.escaped? text

/-- The characters up to the closing quote, of which there are at most `bound`. -/
def plainChars? : Nat → List Char → Option (List Char × List Char)
  | 0, _ => none
  | _ + 1, [] => none
  | _ + 1, '"' :: rest => some ([], rest)
  | bound + 1, '\\' :: rest => do
    let (c, rest) ← escaped? rest
    let (cs, rest) ← plainChars? bound rest
    return (c :: cs, rest)
  | bound + 1, c :: rest =>
    if c = '\n' ∨ c = '\r' then none
    else do
      let (cs, rest) ← plainChars? bound rest
      return (c :: cs, rest)

/-! ### Block strings -/

/-- The characters up to the closing triple quote; a backslash keeps a triple quote in the string.
-/
def blockChars? : List Char → Option (List Char × List Char)
  | '\\' :: '"' :: '"' :: '"' :: rest => do
    let (cs, rest) ← blockChars? rest
    return ('\\' :: '"' :: '"' :: '"' :: cs, rest)
  | '"' :: '"' :: '"' :: rest => some ([], rest)
  | c :: rest => do
    let (cs, rest) ← blockChars? rest
    return (c :: cs, rest)
  | [] => none

/-- The lines of a text; a carriage return and a line feed together end one line. -/
def lines : List Char → List (List Char)
  | [] => [[]]
  | '\r' :: '\n' :: rest => [] :: lines rest
  | c :: rest =>
    if c = '\n' ∨ c = '\r' then [] :: lines rest
    else match lines rest with
      | line :: more => (c :: line) :: more
      | [] => [[c]]

def isIndent (c : Char) : Bool := c == ' ' || c == '\t'

def isBlankLine (line : List Char) : Bool := line.all isIndent

/-- The length of a line's indentation; a blank line has none. -/
def indentation? (line : List Char) : Option Nat :=
  if isBlankLine line then none else some (line.takeWhile isIndent).length

/-- The least indentation of the lines. -/
def commonIndent (lines : List (List Char)) : Nat :=
  ((lines.filterMap indentation?).min?).getD 0

/-- A line without the common indentation; a shorter one stays as it is. -/
def dedent (indent : Nat) (line : List Char) : List Char :=
  if indent ≤ line.length then line.drop indent else line

/-- The lines without the blank ones at both ends. -/
def trimLines (lines : List (List Char)) : List (List Char) :=
  ((lines.dropWhile isBlankLine).reverse.dropWhile isBlankLine).reverse

/-- Lines with a line feed between them. -/
def joinLines : List (List Char) → List Char
  | [] => []
  | [line] => line
  | line :: rest => line ++ '\n' :: joinLines rest

/-- The string that the text between triple quotes stands for. -/
def blockValue (text : List Char) : List Char :=
  match lines text with
  | [] => []
  | first :: rest => joinLines (trimLines (first :: rest.map (dedent (commonIndent rest))))

/-! ### Both kinds -/

/-- A block string. -/
def block? : List Char → Option (List Char × List Char)
  | '"' :: '"' :: '"' :: rest => do
    let (cs, rest) ← blockChars? rest
    return (blockValue cs, rest)
  | _ => none

/-- A plain string. -/
def plain? : List Char → Option (List Char × List Char)
  | '"' :: rest => plainChars? (rest.length + 1) rest
  | _ => none

/-- A string at the front of a text: a block string if one can be read, else a plain one. -/
def read? (text : List Char) : Option (String × List Char) :=
  (block? text <|> plain? text).map fun (cs, rest) => (String.ofList cs, rest)

end Quoted

end Document

end GraphFetch
