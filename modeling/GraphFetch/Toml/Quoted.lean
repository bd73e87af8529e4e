/-
Strings in TOML.

Double quotes allow escapes and single quotes do not.  Three quotes open a string
of several lines: a line end right after them is dropped, every other one becomes a
line feed, and up to two quotes may stand before the three that close it.
-/
import GraphFetch.Json.Parser
import GraphFetch.Toml.Reader

namespace GraphFetch

namespace Toml

namespace Quoted

open Reader (isTextChar isBlank afterLineEnd?)

/-! ### Escapes -/

/-- A character by its code, if there is one. -/
def scalar? (code : Nat) : Option Char :=
  if code.isValidChar then some (Char.ofNat code) else none

/-- The character after a backslash. -/
def escaped? : List Char → Option (Char × List Char)
  | 'u' :: rest => do
    let (code, rest) ← Json.hexUnit? rest
    return (← scalar? code, rest)
  | 'U' :: rest => do
    let (high, rest) ← Json.hexUnit? rest
    let (low, rest) ← Json.hexUnit? rest
    return (← scalar? (high * 0x10000 + low), rest)
  | '/' :: _ => none
  | text => Json.escaped? text

/-! ### One line -/

/-- The characters up to the closing quote, of which there are at most `bound`. -/
def lineChars? (quote : Char) : Nat → List Char → Option (List Char × List Char)
  | 0, _ => none
  | _ + 1, [] => none
  | bound + 1, c :: rest =>
    if c = quote then some ([], rest)
    else if c = '\\' ∧ quote = '"' then do
      let (c, rest) ← escaped? rest
      let (cs, rest) ← lineChars? quote bound rest
      return (c :: cs, rest)
    else if isTextChar c then do
      let (cs, rest) ← lineChars? quote bound rest
      return (c :: cs, rest)
    else none

/-! ### Several lines -/

/-- Three quotes, and up to two more before them that belong to the string. -/
def closing? (quote : Char) (text : List Char) : Option (List Char × List Char) :=
  let count := (text.takeWhile (· == quote)).length
  if count < 3 then none
  else
    let inside := min (count - 3) 2
    some (List.replicate inside quote, text.drop (inside + 3))

/-- The text after blanks and line ends. -/
def afterBreaks : List Char → List Char
  | '\r' :: '\n' :: rest => afterBreaks rest
  | c :: rest => if isBlank c || c == '\n' then afterBreaks rest else c :: rest
  | [] => []

/-- The text after a line end that a backslash hides, and the blanks and line ends after it. -/
def afterHiddenBreak? (text : List Char) : Option (List Char) :=
  (afterLineEnd? (text.dropWhile isBlank)).map afterBreaks

/-- The characters up to the closing quotes, of which there are at most `bound`. -/
def blockChars? (quote : Char) : Nat → List Char → Option (List Char × List Char)
  | 0, _ => none
  | bound + 1, text =>
    match closing? quote text, afterLineEnd? text, text with
    | some closed, _, _ => some closed
    | none, some rest, _ => do
      let (cs, rest) ← blockChars? quote bound rest
      return ('\n' :: cs, rest)
    | none, none, c :: rest =>
      if c = '\\' ∧ quote = '"' then
        match afterHiddenBreak? rest with
        | some rest => blockChars? quote bound rest
        | none => do
          let (c, rest) ← escaped? rest
          let (cs, rest) ← blockChars? quote bound rest
          return (c :: cs, rest)
      else if isTextChar c then do
        let (cs, rest) ← blockChars? quote bound rest
        return (c :: cs, rest)
      else none
    | none, none, [] => none

/-! ### Any of them -/

/-- A string on one line, between quotes of one kind. -/
def line (quote : Char) : Reader String := fun text =>
  match text with
  | c :: rest =>
    if c = quote then
      (lineChars? quote (rest.length + 1) rest).map fun (cs, rest) => (String.ofList cs, rest)
    else none
  | [] => none

/-- A string of several lines, between three quotes of one kind. -/
def block (quote : Char) : Reader String := fun text => do
  let rest ← Text.afterMark? [quote, quote, quote] text
  let rest := (afterLineEnd? rest).getD rest
  let (cs, rest) ← blockChars? quote (rest.length + 1) rest
  return (String.ofList cs, rest)

/-- A string of any kind. -/
def string : Reader String := fun text =>
  match text with
  | '"' :: '"' :: '"' :: _ => block '"' text
  | '\'' :: '\'' :: '\'' :: _ => block '\'' text
  | '"' :: _ => line '"' text
  | _ => line '\'' text

end Quoted

end Toml

end GraphFetch
