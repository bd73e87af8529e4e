/-
Readers over the text of a TOML document.

No mistake in a document says more than that there is one, so a reader takes
something from the front of the text or fails.
-/
import GraphFetch.Text.Reader

namespace GraphFetch

namespace Toml

/-- Takes a value from the front of the text, or fails. -/
abbrev Reader := StateT (List Char) Option

namespace Reader

open Text (upTo afterMark?)

/-! ### Characters -/

/-- The characters of strings and comments: all but the control characters, and the tab. -/
def isTextChar (c : Char) : Bool := c == '\t' || (' ' ≤ c && c != '\x7f')

/-- Blanks within a line. -/
def isBlank (c : Char) : Bool := c == ' ' || c == '\t'

/-- Takes a character of a kind. -/
def char (isKind : Char → Bool) : Reader Char := fun text =>
  match text with
  | c :: rest => if isKind c then some (c, rest) else none
  | [] => none

/-- Takes the longest run of characters of a kind. -/
def run (isKind : Char → Bool) : Reader (List Char) := fun text => some (text.span isKind)

/-- Takes a given text. -/
def exactly (mark : String) : Reader Unit := fun text =>
  (afterMark? mark.toList text).map fun rest => ((), rest)

/-- Skips blanks within the line. -/
def skipBlanks : Reader Unit := discard (run isBlank)

/-! ### Lines -/

/-- The text after a line's end. -/
def afterLineEnd? : List Char → Option (List Char)
  | '\n' :: rest => some rest
  | '\r' :: '\n' :: rest => some rest
  | _ => none

/-- The text after blanks, line ends and comments. -/
def afterFiller (inComment : Bool) : List Char → List Char
  | [] => []
  | '\n' :: rest => afterFiller false rest
  | '\r' :: '\n' :: rest => afterFiller false rest
  | c :: rest =>
    if inComment && isTextChar c then afterFiller true rest
    else if isBlank c then afterFiller false rest
    else if c = '#' then afterFiller true rest
    else c :: rest

/-- Skips blanks, line ends and comments. -/
def skipFiller : Reader Unit := modify (afterFiller false)

/-- Skips a comment. -/
def skipComment : Reader Unit := modify fun text =>
  match text with
  | '#' :: rest => rest.dropWhile isTextChar
  | text => text

/-- Takes the end of a line, or is at the end of the text, after blanks and a comment. -/
def endLine : Reader Unit := do
  skipBlanks
  skipComment
  let text ← get
  match text, afterLineEnd? text with
  | [], _ => return
  | _, some rest => set rest
  | _, none => failure

/-! ### Repetition -/

/-- Repeats a reader until it fails; no reader that succeeds takes nothing. -/
def many {α : Type} (reader : Reader α) : Reader (List α) := fun text =>
  some (upTo reader text.length text)

/-- Elements with a mark between them; after a mark without an element the mark is left. -/
def separated {α : Type} (mark : String) (element : Reader α) : Reader (List α) := do
  let first ← Text.maybe element
  match first with
  | none => return []
  | some first =>
    let more ← many do
      exactly mark
      element
    return first :: more

end Reader

end Toml

end GraphFetch
