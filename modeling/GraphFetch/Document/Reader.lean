/-
Readers over the text of a document.

A reader takes something from the front of the text or fails without taking
anything.  Two things are wrong with a document although its grammar is right: a
number too large for a double, and selection sets nested too deeply.  They are
noted where they are met, the first one counts, and reading goes on, so that a
grammar mistake further down still comes first.
-/
import GraphFetch.Document.Basic
import GraphFetch.Text.Reader

namespace GraphFetch

/-- Why a text is no document. -/
inductive DocumentError
  | grammar
  | nestedTooDeeply
  | severalOperations
  | operationRepeated (name : String)
  | fragmentRepeated (name : String)
  | noOperation
deriving DecidableEq, Inhabited

def DocumentError.message : DocumentError → String
  | grammar => "<syntax error>"
  | nestedTooDeeply => "recursion limit exceeded."
  | severalOperations => "document contains multiple operations"
  | operationRepeated name => "operation " ++ name ++ " is defined twice"
  | fragmentRepeated name => "fragment " ++ name ++ " is defined twice"
  | noOperation => "document does not contain an operation"

namespace Document

/-- The text still to be read, and the first thing noted about the text before. -/
structure Input where
  text : List Char
  fault : Option DocumentError

/-- Takes a value from the front of the text, or fails. -/
abbrev Reader := StateT Input Option

namespace Reader

open Text (upTo afterMark?)

/-! ### Blanks and marks -/

def isLineEnd (c : Char) : Bool := c == '\n' || c == '\r'

/-- The blanks, commas among them. -/
def isBlank (c : Char) : Bool :=
  c == ' ' || c == ',' || c == '\t' || c == '\uFEFF' || isLineEnd c

mutual

/-- The text after its blanks and comments. -/
def afterBlanks : List Char → List Char
  | [] => []
  | c :: rest =>
    if isBlank c then afterBlanks rest
    else if c = '#' then afterComment rest
    else c :: rest

/-- The text after a comment, which ends with its line, and the blanks that follow. -/
def afterComment : List Char → List Char
  | [] => []
  | c :: rest => if isLineEnd c then afterBlanks rest else afterComment rest

end

/-- Skips blanks and comments. -/
def skipBlanks : Reader Unit := modify fun input => { input with text := afterBlanks input.text }

/-- Takes a given text. -/
def exactly (mark : String) : Reader Unit := fun input =>
  (afterMark? mark.toList input.text).map fun rest => ((), { input with text := rest })

/-- Takes a given text after blanks. -/
def mark (text : String) : Reader Unit := do
  skipBlanks
  exactly text

/-- Notes a fault unless one was noted before. -/
def note (fault : DocumentError) : Reader Unit :=
  modify fun input => { input with fault := input.fault <|> some fault }

/-! ### Repetition -/

/-- Repeats a reader until it fails; no reader that succeeds takes nothing. -/
def many {α : Type} (reader : Reader α) : Reader (List α) := fun input =>
  some (upTo reader input.text.length input)

/-- Repeats a reader once at least. -/
def many1 {α : Type} (reader : Reader α) : Reader (List α) := do
  let first ← reader
  let rest ← many reader
  return first :: rest

/-! ### Names -/

def isNameStart (c : Char) : Bool := c.isAlpha || c == '_'

def isNameChar (c : Char) : Bool := isNameStart c || c.isDigit

/-- Takes a name that starts right here. -/
def nameHere : Reader String := fun input =>
  match input.text with
  | c :: rest =>
    if isNameStart c then
      let (more, rest) := rest.span isNameChar
      some (String.ofList (c :: more), { input with text := rest })
    else none
  | [] => none

/-- Takes a name after blanks. -/
def name : Reader String := do
  skipBlanks
  nameHere

end Reader

end Document

end GraphFetch
