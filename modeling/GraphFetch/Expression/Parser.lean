/-
Reading eager expressions.

    expression := "" | list
    list       := "[" segment ("," segment)* "]" | segment
    segment    := (name ":")? name ("(" name ("," name)* ")")? ("." list)?

Each reader takes tokens from the front and returns the rest.  One token decides
every step, so a failure always points at the first token that cannot continue the
text, or at the end of it.  No reader goes on without consuming a token for more
than three calls; three times the number of tokens bounds the depth of the calls.
-/
import GraphFetch.Expression.Node
import GraphFetch.Expression.Token

namespace GraphFetch

namespace Expression

/-! ### Failures -/

/-- Why a text is no expression. -/
inductive Fault
  | expectedName
  | expectedMark (mark : Char)
  | unexpected (c : Char)
deriving DecidableEq, Inhabited

/-- The first byte of a character's encoding, as the character with that code. -/
def leadByte (c : Char) : Char :=
  let code := c.toNat
  if code < 0x80 then c
  else if code < 0x800 then Char.ofNat (0xC0 + code / 0x40)
  else if code < 0x10000 then Char.ofNat (0xE0 + code / 0x1000)
  else Char.ofNat (0xF0 + code / 0x40000)

def Fault.message : Fault → String
  | expectedName => "expected a name"
  | expectedMark mark => "expected `" ++ mark.toString ++ "`"
  | unexpected c => "unexpected `" ++ (leadByte c).toString ++ "`"

end Expression

/-- A text that is no eager expression, and the byte where that shows. -/
structure ExpressionError where
  offset : Nat
  fault : Expression.Fault
deriving DecidableEq, Inhabited

def ExpressionError.message (error : ExpressionError) : String :=
  "malformed eager expression at offset " ++ toString error.offset ++ ": " ++ error.fault.message

namespace Expression

/-- A fault and the tokens from the offending one on. -/
abbrev Failure := Fault × List Spot

/-! ### Readers -/

/-- A name. -/
def readName : List Spot → Except Failure (String × List Spot)
  | ⟨.name chars, _⟩ :: rest => .ok (String.ofList chars, rest)
  | spots => .error (.expectedName, spots)

/-- A relation's name, with the alias before it if there is a colon. -/
def readHead (spots : List Spot) : Except Failure ((String × Option String) × List Spot) := do
  let (first, rest) ← readName spots
  match rest with
  | ⟨.colon, _⟩ :: rest =>
    let (name, rest) ← readName rest
    return ((name, some first), rest)
  | rest => return ((first, none), rest)

/-- The names of modifiers up to the closing parenthesis. -/
def readModifierNames : List Spot → Except Failure (List String × List Spot)
  | ⟨.name chars, _⟩ :: ⟨.comma, _⟩ :: rest => do
    let (names, rest) ← readModifierNames rest
    return (String.ofList chars :: names, rest)
  | ⟨.name chars, _⟩ :: ⟨.closeModifiers, _⟩ :: rest => .ok ([String.ofList chars], rest)
  | ⟨.name _, _⟩ :: rest => .error (.expectedMark ')', rest)
  | spots => .error (.expectedName, spots)

/-- The modifiers in parentheses, if there are any. -/
def readModifiers : List Spot → Except Failure (List String × List Spot)
  | ⟨.openModifiers, _⟩ :: rest => readModifierNames rest
  | spots => .ok ([], spots)

mutual

/-- A segment, or segments in brackets. -/
def readList : Nat → List Spot → Except Failure (List RelationNode × List Spot)
  | 0, spots => .error (.expectedName, spots)
  | fuel + 1, ⟨.openList, _⟩ :: rest => readSegments fuel rest
  | fuel + 1, spots => do
    let (node, rest) ← readSegment fuel spots
    return ([node], rest)

/-- Segments with commas between them, and the closing bracket. -/
def readSegments : Nat → List Spot → Except Failure (List RelationNode × List Spot)
  | 0, spots => .error (.expectedName, spots)
  | fuel + 1, spots => do
    let (node, rest) ← readSegment fuel spots
    match rest with
    | ⟨.comma, _⟩ :: rest =>
      let (nodes, rest) ← readSegments fuel rest
      return (node :: nodes, rest)
    | ⟨.closeList, _⟩ :: rest => return ([node], rest)
    | rest => .error (.expectedMark ']', rest)

/-- One segment with its children. -/
def readSegment : Nat → List Spot → Except Failure (RelationNode × List Spot)
  | 0, spots => .error (.expectedName, spots)
  | fuel + 1, spots => do
    let ((name, asName), rest) ← readHead spots
    let (modifiers, rest) ← readModifiers rest
    match rest with
    | ⟨.dot, _⟩ :: rest =>
      let (children, rest) ← readList fuel rest
      return (⟨name, asName, modifiers, children⟩, rest)
    | rest => return (⟨name, asName, modifiers, []⟩, rest)

end

/-- The nodes of all tokens. -/
def readAll : List Spot → Except Failure (List RelationNode)
  | [] => .ok []
  | spots => do
    let (nodes, rest) ← readList (3 * spots.length) spots
    match rest with
    | [] => return nodes
    | spot :: rest => .error (.unexpected spot.token.firstChar, spot :: rest)

/-- The byte at which the tokens start, or the end of the text. -/
def offsetOf (total : Nat) : List Spot → Nat
  | [] => total
  | spot :: _ => spot.offset

/-- The nodes that a text stands for. -/
def parse (input : String) : Except ExpressionError (List RelationNode) :=
  match readAll (scan 0 input.toList) with
  | .ok nodes => .ok nodes
  | .error (fault, spots) => .error ⟨offsetOf input.utf8ByteSize spots, fault⟩

end Expression

end GraphFetch
