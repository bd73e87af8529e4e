/-
The tokens of an eager expression.

A name is a maximal run of ASCII letters, digits, `_` and `$`; seven marks stand
for themselves; blanks separate tokens and are dropped.  Any other character is
kept as a token of its own, for the parser to refuse.  Every token carries the byte
at which it starts, because that is what an error points at.
-/

namespace GraphFetch

namespace Expression

inductive Token
  | openList
  | closeList
  | openModifiers
  | closeModifiers
  | comma
  | dot
  | colon
  | name (chars : List Char)
  | stray (c : Char)
deriving DecidableEq, Inhabited

/-- A token and the byte at which it starts. -/
structure Spot where
  token : Token
  offset : Nat
deriving DecidableEq, Inhabited

/-- The characters of names. -/
def isNameChar (c : Char) : Bool := c.isAlphanum || c == '_' || c == '$'

/-- The blanks: space, tab, line feed, form feed and carriage return. -/
def isBlank (c : Char) : Bool :=
  c == ' ' || c == '\t' || c == '\n' || c == '\x0c' || c == '\r'

/-- The token of a character outside names. -/
def Token.ofMark (c : Char) : Token :=
  if c = '[' then .openList
  else if c = ']' then .closeList
  else if c = '(' then .openModifiers
  else if c = ')' then .closeModifiers
  else if c = ',' then .comma
  else if c = '.' then .dot
  else if c = ':' then .colon
  else .stray c

/-- The first character of a token's text. -/
def Token.firstChar : Token → Char
  | openList => '['
  | closeList => ']'
  | openModifiers => '('
  | closeModifiers => ')'
  | comma => ','
  | dot => '.'
  | colon => ':'
  | name chars => chars.headD ' '
  | stray c => c

/-- Puts a name character before the tokens of the text that follows it. -/
def extendName (c : Char) (offset : Nat) : List Spot → List Spot
  | ⟨.name chars, next⟩ :: rest =>
    if next = offset + 1 then ⟨.name (c :: chars), offset⟩ :: rest
    else ⟨.name [c], offset⟩ :: ⟨.name chars, next⟩ :: rest
  | spots => ⟨.name [c], offset⟩ :: spots

/-- The tokens of a text that starts at a byte. -/
def scan (offset : Nat) : List Char → List Spot
  | [] => []
  | c :: rest =>
    let after := scan (offset + c.utf8Size) rest
    if isBlank c then after
    else if isNameChar c then extendName c offset after
    else ⟨.ofMark c, offset⟩ :: after

end Expression

end GraphFetch
