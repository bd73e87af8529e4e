/-
Values in documents.

A constant is a value that an argument resolves to or a variable holds; a literal
is a value as a document writes it, where variables may stand inside lists and
objects.  The text of both is the document's own notation, which messages,
conditions and logged statements show: strings are quoted, and a control character
without a short escape is written with its decimal code.
-/
import GraphFetch.Json.Printer

namespace GraphFetch

/-- A value without variables. -/
inductive Const
  | null
  | number (n : Number)
  | string (s : String)
  | boolean (b : Bool)
  | binary (bytes : List UInt8)
  | enum (name : String)
  | list (items : List Const)
  | object (members : List (String × Const))
deriving Inhabited

/-- A value as it is written. -/
inductive Literal
  | var (name : String)
  | null
  | number (n : Number)
  | string (s : String)
  | boolean (b : Bool)
  | binary (bytes : List UInt8)
  | enum (name : String)
  | list (items : List Literal)
  | object (members : List (String × Literal))
deriving Inhabited

/-! ### Text -/

namespace Literal

/-- Whether a character is a control character: U+0000 to U+001F and U+007F to U+009F. -/
def isControl (c : Char) : Bool := c.toNat < 0x20 || (0x7F ≤ c.toNat && c.toNat < 0xA0)

/-- Four decimal digits at least. -/
def fourDigits (n : Nat) : List Char :=
  let digits := Nat.toDigits 10 n
  List.replicate (4 - digits.length) '0' ++ digits

/-- A character as it stands between quotes. -/
def escape (c : Char) : List Char :=
  if c = '\r' then ['\\', 'r']
  else if c = '\n' then ['\\', 'n']
  else if c = '\t' then ['\\', 't']
  else if c = '"' then ['\\', '"']
  else if c = '\\' then ['\\', '\\']
  else if isControl c then '\\' :: 'u' :: fourDigits c.toNat
  else [c]

/-- A string in quotes. -/
def quoted (s : String) : List Char := '"' :: (s.toList.flatMap escape ++ ['"'])

/-- The bytes after the first one and the closing bracket. -/
def moreBytes : List UInt8 → List Char
  | [] => [']']
  | b :: rest => ',' :: ' ' :: (Nat.toDigits 10 b.toNat ++ moreBytes rest)

/-- Bytes in brackets. -/
def byteChars : List UInt8 → List Char
  | [] => ['[', ']']
  | b :: rest => '[' :: (Nat.toDigits 10 b.toNat ++ moreBytes rest)

mutual

/-- The notation of a literal. -/
def chars : Literal → List Char
  | var name => '$' :: name.toList
  | null => ['n', 'u', 'l', 'l']
  | number n => n.chars
  | string s => quoted s
  | boolean true => ['t', 'r', 'u', 'e']
  | boolean false => ['f', 'a', 'l', 's', 'e']
  | binary bytes => byteChars bytes
  | enum name => name.toList
  | list [] => ['[', ']']
  | list (x :: xs) => '[' :: (chars x ++ moreItems xs)
  | object [] => ['\x7b', '\x7d']
  | object ((name, value) :: rest) =>
    '\x7b' :: (name.toList ++ ':' :: ' ' :: (chars value ++ moreMembers rest))

/-- The items after the first one and the closing bracket. -/
def moreItems : List Literal → List Char
  | [] => [']']
  | x :: xs => ',' :: ' ' :: (chars x ++ moreItems xs)

/-- The members after the first one and the closing brace. -/
def moreMembers : List (String × Literal) → List Char
  | [] => ['\x7d']
  | (name, value) :: rest =>
    ',' :: ' ' :: (name.toList ++ ':' :: ' ' :: (chars value ++ moreMembers rest))

end

/-- The notation of a literal. -/
def text (literal : Literal) : String := String.ofList literal.chars

end Literal

namespace Literal

mutual

/-- The constant that a literal without variables writes. -/
def toConst? : Literal → Option Const
  | var _ => none
  | null => some .null
  | number n => some (.number n)
  | string s => some (.string s)
  | boolean b => some (.boolean b)
  | binary bytes => some (.binary bytes)
  | enum name => some (.enum name)
  | list items => (toConsts? items).map .list
  | object members => (toConstMembers? members).map .object

def toConsts? : List Literal → Option (List Const)
  | [] => some []
  | x :: xs => do return (← toConst? x) :: (← toConsts? xs)

def toConstMembers? : List (String × Literal) → Option (List (String × Const))
  | [] => some []
  | (name, value) :: rest => do return (name, ← toConst? value) :: (← toConstMembers? rest)

end

end Literal

namespace Const

mutual

/-- The literal that writes a constant. -/
def toLiteral : Const → Literal
  | null => .null
  | number n => .number n
  | string s => .string s
  | boolean b => .boolean b
  | binary bytes => .binary bytes
  | enum name => .enum name
  | list items => .list (toLiterals items)
  | object members => .object (toLiteralMembers members)

def toLiterals : List Const → List Literal
  | [] => []
  | x :: xs => toLiteral x :: toLiterals xs

def toLiteralMembers : List (String × Const) → List (String × Literal)
  | [] => []
  | (name, value) :: rest => (name, toLiteral value) :: toLiteralMembers rest

end

/-- The notation of a constant. -/
def text (value : Const) : String := value.toLiteral.text

/-! ### JSON form -/

mutual

/-- The JSON form of a constant: an enum is a string and bytes are numbers. -/
def toJson : Const → Json
  | null => .null
  | number n => .num n
  | string s => .str s
  | boolean b => .bool b
  | binary bytes => .arr (bytes.map fun b => .num (.int b.toNat))
  | enum name => .str name
  | list items => .arr (toJsonItems items)
  | object members => .obj (toJsonMembers members)

def toJsonItems : List Const → List Json
  | [] => []
  | x :: xs => toJson x :: toJsonItems xs

def toJsonMembers : List (String × Const) → List (String × Json)
  | [] => []
  | (name, value) :: rest => (name, toJson value) :: toJsonMembers rest

end

mutual

/-- The constant that a JSON value stands for. -/
def ofJson : Json → Const
  | .null => null
  | .num n => number n
  | .str s => string s
  | .bool b => boolean b
  | .arr items => list (ofJsonItems items)
  | .obj members => object (ofJsonMembers members)

def ofJsonItems : List Json → List Const
  | [] => []
  | x :: xs => ofJson x :: ofJsonItems xs

def ofJsonMembers : List (String × Json) → List (String × Const)
  | [] => []
  | (name, value) :: rest => (name, ofJson value) :: ofJsonMembers rest

end

end Const

end GraphFetch
