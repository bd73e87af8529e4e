/-
Blank characters: those with the Unicode property White_Space.
-/

namespace GraphFetch

namespace Text

/-- Whether a character is blank. -/
def isBlank (c : Char) : Bool :=
  let code := c.toNat
  (9 ≤ code && code ≤ 13) || code == 0x20 || code == 0x85 || code == 0xA0 || code == 0x1680
    || (0x2000 ≤ code && code ≤ 0x200A) || code == 0x2028 || code == 0x2029 || code == 0x202F
    || code == 0x205F || code == 0x3000

/-- Puts a character that is not blank at the front of the words that follow it. -/
def extendWord (c : Char) (joined : Bool) : List (List Char) → List (List Char)
  | word :: rest => if joined then (c :: word) :: rest else [c] :: word :: rest
  | [] => [[c]]

/-- The words of a text, which blanks separate. -/
def words : List Char → List (List Char)
  | [] => []
  | c :: rest =>
    if isBlank c then words rest
    else extendWord c (rest.head?.any fun next => !isBlank next) (words rest)

end Text

end GraphFetch
