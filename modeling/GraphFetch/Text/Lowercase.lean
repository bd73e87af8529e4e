/-
Lower case of any text.

Every capital becomes its small letter, which takes two characters for one letter
alone, and the capital sigma becomes a final sigma at the end of a word: where a
letter stands before it and none behind, marks and the like not counting.
-/
import GraphFetch.Text.LowercaseTable

namespace GraphFetch

namespace Text

/-- Whether one of the ranges holds a code point. -/
def inRanges (ranges : List (Nat × Nat)) (code : Nat) : Bool :=
  ranges.any fun (first, last) => first ≤ code && code ≤ last

/-- The small letter of a capital in one of the runs. -/
def lowerIn : List (Nat × Nat × Nat × Int) → Nat → Option Nat
  | [], _ => none
  | (first, last, step, distance) :: rest, code =>
    if first ≤ code ∧ code ≤ last ∧ (code - first) % step = 0 then
      some ((code : Int) + distance).toNat
    else lowerIn rest code

/-- The small letters of a character, whatever stands around it. -/
def lowerChar (c : Char) : List Char :=
  if c.toNat < 0x80 then [c.toLower]
  else if c.toNat = 0x130 then ['i', Char.ofNat 0x307]
  else match lowerIn lowerRuns c.toNat with
    | some code => [Char.ofNat code]
    | none => [c]

/-- Whether the first character that is not ignorable has case. -/
def casedNext (text : List Char) : Bool :=
  match text.dropWhile fun c => inRanges ignorableRanges c.toNat with
  | c :: _ => inRanges casedRanges c.toNat
  | [] => false

/-- The small letters of a text whose preceding characters are given, the nearest first. -/
def lowerAfter (before : List Char) : List Char → List Char
  | [] => []
  | c :: rest =>
    let lower :=
      if c = 'Σ' then (if casedNext before && !casedNext rest then ['ς'] else ['σ'])
      else lowerChar c
    lower ++ lowerAfter (c :: before) rest

/-- A text in lower case. -/
def lower (text : List Char) : List Char := lowerAfter [] text

end Text

end GraphFetch
