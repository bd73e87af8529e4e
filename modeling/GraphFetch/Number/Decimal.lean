/-
Reading the text of a number.

The digits are gathered into a significand of at most 64 bits: further digits of
the integer part raise the exponent and further digits of the fraction are
dropped.  The significand is then taken to the nearest double and multiplied or
divided by a power of ten, itself a double, so a text may miss the nearest double
by one rounding.  A value of 2^1024 or more is an error, never an infinity.
-/
import GraphFetch.Number.Basic

namespace GraphFetch

namespace Number

/-! ### Scaling -/

/-- `10^e`, for `e ≤ 308`. -/
def tenTo (e : Nat) : Double := Double.ofNat (Nat.pow 10 e)

/-- Divides by `10^e`, at most 308 places at a time, until nothing is left. -/
def scaleDown (x : Double) (e : Nat) : Double :=
  if e ≤ 308 then x.div (tenTo e)
  else if x.steps = 0 then x
  else scaleDown (x.div (tenTo 308)) (e - 308)
termination_by e

/-- Multiplies by `10^e`; only zero takes an exponent above 308. -/
def scaleUp? (x : Double) (e : Nat) : Option Double :=
  if e ≤ 308 then x.mul? (tenTo e)
  else if x.steps = 0 then some x
  else none

/-- The double that `significand · 10^exponent` is read as, if it is finite. -/
def ofParts? (negative : Bool) (significand : Nat) (exponent : Int) : Option Double :=
  let magnitude := Double.ofNat significand
  let scaled :=
    if 0 ≤ exponent then scaleUp? magnitude exponent.toNat
    else some (scaleDown magnitude (-exponent).toNat)
  scaled.map fun x => { x with negative }

/-! ### Digits -/

/-- The first value that does not fit 64 bits. -/
def wordLimit : Nat := Nat.pow 2 64

/-- The significand, with the count of the digits that no longer fitted. -/
def gather : List Char → Nat → Nat × Nat
  | [], significand => (significand, 0)
  | c :: rest, significand =>
    let next := significand * 10 + (c.toNat - 48)
    if next < wordLimit then gather rest next else (significand, rest.length + 1)

/-- The value of a run of decimal digits. -/
def natOfDigits (digits : List Char) : Nat :=
  digits.foldl (fun n c => n * 10 + (c.toNat - 48)) 0

/-- The text of a number in its parts. -/
structure Spelling where
  negative : Bool
  whole : List Char
  /-- The digits after the point, if there is one. -/
  fraction : Option (List Char)
  /-- The sign (`true` below zero) and the digits after the `e`, if there is one. -/
  power : Option (Bool × List Char)
deriving Inhabited

/-- A whole number that fits 64 bits stays an integer, apart from the negative zero. -/
def ofWhole? (negative : Bool) (digits : List Char) : Option Number :=
  let (significand, dropped) := gather digits 0
  if dropped = 0 && (!negative || (significand ≠ 0 && significand ≤ Nat.pow 2 63)) then
    some (int (if negative then -(significand : Int) else significand))
  else (ofParts? negative significand dropped).map float

/-- The significand and the exponent of the digits on both sides of a point. -/
def joinFraction (whole fraction : List Char) : Nat × Int :=
  let (significand, dropped) := gather whole 0
  if dropped = 0 then
    let (all, lost) := gather fraction significand
    (all, -((fraction.length - lost : Nat) : Int))
  else
    let (all, lost) := gather fraction significand
    (all, (dropped : Int) - ((fraction.length - lost : Nat) : Int))

/-- An exponent too large for 31 bits leaves zero, or nothing. -/
def ofPower? (negative : Bool) (significand : Nat) (start : Int) (below : Bool)
    (digits : List Char) : Option Double :=
  let power := natOfDigits digits
  if power < Nat.pow 2 31 then
    ofParts? negative significand (if below then start - power else start + power)
  else if significand = 0 ∨ below then some (Double.zero negative)
  else none

/-- The number a text stands for, if it is finite. -/
def Spelling.toNumber? (s : Spelling) : Option Number :=
  match s.fraction, s.power with
  | none, none => ofWhole? s.negative s.whole
  | fraction, power =>
    let (significand, exponent) := joinFraction s.whole (fraction.getD [])
    match power with
    | none => (ofParts? s.negative significand exponent).map float
    | some (below, digits) => (ofPower? s.negative significand exponent below digits).map float

/-! ### The shared form

JSON and GraphQL write numbers alike: an optional minus, digits without a leading
zero, a fraction, a power.
-/

/-- Splits off the leading decimal digits. -/
def takeDigits (text : List Char) : List Char × List Char := text.span Char.isDigit

/-- The digits before the point: a zero alone, or digits that start with another one. -/
def readWhole? : List Char → Option (List Char × List Char)
  | '0' :: rest => some (['0'], rest)
  | text =>
    match takeDigits text with
    | ([], _) => none
    | (digits, rest) => some (digits, rest)

/-- A fraction, where at least one digit follows a point; `none` is a point without digits. -/
def readFraction? : List Char → Option (Option (List Char) × List Char)
  | '.' :: rest =>
    match takeDigits rest with
    | ([], _) => none
    | (digits, rest) => some (some digits, rest)
  | text => some (none, text)

/-- A power's sign. -/
def readSign : List Char → Bool × List Char
  | '+' :: rest => (false, rest)
  | '-' :: rest => (true, rest)
  | text => (false, text)

/-- A power, where digits follow; `none` is an `e` without digits. -/
def readPower? : List Char → Option (Option (Bool × List Char) × List Char)
  | c :: rest =>
    if c = 'e' ∨ c = 'E' then
      let (below, rest) := readSign rest
      match takeDigits rest with
      | ([], _) => none
      | (digits, rest) => some (some (below, digits), rest)
    else some (none, c :: rest)
  | [] => some (none, [])

/-- Reads a number's parts from the front of a text. -/
def readSpelling? (text : List Char) : Option (Spelling × List Char) := do
  let (negative, text) := match text with
    | '-' :: rest => (true, rest)
    | text => (false, text)
  let (whole, text) ← readWhole? text
  let (fraction, text) ← readFraction? text
  let (power, text) ← readPower? text
  return (⟨negative, whole, fraction, power⟩, text)

end Number

end GraphFetch
