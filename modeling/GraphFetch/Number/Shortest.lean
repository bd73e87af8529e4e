/-
The shortest decimal text of a double.

The reals that round to a double form an interval around it, closed when its
significand is even.  For one, two, up to seventeen digits the value's two
neighbours on that decimal grid are tried; the first grid with a neighbour in the
interval wins, and of two hits the nearer.  If any point of a grid lies in the
interval then so does one of the two neighbours, so nothing shorter is missed.
All of it is arithmetic on natural numbers.

Which of two equally near neighbours is taken and where the digits go are separate
decisions, one `Layout` for each kind of text.
-/
import GraphFetch.Number.Double

namespace GraphFetch

namespace Double

/-! ### Layout -/

/-- How the decimal of a double is chosen and written. -/
structure Layout where
  /-- Which of two equally near decimals is taken: the greater, or else the one with the even last
  digit. -/
  tiesUp : Bool
  /-- Which decimal exponents are written out in full; all others take a power of ten. -/
  positional : Int → Bool

/-- JSON text is positional from `0.00001` up to sixteen digits before the point. -/
def Layout.json : Layout := ⟨false, fun e => -5 ≤ e && e ≤ 15⟩

/-- Plain text never uses a power of ten. -/
def Layout.plain : Layout := ⟨true, fun _ => true⟩

/-! ### Digits -/

/-- A positive decimal `digits · 10^exponent`. -/
structure Decimal where
  digits : Nat
  exponent : Int
deriving DecidableEq, Inhabited

/-- The greatest `e ≥ 0` with `10^e ≤ n`, for positive `n`. -/
def decimalLog (n : Nat) : Nat := (Nat.toDigits 10 n).length - 1

/-- The least `k ≤ fuel` with `n · 10^k ≥ bound`, else `fuel`. -/
def scaleUp (n bound : Nat) : Nat → Nat → Nat
  | 0, k => k
  | fuel + 1, k => if bound ≤ n * Nat.pow 10 k then k else scaleUp n bound fuel (k + 1)

/-- The decimal exponent of a positive magnitude: `10^e ≤ steps · 2^-1074 < 10^(e+1)`. -/
def decimalExponent (steps : Nat) : Int :=
  if one ≤ steps then decimalLog (steps / one) else -(scaleUp steps one 330 1 : Nat)

/-- Twice the magnitude, and twice the half distances to the neighbours below and above. -/
def halfGaps (steps : Nat) : Nat × Nat :=
  let gap := spacing steps
  if steps = Nat.pow 2 steps.log2 ∧ 1 < gap then (gap / 2, gap) else (gap, gap)

/-- Whether the significand is even, so that ties round to this value. -/
def evenSignificand (steps : Nat) : Bool := steps / spacing steps % 2 == 0

/-- `10^e` as a fraction. -/
def powerOfTen (e : Int) : Nat × Nat :=
  if 0 ≤ e then (Nat.pow 10 e.toNat, 1) else (1, Nat.pow 10 (-e).toNat)

/-- Twice the distance of `candidate · 10^e` to the magnitude, over `10^e`'s denominator, with the
flag that the candidate lies below. -/
def distance (steps candidate : Nat) (e : Int) : Nat × Bool :=
  let there := 2 * candidate * (powerOfTen e).1 * one
  let here := 2 * steps * (powerOfTen e).2
  if there < here then (here - there, true) else (there - here, false)

/-- Whether `candidate · 10^e` rounds to the magnitude. -/
def roundsBack (steps candidate : Nat) (e : Int) : Bool :=
  let apart := distance steps candidate e
  let room :=
    (if apart.2 then (halfGaps steps).1 else (halfGaps steps).2) * (powerOfTen e).2
  if evenSignificand steps then apart.1 ≤ room else apart.1 < room

/-- The greatest multiple of `10^e` that is not above the magnitude, as a number of such steps. -/
def gridFloor (steps : Nat) (e : Int) : Nat :=
  steps * (powerOfTen e).2 / ((powerOfTen e).1 * one)

/-- The nearer of a number of grid steps and the next one. -/
def nearer (tiesUp : Bool) (steps floor : Nat) (e : Int) : Nat :=
  let toLow := (distance steps floor e).1
  let toHigh := (distance steps (floor + 1) e).1
  if toLow < toHigh then floor
  else if toHigh < toLow then floor + 1
  else if !tiesUp && floor % 2 = 0 then floor
  else floor + 1

/-- The neighbour on the grid of step `10^e` that stands for the magnitude, if one does. -/
def onGrid (tiesUp : Bool) (steps : Nat) (e : Int) : Option Nat :=
  let floor := gridFloor steps e
  if roundsBack steps floor e && floor != 0 then
    if roundsBack steps (floor + 1) e then some (nearer tiesUp steps floor e) else some floor
  else if roundsBack steps (floor + 1) e then some (floor + 1) else none

/-- The first hit on the grids that show `count` digits and more. -/
def search (tiesUp : Bool) (steps : Nat) (exponent : Int) : Nat → Nat → Decimal
  | 0, count => ⟨steps * Nat.pow 10 count, exponent⟩
  | fuel + 1, count =>
    let e := exponent - (count : Int) + 1
    match onGrid tiesUp steps e with
    | some digits => ⟨digits, e⟩
    | none => search tiesUp steps exponent fuel (count + 1)

/-- The shortest decimal that rounds to a positive magnitude, the nearest of those. -/
def shortest (tiesUp : Bool) (steps : Nat) : Decimal :=
  search tiesUp steps (decimalExponent steps) 17 1

/-! ### Text -/

/-- The digits of a number without its trailing zeros. -/
def stripZeros (digits : List Char) : List Char :=
  (digits.reverse.dropWhile (· == '0')).reverse

/-- Digits with a point after the first `e + 1` of them, always with a fraction. -/
def positionalText (digits : List Char) (e : Int) : List Char :=
  if e < 0 then
    '0' :: '.' :: (List.replicate (-e - 1).toNat '0' ++ digits)
  else
    let whole := digits.take (e.toNat + 1) ++ List.replicate (e.toNat + 1 - digits.length) '0'
    let fraction := digits.drop (e.toNat + 1)
    whole ++ '.' :: (if fraction.isEmpty then ['0'] else fraction)

/-- The digits as one digit before the point, and the power of ten with its sign. -/
def scientificText (digits : List Char) (e : Int) : List Char :=
  let lead := digits.take 1
  let fraction := digits.drop 1
  let power := (if e < 0 then '-' else '+') :: Nat.toDigits 10 e.natAbs
  lead ++ (if fraction.isEmpty then [] else '.' :: fraction) ++ 'e' :: power

/-- The text of a magnitude. -/
def magnitudeText (layout : Layout) (steps : Nat) : List Char :=
  if steps = 0 then ['0', '.', '0']
  else
    let decimal := shortest layout.tiesUp steps
    let all := Nat.toDigits 10 decimal.digits
    let e := decimal.exponent + (all.length : Int) - 1
    let digits := stripZeros all
    if layout.positional e then positionalText digits e else scientificText digits e

/-- The text of a double, with the sign of a negative zero. -/
def chars (layout : Layout) (x : Double) : List Char :=
  (if x.negative then ['-'] else []) ++ magnitudeText layout x.steps

end Double

end GraphFetch
