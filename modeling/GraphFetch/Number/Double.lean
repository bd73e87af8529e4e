/-
Finite binary64 values, counted in their smallest step.

Every finite binary64 value is a whole number of steps of 2^-1074, so a sign and
a natural number say it exactly, one way only apart from the two zeros.  Which
whole numbers occur is a matter of rounding: below 2^53 steps all of them, above
that the multiples of the spacing that leaves 53 significant bits.  Order and
equality then are those of the integers, and no law has to speak about exponents.
-/

namespace GraphFetch

/-- A finite binary64 value: its sign and its magnitude in steps of 2^-1074. -/
structure Double where
  negative : Bool
  steps : Nat
deriving DecidableEq, Inhabited

namespace Double

/-! ### The grid -/

/-- The number one in steps. -/
def one : Nat := Nat.pow 2 1074

/-- The first magnitude that is too large, 2^1024, in steps. -/
def tooLarge : Nat := Nat.pow 2 2098

/-- The distance between neighbouring values at a magnitude: 53 significant bits are kept. -/
def spacing (steps : Nat) : Nat := Nat.pow 2 (steps.log2 - 52)

/-- The quotient rounded to a whole number, a half going to the even neighbour. -/
def divNearest (numerator denominator : Nat) : Nat :=
  let floor := numerator / denominator
  let twice := 2 * (numerator % denominator)
  if twice < denominator then floor
  else if denominator < twice then floor + 1
  else if floor % 2 = 0 then floor
  else floor + 1

/-- The magnitude on the grid nearest to a quotient of steps, a tie going to the even significand.
-/
def nearest (numerator denominator : Nat) : Nat :=
  let gap := spacing (numerator / denominator)
  divNearest numerator (denominator * gap) * gap

/-! ### Values and arithmetic -/

/-- The value with a magnitude, if it is below 2^1024. -/
def ofSteps? (negative : Bool) (steps : Nat) : Option Double :=
  if steps < tooLarge then some ⟨negative, steps⟩ else none

def zero (negative : Bool) : Double := ⟨negative, 0⟩

/-- The value nearest to a natural number below 2^1023. -/
def ofNat (n : Nat) : Double := ⟨false, nearest (n * one) 1⟩

/-- The value nearest to an integer of magnitude below 2^1023. -/
def ofInt (n : Int) : Double := ⟨n < 0, nearest (n.natAbs * one) 1⟩

/-- The value nearest to a fraction, if that is finite. -/
def ofFraction? (negative : Bool) (numerator denominator : Nat) : Option Double :=
  ofSteps? negative (nearest (numerator * one) denominator)

def neg (x : Double) : Double := { x with negative := !x.negative }

/-- The rounded product, if it is finite. -/
def mul? (x y : Double) : Option Double :=
  ofSteps? (x.negative != y.negative) (nearest (x.steps * y.steps) one)

/-- The rounded quotient by a divisor of at least one. -/
def div (x y : Double) : Double :=
  ⟨x.negative != y.negative, nearest (x.steps * one) y.steps⟩

/-! ### Order -/

/-- The value as a signed number of steps; both zeros are 0. -/
def signed (x : Double) : Int := if x.negative then -(x.steps : Int) else x.steps

/-- Whether two doubles are the same number. -/
def same (x y : Double) : Bool := x.signed == y.signed

/-- The order of the numbers. -/
def order (x y : Double) : Ordering := compare x.signed y.signed

theorem same_iff (x y : Double) : x.same y = true ↔ x.signed = y.signed := by
  simp [same]

end Double

end GraphFetch
