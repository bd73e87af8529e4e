/-
Numbers as documents, payloads and rows carry them.

A number is an integer or a double, and which of the two it is shows in its text.
As JSON values `1` and `1.0` therefore differ.  Where rows are filtered, joined and
sorted, both are first taken to the nearest double.
-/
import GraphFetch.Number.Shortest

namespace GraphFetch

/-- An integer of at most 64 bits, signed or unsigned, or a double. -/
inductive Number
  | int (n : Int)
  | float (x : Double)
deriving DecidableEq, Inhabited

namespace Number

/-- The double nearest to the number. -/
def toDouble : Number → Double
  | int n => Double.ofInt n
  | float x => x

/-- A natural number, if the number is written as an integer. -/
def toNat? : Number → Option Nat
  | int n => if 0 ≤ n then some n.toNat else none
  | float _ => none

/-- Whether two numbers are the same JSON value: an integer never is a double. -/
def same : Number → Number → Bool
  | int m, int n => m == n
  | float x, float y => x.same y
  | _, _ => false

/-- Whether two numbers are near the same double. -/
def agrees (m n : Number) : Bool := m.toDouble.same n.toDouble

/-- The order of the nearest doubles. -/
def order (m n : Number) : Ordering := m.toDouble.order n.toDouble

/-- The decimal text of an integer. -/
def intChars (n : Int) : List Char :=
  if n < 0 then '-' :: Nat.toDigits 10 n.natAbs else Nat.toDigits 10 n.natAbs

/-- The text of a number, in the layout of JSON. -/
def chars : Number → List Char
  | int n => intChars n
  | float x => x.chars .json

end Number

end GraphFetch
