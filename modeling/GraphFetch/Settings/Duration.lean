/-
Lengths of time as text.

    duration = term (("+" | "*" | "") term)*
    term     = number unit?

Terms are added, or with `*` multiplied as numbers of seconds, but not both.  A
term without a unit counts seconds; it may only stand before a sign or at the end,
because a number right after it would read as part of it.  A length is a whole number of
nanoseconds that fits 64 bits, and so is everything computed on the way to it.
-/
import GraphFetch.Number.Decimal
import GraphFetch.Text.Reader

namespace GraphFetch

namespace Duration

/-! ### Units -/

def second : Nat := 1000000000

def minute : Nat := 60 * second

def hour : Nat := 60 * minute

def day : Nat := 24 * hour

/-- The names of units, in lower case, and their lengths in nanoseconds. -/
def units : List (List String × Nat) := [
  (["y", "year"], 365 * day),
  (["mon", "month"], 30 * day),
  (["w", "week"], 7 * day),
  (["d", "day"], day),
  (["h", "hr", "hour"], hour),
  (["m", "min", "minute"], minute),
  (["s", "sec", "second"], second),
  (["ms", "msec", "millisecond"], 1000000),
  (["us", "usec", "usecond", "µs", "µsec", "µsecond", "microsecond"], 1000),
  (["ns", "nsec", "nanosecond"], 1)]

/-- The length of a unit; case does not matter. -/
def unit? (word : List Char) : Option Nat :=
  let name := String.ofList (word.map Char.toLower)
  (units.find? fun unit => unit.1.contains name).map (·.2)

/-! ### Terms -/

/-- How terms are joined. -/
inductive Joint
  | sum
  | product
deriving DecidableEq, Inhabited

/-- A number of nanoseconds that fits 64 bits. -/
def fitting? (n : Nat) : Option Nat := if n < Nat.pow 2 64 then some n else none

def isBlank (c : Char) : Bool := c == ' ' || c == '\t' || c == '\n' || c == '\r'

def isUnitChar (c : Char) : Bool := c.isAlpha || c == 'µ'

/-- Whether the text allows a term without a unit before it. -/
def endsTerm : List Char → Bool
  | [] => true
  | c :: _ => c == '+' || c == '*'

/-- A number with its unit, in nanoseconds. -/
def term : StateT (List Char) Option Nat := fun text => do
  let (digits, rest) := (text.dropWhile isBlank).span Char.isDigit
  if digits.isEmpty then none
  let count ← fitting? (Number.natOfDigits digits)
  let (word, rest) := rest.span isUnitChar
  let rest := rest.dropWhile isBlank
  let unit ← if word.isEmpty then (if endsTerm rest then some second else none) else unit? word
  return (← fitting? (count * unit), rest)

/-- A term with what joins it to those before. -/
def joined : StateT (List Char) Option (Joint × Nat) := fun text =>
  match text.dropWhile isBlank with
  | '+' :: rest => (term rest).map fun (n, rest) => ((.sum, n), rest)
  | '*' :: rest => (term rest).map fun (n, rest) => ((.product, n), rest)
  | rest => (term rest).map fun (n, rest) => ((.sum, n), rest)

/-! ### Lengths -/

/-- Two lengths together. -/
def Joint.apply? : Joint → Nat → Nat → Option Nat
  | sum, m, n => fitting? (m + n)
  | product, m, n => fitting? (m * n / second)

/-- A term and those after it, which are put together first. -/
def combine? (first : Nat) : List (Joint × Nat) → Option Nat
  | [] => some first
  | (joint, second) :: more =>
    if more.all fun (other, _) => other == joint then do
      let rest ← more.foldlM (fun total (_, n) => joint.apply? total n) second
      joint.apply? first rest
    else none

/-- The nanoseconds that a text says. -/
def parse? (text : String) : Option Nat := do
  let (first, rest) ← term text.toList
  let (more, rest) := Text.upTo joined rest.length rest
  if rest.all isBlank then combine? first more else none

end Duration

end GraphFetch
