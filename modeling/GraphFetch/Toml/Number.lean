/-
Numbers, dates and times in TOML.

Digits may be grouped by single underscores.  An integer fits 64 bits with its sign.
A floating point number is the double nearest to what is written; one that is too
large is refused above zero and minus infinity below it.  Dates exist in the
calendar.
-/
import GraphFetch.Number.Decimal
import GraphFetch.Toml.Basic
import GraphFetch.Toml.Reader

namespace GraphFetch

namespace Toml

/-! ### Values of digits -/

/-- The value of a digit of any base up to 16. -/
def digitValue (c : Char) : Nat :=
  if c.isDigit then c.toNat - 48
  else if 'a' ≤ c ∧ c ≤ 'f' then c.toNat - 87
  else c.toNat - 55

def isDigitOf (base : Nat) (c : Char) : Bool :=
  (c.isDigit || ('a' ≤ c && c ≤ 'f') || ('A' ≤ c && c ≤ 'F')) && digitValue c < base

/-- The value of digits. -/
def natOf (base : Nat) (digits : List Char) : Nat :=
  digits.foldl (fun n c => n * base + digitValue c) 0

/-- The value of `significand · 10^exponent`, where the significand has a given number of digits. -/
def Real.ofDecimal? (negative : Bool) (significand count : Nat) (exponent : Int) : Option Real :=
  let overflow := if negative then some (infinite true) else none
  if significand = 0 ∨ (count : Int) + exponent < -400 then some (finite (Double.zero negative))
  else if 400 < exponent + (significand.log2 / 4 : Nat) then overflow
  else
    let value := Double.ofFraction? negative (significand * Nat.pow 10 exponent.toNat)
      (Nat.pow 10 (-exponent).toNat)
    match value with
    | some x => some (finite x)
    | none => overflow

namespace Reader

open Text (maybe)

/-! ### Digits -/

/-- Further digits, where one must follow every underscore. -/
def moreDigits? (isKind : Char → Bool) : List Char → Option (List Char × List Char)
  | [] => some ([], [])
  | '_' :: c :: rest =>
    if isKind c then (moreDigits? isKind rest).map fun (cs, rest) => (c :: cs, rest) else none
  | c :: rest =>
    if c = '_' then none
    else if isKind c then (moreDigits? isKind rest).map fun (cs, rest) => (c :: cs, rest)
    else some ([], c :: rest)

/-- Digits in groups. -/
def digits (isKind : Char → Bool) : Reader (List Char) := do
  let first ← char isKind
  let more ← fun text => moreDigits? isKind text
  return first :: more

/-- A sign: whether it is a minus. -/
def sign : Reader Bool := do
  match ← maybe (char fun c => c == '+' || c == '-') with
  | some c => return c == '-'
  | none => return false

/-- Decimal digits of which a zero is the only one or not the first. -/
def wholeDigits : Reader (List Char) :=
  (do exactly "0"; return ['0']) <|> digits Char.isDigit

/-! ### Integers -/

/-- An integer that fits 64 bits with its sign. -/
def fitting (negative : Bool) (magnitude : Nat) : Reader Toml :=
  if magnitude < Nat.pow 2 63 ∨ (negative ∧ magnitude = Nat.pow 2 63) then
    return .integer (if negative then -(magnitude : Int) else magnitude)
  else failure

/-- An integer in a base other than ten. -/
def basedInteger (mark : String) (base : Nat) : Reader Toml := do
  exactly mark
  let digits ← digits (isDigitOf base)
  fitting false (natOf base digits)

def integer : Reader Toml :=
  basedInteger "0x" 16 <|> basedInteger "0o" 8 <|> basedInteger "0b" 2 <|> do
    let negative ← sign
    let digits ← wholeDigits
    fitting negative (natOf 10 digits)

/-! ### Floating point -/

/-- A power of ten. -/
def power : Reader Int := do
  discard (char fun c => c == 'e' || c == 'E')
  let negative ← sign
  let digits ← digits Char.isDigit
  let magnitude : Int := natOf 10 digits
  return if negative then -magnitude else magnitude

def fraction : Reader (List Char) := do
  exactly "."
  digits Char.isDigit

/-- A number with a fraction, a power or both. -/
def decimal : Reader Toml := do
  let negative ← sign
  let whole ← wholeDigits
  let (fraction, power) ← (do return ([], ← power)) <|> do
    let fraction ← fraction
    return (fraction, (← maybe power).getD 0)
  let digits := whole ++ fraction
  match Real.ofDecimal? negative (natOf 10 digits) digits.length (power - fraction.length) with
  | some x => return .float x
  | none => failure

/-- Infinity, or what is no number, with a sign. -/
def special : Reader Toml := do
  let negative ← sign
  (do exactly "inf"; return .float (.infinite negative))
    <|> (do exactly "nan"; return .float .notANumber)

/-! ### Dates and times -/

/-- So many digits, whose value lies between two bounds. -/
def between (count low high : Nat) : Reader Nat := fun text =>
  let first := text.take count
  let n := natOf 10 first
  if first.length = count ∧ first.all Char.isDigit ∧ low ≤ n ∧ n ≤ high then
    some (n, text.drop count)
  else none

def isLeapYear (year : Nat) : Bool := year % 4 == 0 && (year % 100 != 0 || year % 400 == 0)

/-- How many days a month has. -/
def daysIn (year month : Nat) : Nat :=
  if month = 2 then (if isLeapYear year then 29 else 28)
  else if month = 4 ∨ month = 6 ∨ month = 9 ∨ month = 11 then 30
  else 31

/-- A day of the calendar. -/
def date : Reader Unit := do
  let year ← between 4 0 9999
  exactly "-"
  let month ← between 2 1 12
  exactly "-"
  discard (between 2 1 (daysIn year month))

/-- A time of the day; a minute may have a leap second. -/
def time : Reader Unit := do
  discard (between 2 0 23)
  exactly ":"
  discard (between 2 0 59)
  exactly ":"
  discard (between 2 0 60)
  discard <| maybe do
    exactly "."
    discard (char Char.isDigit)
    run Char.isDigit

/-- The distance from universal time. -/
def offset : Reader Unit :=
  discard (char fun c => c == 'Z' || c == 'z') <|> do
    discard (char fun c => c == '+' || c == '-')
    discard (between 2 0 23)
    exactly ":"
    discard (between 2 0 59)

/-- A date with a time after it, if there is one, or a time. -/
def moment : Reader Unit :=
  (do
    date
    discard <| maybe do
      discard (char fun c => c == 'T' || c == 't' || c == ' ')
      time
      discard (maybe offset))
  <|> time

def dateTime : Reader Toml := do
  let before ← get
  moment
  let after ← get
  return .dateTime (String.ofList (before.take (before.length - after.length)))

/-! ### Any of them -/

/-- A date or time, a floating point number or an integer. -/
def numeric : Reader Toml := dateTime <|> decimal <|> special <|> integer

end Reader

end Toml

end GraphFetch
