import ReportTemplate.Number.Numeral

/-! JSON numerals and the numbers they are read as.
Digits are gathered in 64 bits; a numeral that does not fit keeps its leading digits and a
power of ten, and the power is applied by one multiplication or division of binary64 numbers.
-/

namespace ReportTemplate.Json

open Number

/-- The parts of a numeral: sign, digits before and after the point, sign and digits of the
exponent.
-/
structure Numeral where
  negative : Bool
  whole : List Char
  fraction : List Char
  exponentNegative : Bool
  exponent : List Char

namespace Numeral

/-- Cuts an exponent part, which may be missing, into its sign and digits. -/
def exponentDigits : List Char → Option (Bool × List Char)
  | [] => some (false, [])
  | mark :: rest =>
      let (negative, digits) := splitSign rest
      if (mark = 'e' ∨ mark = 'E') ∧ digits ≠ [] ∧ digits.all isDigit then
        some (negative, digits)
      else none

/-- Cuts a text into the parts of a numeral. A whole part has no leading zero, and a point
stands between digits.
-/
def ofText? (text : List Char) : Option Numeral := do
  let (negative, text) := match text with
    | '-' :: rest => (true, rest)
    | _ => (false, text)
  let whole := text.takeWhile isDigit
  guard (whole = ['0'] ∨ (whole ≠ [] ∧ whole.head? ≠ some '0'))
  let text := text.dropWhile isDigit
  let (fraction, text) ← match text with
    | '.' :: after =>
        if after.takeWhile isDigit = [] then none
        else some (after.takeWhile isDigit, after.dropWhile isDigit)
    | _ => some ([], text)
  let (exponentNegative, exponent) ← exponentDigits text
  return { negative, whole, fraction, exponentNegative, exponent }

/-- The limit below which gathered values stay, the 64th power of two. -/
def gatherLimit : Nat := 18446744073709551616

/-- Gathers digits onto a value while it stays below the limit, and counts those left. -/
def gather (value : Nat) : List Char → Nat × Nat
  | [] => (value, 0)
  | c :: rest =>
      let next := 10 * value + digitValue c
      if next < gatherLimit then gather next rest else (value, rest.length + 1)

/-- The gathered digits and the power of ten before the exponent part is added. -/
def significand (numeral : Numeral) : Nat × Int :=
  let (value, dropped) := gather 0 numeral.whole
  let (value, ignored) := gather value numeral.fraction
  (value, (dropped : Int) - ((numeral.fraction.length : Int) - ignored))

/-- The greatest exponent whose power of ten is a number. -/
def powerLimit : Nat := 308

/-- The number nearest to a power of ten. -/
def tenTo (n : Nat) : Float :=
  Float.ofScientific 1 false n

/-- Multiplies a number by a power of ten; refuses a result beyond the greatest number. -/
def scaleUp? (x : Float) (n : Nat) : Option Float :=
  if n ≤ powerLimit then
    let product := x * tenTo n
    if product.isInf then none else some product
  else if x == 0 then some x
  else none

/-- Divides a number by a power of ten, in two steps where one power is too great. -/
def scaleDown (x : Float) (n : Nat) : Float :=
  if n ≤ powerLimit then x / tenTo n
  else x / tenTo powerLimit / tenTo (min powerLimit (n - powerLimit))

def exponentLimit : Int := 2147483647

/-- The magnitude of the number; `none` when it is beyond the greatest number. -/
def magnitude? (numeral : Numeral) : Option Float :=
  let (value, power) := numeral.significand
  let exponent := (digitsValue numeral.exponent : Int)
  if exponentLimit < exponent then
    if value ≠ 0 ∧ ¬numeral.exponentNegative then none else some 0
  else
    let power := if numeral.exponentNegative then power - exponent else power + exponent
    let x := Float.ofNat value
    if power < 0 then some (scaleDown x power.natAbs) else scaleUp? x power.natAbs

/-- The number that a numeral is read as. -/
def toFloat? (numeral : Numeral) : Option Float :=
  numeral.magnitude?.map (signed numeral.negative)

end Numeral

/-- Reads a number from the whole of a text. -/
def number? (text : List Char) : Option Float :=
  (Numeral.ofText? text).bind Numeral.toFloat?

end ReportTemplate.Json
