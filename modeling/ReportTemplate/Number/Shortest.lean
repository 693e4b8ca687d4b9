/-! The shortest decimal that reads back as a given binary64 number.
The reals that round to a number form an interval around it. For each count of digits only
the two decimals next to the number can be the nearest ones inside.
-/

namespace ReportTemplate.Number

/-- Says which of two equally near decimals is taken. -/
inductive Tie where
  | up
  | toEven
  deriving DecidableEq, Repr

/-- The decimal `digits · 10 ^ exponent`. -/
structure Decimal where
  digits : Nat
  exponent : Int
  deriving DecidableEq, Repr

namespace Decimal

/-- Counts the decimal digits of a natural number; zero has one. -/
def digitCount (n : Nat) : Nat :=
  (Nat.toDigits 10 n).length

/-- The power of ten of the leading digit. -/
def leadingExponent (d : Decimal) : Int :=
  d.exponent + digitCount d.digits - 1

/-- Moves trailing zeros of the digits into the exponent; `fuel` bounds their number. -/
def dropZeros (fuel : Nat) (d : Decimal) : Decimal :=
  match fuel with
  | 0 => d
  | fuel + 1 =>
      if d.digits ≠ 0 ∧ d.digits % 10 = 0 then
        dropZeros fuel ⟨d.digits / 10, d.exponent + 1⟩
      else d

end Decimal

/-- The reals that round to one positive number: scaled by `2 ^ 1076`, `value` is the number
and `lower` and `upper` are the ends, which belong to the interval when `closed` holds.
-/
structure RoundingInterval where
  lower : Nat
  value : Nat
  upper : Nat
  closed : Bool

namespace RoundingInterval

/-- The scale at which every number and every midpoint of two neighbours is whole. -/
def scale : Nat := Nat.pow 2 1076

/-- The interval of the number `mantissa · 2 ^ exponent`. Its neighbour below is half as far
away when the mantissa is the least with 53 bits and the exponent is not the least.
-/
def of (mantissa : Nat) (exponent : Int) : RoundingInterval :=
  let unit := Nat.pow 2 (exponent + 1074).toNat
  let below := if mantissa = Nat.pow 2 52 ∧ exponent ≠ -1074 then 1 else 2
  { lower := (4 * mantissa - below) * unit
    value := 4 * mantissa * unit
    upper := (4 * mantissa + 2) * unit
    closed := mantissa % 2 = 0 }

/-- Brings `digits · 10 ^ exponent` to the scale of the interval: the interval's ends are
multiplied by the second component before a comparison with the first.
-/
def onScale (digits : Nat) (exponent : Int) : Nat × Nat :=
  (digits * Nat.pow 10 exponent.toNat * scale, Nat.pow 10 (-exponent).toNat)

/-- Holds when the decimal lies in the interval. -/
def contains (interval : RoundingInterval) (digits : Nat) (exponent : Int) : Bool :=
  let (point, factor) := onScale digits exponent
  if interval.closed then
    interval.lower * factor ≤ point && point ≤ interval.upper * factor
  else
    interval.lower * factor < point && point < interval.upper * factor

/-- The power of ten of the leading digit of the number in the interval. -/
def leadingExponent (interval : RoundingInterval) : Int :=
  (Decimal.digitCount (interval.value * Nat.pow 10 400 / scale) : Int) - 401

/-- Picks the decimal with last digit at `10 ^ exponent` that is in the interval and nearest
to its number.
-/
def nearest? (interval : RoundingInterval) (tie : Tie) (exponent : Int) : Option Decimal :=
  let (unit, factor) := onScale 1 exponent
  let point := interval.value * factor
  let digits := point / unit
  let rest := point % unit
  let below := interval.contains digits exponent
  let above := interval.contains (digits + 1) exponent
  let takeAbove : Bool :=
    if 2 * rest = unit then
      match tie with
      | .up => true
      | .toEven => digits % 2 == 1
    else decide (unit < 2 * rest)
  if above && (takeAbove || !below) then some ⟨digits + 1, exponent⟩
  else if below then some ⟨digits, exponent⟩
  else none

end RoundingInterval

/-- The most digits that a shortest decimal needs. -/
def maxDigits : Nat := 17

/-- The shortest decimal that reads back as `mantissa · 2 ^ exponent`, the nearest of those.
Without a mantissa it is zero.
-/
def shortest (tie : Tie) (mantissa : Nat) (exponent : Int) : Decimal :=
  let interval := RoundingInterval.of mantissa exponent
  let leading := interval.leadingExponent
  match (List.range maxDigits).findSome? fun (n : Nat) => interval.nearest? tie (leading - n) with
  | some found => found.dropZeros maxDigits
  | none => ⟨0, 0⟩

end ReportTemplate.Number
