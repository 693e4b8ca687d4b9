/-! Exact integer views of binary64 numbers.
A finite number is a ratio of an integer and a power of two, so whole parts and roundings
are integer divisions.
-/

namespace ReportTemplate.Number

/-- Gives a finite number as numerator and denominator, a power of two; `none` otherwise. -/
def ratio? (x : Float) : Option (Int × Nat) :=
  match x.toModel.unpack with
  | .notANumber => none
  | .infinity _ => none
  | .zero _ => some (0, 1)
  | .finite sign mantissa exponent _ =>
      some (sign.apply (mantissa * Nat.pow 2 exponent.toNat), Nat.pow 2 (-exponent).toNat)

def isFinite (x : Float) : Bool :=
  (ratio? x).isSome

/-- Holds for negative infinity and negative finite numbers, negative zero included. -/
def isNegative (x : Float) : Bool :=
  match x.toModel.unpack with
  | .notANumber => false
  | .infinity sign => sign == .negative
  | .zero sign => sign == .negative
  | .finite sign _ _ _ => sign == .negative

/-- The least magnitude at which whole numbers are no longer told apart from all others, the
53rd power of two.
-/
def exactLimit : Int := 9007199254740992

/-- Gives the integer equal to a number of magnitude below `exactLimit`, if there is one. -/
def integer? (x : Float) : Option Int :=
  match ratio? x with
  | none => none
  | some (numerator, denominator) =>
      if numerator % denominator = 0 ∧ -exactLimit < numerator / denominator
          ∧ numerator / denominator < exactLimit then
        some (numerator / denominator)
      else
        none

def clamp (low high n : Int) : Int :=
  max low (min high n)

/-- Reduces a number to an integer with `whole`, which gets the exact ratio, and brings the
result into a closed range. Infinities give the ends of the range and NaN gives zero.
-/
def toIntBy (whole : Int → Nat → Int) (low high : Int) (x : Float) : Int :=
  match ratio? x with
  | some (numerator, denominator) => clamp low high (whole numerator denominator)
  | none => if x.isNaN then 0 else if isNegative x then low else high

/-- Rounds down into the range of signed 64-bit integers. -/
def floorInt64 (x : Float) : Int :=
  toIntBy (fun numerator denominator => numerator / denominator)
    (-9223372036854775808) 9223372036854775807 x

/-- Rounds toward zero into the range of signed 32-bit integers. -/
def truncateInt32 (x : Float) : Int :=
  toIntBy (fun numerator denominator => numerator.tdiv denominator)
    (-2147483648) 2147483647 x

/-- Rounds toward zero into the range of unsigned 64-bit integers. -/
def truncateCount (x : Float) : Nat :=
  (toIntBy (fun numerator denominator => numerator.tdiv denominator)
    0 18446744073709551615 x).toNat

/-- Rounds to the nearest whole number, halves away from zero; NaN and infinities stay. -/
def roundHalfAway (x : Float) : Float :=
  match ratio? x with
  | none => x
  | some (numerator, denominator) =>
      let magnitude := (2 * numerator.natAbs + denominator) / (2 * denominator)
      if isNegative x then -(Float.ofNat magnitude) else Float.ofNat magnitude

/-- Raises to a natural power by squaring: `bits` bounds the number of binary digits. -/
def squarePower (bits : Nat) (base acc : Float) (n : Nat) : Float :=
  match bits with
  | 0 => acc
  | bits + 1 =>
      let acc := if n % 2 = 1 then acc * base else acc
      if n / 2 = 0 then acc else squarePower bits (base * base) acc (n / 2)

/-- Raises to an integer power by squaring; a negative power is the reciprocal. -/
def power (base : Float) (n : Int) : Float :=
  let magnitude := squarePower (n.natAbs + 1) base 1 n.natAbs
  if n < 0 then 1 / magnitude else magnitude

end ReportTemplate.Number
