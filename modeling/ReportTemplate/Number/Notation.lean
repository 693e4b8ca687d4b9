import ReportTemplate.Number.Exact
import ReportTemplate.Number.Shortest

/-! Written forms of numbers.
A style fixes the choices that formats differ in; the digits are always the shortest ones
that read back.
-/

namespace ReportTemplate.Number

def natText (n : Nat) : List Char :=
  Nat.toDigits 10 n

/-- The decimal digits of an integer after its sign, if negative. -/
def intText (n : Int) : List Char :=
  if n < 0 then '-' :: natText n.natAbs else natText n.natAbs

/-- The choices of a format that writes numbers. -/
structure Style where
  /-- Which of two equally near shortest decimals is written. -/
  tie : Tie
  /-- The leading exponents written without an exponent part; `none` admits all. -/
  positional : Option (Int × Int)
  /-- Whether a whole number in positional form ends in `.0`. -/
  wholeMark : Bool
  /-- Whether a positive exponent has a sign. -/
  exponentSign : Bool
  /-- How the three numbers that are not finite are written. -/
  notANumber : List Char
  infinity : List Char
  negativeInfinity : List Char

def positionalText (wholeMark : Bool) (d : Decimal) : List Char :=
  let digits := natText d.digits
  if 0 ≤ d.exponent then
    digits ++ List.replicate d.exponent.toNat '0' ++ (if wholeMark then ['.', '0'] else [])
  else
    let places := (-d.exponent).toNat
    let padded := List.replicate (places + 1 - digits.length) '0' ++ digits
    padded.take (padded.length - places) ++ '.' :: padded.drop (padded.length - places)

/-- Writes a decimal with one digit before the point and an exponent part. -/
def exponentText (exponentSign : Bool) (d : Decimal) : List Char :=
  let mantissa :=
    match natText d.digits with
    | [] => []
    | [digit] => [digit]
    | digit :: rest => digit :: '.' :: rest
  let exponent := d.leadingExponent
  mantissa ++ 'e' :: (if exponentSign && 0 ≤ exponent then ['+'] else []) ++ intText exponent

/-- Writes a decimal in the form that the style has for its leading exponent. -/
def Style.decimal (style : Style) (d : Decimal) : List Char :=
  match style.positional with
  | none => positionalText style.wholeMark d
  | some (low, high) =>
      if low ≤ d.leadingExponent ∧ d.leadingExponent ≤ high then
        positionalText style.wholeMark d
      else exponentText style.exponentSign d

def Style.text (style : Style) (x : Float) : List Char :=
  match x.toModel.unpack with
  | .notANumber => style.notANumber
  | .infinity sign => if sign == .negative then style.negativeInfinity else style.infinity
  | .zero sign =>
      (if sign == .negative then ['-'] else []) ++ style.decimal ⟨0, 0⟩
  | .finite sign mantissa exponent _ =>
      (if sign == .negative then ['-'] else [])
        ++ style.decimal (shortest style.tie mantissa exponent)

/-- Output text has no exponent parts and no mark on whole numbers. -/
def outputStyle : Style where
  tie := .up
  positional := none
  wholeMark := false
  exponentSign := false
  notANumber := ['N', 'a', 'N']
  infinity := ['i', 'n', 'f']
  negativeInfinity := ['-', 'i', 'n', 'f']

/-- JSON text has an exponent part below `1e-5` and from `1e+16` on. -/
def jsonStyle : Style where
  tie := .toEven
  positional := some (-5, 15)
  wholeMark := true
  exponentSign := true
  notANumber := ['n', 'u', 'l', 'l']
  infinity := ['n', 'u', 'l', 'l']
  negativeInfinity := ['n', 'u', 'l', 'l']

/-- YAML text has the ranges of JSON text, no sign on exponents and its own infinities. -/
def yamlStyle : Style where
  tie := .toEven
  positional := some (-5, 15)
  wholeMark := true
  exponentSign := false
  notANumber := ['.', 'n', 'a', 'n']
  infinity := ['.', 'i', 'n', 'f']
  negativeInfinity := ['-', '.', 'i', 'n', 'f']

/-- Writes whole numbers below `exactLimit` as integers and others in the given style. -/
def Style.plain (style : Style) (x : Float) : List Char :=
  match integer? x with
  | some n => intText n
  | none => style.text x

/-- Divides and rounds to the nearest natural number, halves to the even neighbour. -/
def divideHalfEven (numerator denominator : Nat) : Nat :=
  let quotient := numerator / denominator
  let rest := numerator % denominator
  if 2 * rest < denominator ∨ (2 * rest = denominator ∧ quotient % 2 = 0) then quotient
  else quotient + 1

/-- Writes a finite number with a fixed count of decimal places, rounding its exact value.
Other numbers are written as output text.
-/
def fixedText (places : Nat) (x : Float) : List Char :=
  match ratio? x with
  | none => outputStyle.text x
  | some (numerator, denominator) =>
      let scaled := divideHalfEven (numerator.natAbs * Nat.pow 10 places) denominator
      (if isNegative x then ['-'] else []) ++
        (if places = 0 then natText scaled
        else positionalText false ⟨scaled, -places⟩)

end ReportTemplate.Number
