import ReportTemplate.Number.Shortest

/-! Reading decimal numerals.
A numeral is digits with at most one point among or around them and an optional exponent
part; its value is rounded once, to the nearest number.
-/

namespace ReportTemplate.Number

def isDigit (c : Char) : Bool :=
  '0' ≤ c && c ≤ '9'

def digitValue (c : Char) : Nat :=
  c.toNat - '0'.toNat

/-- The natural number written by a row of digits. -/
def digitsValue (digits : List Char) : Nat :=
  digits.foldl (fun n c => 10 * n + digitValue c) 0

/-- Takes an optional sign off a text; the flag says whether it is a minus. -/
def splitSign : List Char → Bool × List Char
  | '-' :: rest => (true, rest)
  | '+' :: rest => (false, rest)
  | text => (false, text)

/-- Reads an integer: an optional sign and one or more digits. -/
def integer (text : List Char) : Option Int :=
  let (negative, digits) := splitSign text
  if digits.isEmpty || !digits.all isDigit then none
  else if negative then some (-(digitsValue digits : Int))
  else some (digitsValue digits)

/-- Reads an integer that fits into 64 bits with a sign. -/
def int64 (text : List Char) : Option Int :=
  (integer text).filter fun n => -9223372036854775808 ≤ n ∧ n ≤ 9223372036854775807

/-- Reads an exponent part, which may be missing. -/
def exponentPart : List Char → Option Int
  | [] => some 0
  | mark :: rest => if mark = 'e' ∨ mark = 'E' then integer rest else none

def unsignedNumeral (text : List Char) : Option Decimal :=
  let whole := text.takeWhile isDigit
  let rest := text.dropWhile isDigit
  let (fraction, rest) :=
    match rest with
    | '.' :: after => (after.takeWhile isDigit, after.dropWhile isDigit)
    | _ => ([], rest)
  if whole.isEmpty && fraction.isEmpty then none
  else
    (exponentPart rest).map fun exponent =>
      ⟨digitsValue (whole ++ fraction), exponent - fraction.length⟩

/-- The number nearest to a decimal; infinity beyond the greatest. -/
def Decimal.toFloat (d : Decimal) : Float :=
  Float.ofScientific d.digits (d.exponent < 0) d.exponent.natAbs

/-- Negates a number when the flag is set. -/
def signed (negative : Bool) (x : Float) : Float :=
  if negative then -x else x

def numeral (text : List Char) : Option Float :=
  let (negative, rest) := splitSign text
  (unsignedNumeral rest).map fun d => signed negative d.toFloat

/-- The number named by a word in any case: `inf`, `infinity` or `nan`. -/
def namedNumber (word : List Char) : Option Float :=
  match String.ofList (word.map Char.toLower) with
  | "inf" => some (1 / 0)
  | "infinity" => some (1 / 0)
  | "nan" => some (0 / 0)
  | _ => none

/-- Reads a numeral or a number's name, either with an optional sign. -/
def float (text : List Char) : Option Float :=
  let (negative, rest) := splitSign text
  match namedNumber rest with
  | some x => some (signed negative x)
  | none => numeral text

end ReportTemplate.Number
