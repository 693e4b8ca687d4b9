import ReportTemplate.Number.Numeral
import ReportTemplate.Value.Basic

/-! The values of YAML scalars.
A plain scalar is `null`, a truth value, a number or text by its spelling; a tag asks for one
of these.
-/

namespace ReportTemplate.Yaml

open Number

/-- Reads `null`. -/
def null? (text : String) : Option Unit :=
  if ["null", "Null", "NULL", "~"].contains text then some () else none

def bool? (text : String) : Option Bool :=
  if ["true", "True", "TRUE"].contains text then some true
  else if ["false", "False", "FALSE"].contains text then some false
  else none

/-- Holds for a row of digits that starts with a needless zero, which is text. -/
def isPaddedRow (text : List Char) : Bool :=
  let digits :=
    match text with
    | '-' :: rest => rest
    | '+' :: rest => rest
    | _ => text
  match digits with
  | '0' :: d :: rest => (d :: rest).all isDigit
  | _ => false

/-- The value of a digit in a number system. -/
def digitIn? (base : Nat) (c : Char) : Option Nat := do
  let value ←
    if '0' ≤ c ∧ c ≤ '9' then some (c.toNat - '0'.toNat)
    else if 'a' ≤ c ∧ c ≤ 'z' then some (c.toNat - 'a'.toNat + 10)
    else if 'A' ≤ c ∧ c ≤ 'Z' then some (c.toNat - 'A'.toNat + 10)
    else none
  if value < base then some value else none

/-- Reads one or more digits in a number system. -/
def natIn? (base : Nat) (text : List Char) : Option Nat :=
  if text.isEmpty then none
  else text.foldlM (fun n c => (digitIn? base c).map (base * n + ·)) 0

/-- The marks of number systems at the start of a number. -/
def basedDigits? : List Char → Option (Nat × List Char)
  | '0' :: 'x' :: rest => some (16, rest)
  | '0' :: 'o' :: rest => some (8, rest)
  | '0' :: 'b' :: rest => some (2, rest)
  | _ => none

/-- Reads an unsigned integer, after a plus sign if there is one. -/
def unsigned? (text : List Char) : Option Nat :=
  let digits :=
    match text with
    | '+' :: rest => rest
    | _ => text
  match basedDigits? digits with
  | some (base, rest) => natIn? base rest
  | none => if isPaddedRow text then none else natIn? 10 digits

/-- Reads the magnitude of an integer after a minus sign. -/
def negated? (text : List Char) : Option Nat :=
  match text with
  | '-' :: digits =>
      match basedDigits? digits with
      | some (base, rest) => natIn? base rest
      | none => if isPaddedRow text then none else natIn? 10 digits
  | _ => none

/-- What the spelling of an integer says: a number, or an integer beyond the range of values.
-/
inductive IntegerReading where
  | absent
  | number (n : Float)
  | beyond

/-- Reads an integer. One of more than 64 bits is beyond the range, and one of more than 128
bits is not an integer.
-/
def integerReading (text : List Char) : IntegerReading :=
  match unsigned? text with
  | some n =>
      if n < Nat.pow 2 64 then .number (Float.ofNat n)
      else if n < Nat.pow 2 128 then .beyond
      else .absent
  | none =>
      match negated? text with
      | some n =>
          if n ≤ Nat.pow 2 63 then .number (Float.ofInt (-n))
          else if n ≤ Nat.pow 2 127 then .beyond
          else .absent
      | none => .absent

/-- A number as a value: those that are not finite have none. -/
def finite (n : Float) : Value :=
  if n.isFinite then .number n else .null

/-- Reads a number with a point or exponent, or one of the names of infinities and NaN. -/
def float? (text : List Char) : Option Float :=
  let unsigned : Option (List Char) :=
    match text with
    | '+' :: '+' :: _ => none
    | '+' :: '-' :: _ => none
    | '+' :: rest => some rest
    | _ => some text
  match unsigned with
  | none => none
  | some rest =>
      let name := String.ofList rest
      if [".inf", ".Inf", ".INF"].contains name then some (1 / 0)
      else if ["-.inf", "-.Inf", "-.INF"].contains (String.ofList text) then some (-1 / 0)
      else if [".nan", ".NaN", ".NAN"].contains (String.ofList text) then some (0 / 0)
      else
        match Number.float rest with
        | some n => if n.isFinite then some n else none
        | none => none

/-- The value of a plain scalar without a tag. -/
def plainValue? (text : List Char) : Option Value :=
  let word := String.ofList text
  if text.isEmpty ∨ (null? word).isSome then some .null
  else
    match bool? word with
    | some flag => some (.bool flag)
    | none =>
        match integerReading text with
        | .number n => some (.number n)
        | .beyond => none
        | .absent =>
            if isPaddedRow text then some (.string word)
            else
              match float? text with
              | some n => some (finite n)
              | none => some (.string word)

/-- Holds for tags that name no standard type. -/
def isLocalTag : List Char → Bool
  | '!' :: _ => true
  | _ => false

/-- The value of a scalar; `none` when its tag and its text do not fit. -/
def scalarValue? (tag : Option (List Char)) (text : List Char) (plain : Bool) : Option Value :=
  let word := String.ofList text
  match tag with
  | none => if plain then plainValue? text else some (.string word)
  | some tag =>
      if isLocalTag tag then none
      else
        match String.ofList tag with
        | "tag:yaml.org,2002:bool" => (bool? word).map .bool
        | "tag:yaml.org,2002:int" =>
            match integerReading text with
            | .number n => some (.number n)
            | _ => none
        | "tag:yaml.org,2002:float" => (float? text).map finite
        | "tag:yaml.org,2002:null" => (null? word).map fun _ => .null
        | _ => some (.string word)

end ReportTemplate.Yaml
