import ReportTemplate.Filter.Basic
import ReportTemplate.Number.Numeral
import ReportTemplate.Text.Blank

/-! Filters that format measurements and findings of reports. -/

namespace ReportTemplate.Filter

def missing : String := "N/A"

def noItems : String := "Aucun élément"

/-- The finite number that a measurement is: a number or the text of one. -/
def measurement? (value : Value) : Option Float :=
  let number? :=
    match value with
    | .number n => some n
    | .string text => Number.float (Text.trim text.toList)
    | _ => none
  number?.filter Float.isFinite

/-- Scales a score to percent: scores up to one are fractions. -/
def percentage (n : Float) : Float :=
  if n ≤ 1 then n * 100 else n

/-- Rounds a percentage down, a little raised because fractions are not exact. -/
def wholePercentage (percentage : Float) : Int :=
  Number.floorInt64 (percentage + 1e-9)

/-- The grades of scores. -/
inductive Grade where
  | good
  | average
  | poor
  deriving DecidableEq, Repr

namespace Grade

/-- Grades a percentage: good from 90 on, average from 50 on. -/
def of (percentage : Int) : Grade :=
  if 90 ≤ percentage then .good
  else if 50 ≤ percentage then .average
  else .poor

def icon : Grade → String
  | .good => "✅"
  | .average => "⚠️"
  | .poor => "❌"

def label : Grade → String
  | .good => "Bon"
  | .average => "Moyen"
  | .poor => "Faible"

end Grade

def integerText (n : Int) : String :=
  String.ofList (Number.intText n)

/-- Formats a score as a percentage with its grade. -/
def score : Filter := fun value _ =>
  match measurement? value with
  | none => ok missing
  | some n =>
      let whole := wholePercentage (percentage n)
      let grade := Grade.of whole
      ok (integerText whole ++ "% " ++ grade.icon ++ " " ++ grade.label)

/-- Formats a duration in milliseconds; text is kept. -/
def metric : Filter := fun value _ =>
  match value with
  | .string text => ok text
  | .number n =>
      if !n.isFinite then ok missing
      else if n < 1000 then
        ok (Value.output (.number (Number.roundHalfAway n)) ++ "ms")
      else ok (String.ofList (Number.fixedText 2 (n / 1000)) ++ "s")
  | _ => ok missing

def size : Filter := fun value _ =>
  match measurement? value with
  | none => ok missing
  | some n =>
      if n < 1024 then ok (Value.output (.number n) ++ "B")
      else if n < 1048576 then ok (String.ofList (Number.fixedText 1 (n / 1024)) ++ "KB")
      else ok (String.ofList (Number.fixedText 2 (n / 1048576)) ++ "MB")

/-- The text of a finding: its title, else its name, else the finding itself. -/
def itemLabel (item : Value) : String :=
  let named? (key : String) := (item.get? key).filter (!·.isNull)
  match named? "title" with
  | some title => title.output
  | none =>
      match named? "name" with
      | some name => name.output
      | none => item.output

/-- Formats a list of findings as lines with a dash. -/
def list : Filter := fun value _ =>
  match value with
  | .list (item :: items) =>
      ok ("\n".intercalate ((item :: items).map fun item => "- " ++ itemLabel item))
  | _ => ok noItems

/-- A finding in a ranking. -/
structure Ranked where
  percentage : Float
  label : String

/-- The rank of a finding: its percentage, zero without a score, and its text. -/
def rank (item : Value) : Ranked :=
  ⟨percentage (((item.get? "score").bind measurement?).getD 0), itemLabel item⟩

/-- The line of a ranked finding at a place. -/
def rankedLine (index : Nat) (item : Ranked) : String :=
  integerText (index + 1) ++ ". " ++ (Grade.of (wholePercentage item.percentage)).icon
    ++ " **" ++ item.label ++ "**"

/-- Formats a list of findings as numbered lines from the worst score to the best; findings
with equal scores keep their order.
-/
def prioritize : Filter := fun value _ =>
  match value with
  | .list (item :: items) =>
      let ranked := ((item :: items).map rank).mergeSort fun a b => a.percentage ≤ b.percentage
      ok ("\n".intercalate (ranked.mapIdx rankedLine))
  | _ => ok noItems

end ReportTemplate.Filter
