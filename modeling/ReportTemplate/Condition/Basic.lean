import ReportTemplate.Condition.Operand

/-! Conditions and their truth in a scope. -/

namespace ReportTemplate

/-- A comparison of two values. -/
inductive Comparison where
  | eq
  | ne
  | gt
  | lt
  | ge
  | le
  deriving DecidableEq, Repr

namespace Comparison

def symbol : Comparison → String
  | .eq => "=="
  | .ne => "!="
  | .gt => ">"
  | .lt => "<"
  | .ge => ">="
  | .le => "<="

def all : List Comparison :=
  [.eq, .ne, .gt, .lt, .ge, .le]

def ofSymbol? (symbol : List Char) : Option Comparison :=
  all.find? fun comparison => comparison.symbol.toList = symbol

def holdsForNumbers : Comparison → Float → Float → Bool
  | .eq, a, b => a == b
  | .ne, a, b => a != b
  | .gt, a, b => decide (b < a)
  | .lt, a, b => decide (a < b)
  | .ge, a, b => decide (b ≤ a)
  | .le, a, b => decide (a ≤ b)

/-- Compares two values. All values can be equal or not; only numbers have an order. -/
def holds (comparison : Comparison) (left right : Value) : Bool :=
  match comparison with
  | .eq => left == right
  | .ne => !(left == right)
  | ordering =>
      match left, right with
      | .number a, .number b => ordering.holdsForNumbers a b
      | _, _ => false

end Comparison

/-- A condition on the values in scope. -/
inductive Condition where
  | operand (source : Operand)
  | compare (left : Operand) (comparison : Comparison) (right : Operand)
  | not (inner : Condition)
  | and (left right : Condition)
  | or (left right : Condition)

/-- The truth of a condition in a scope. -/
def Condition.holds (scope : Scope) : Condition → Bool
  | .operand source => (source.eval scope).truthy
  | .compare left comparison right =>
      comparison.holds (left.eval scope) (right.eval scope)
  | .not inner => !inner.holds scope
  | .and left right => left.holds scope && right.holds scope
  | .or left right => left.holds scope || right.holds scope

end ReportTemplate
