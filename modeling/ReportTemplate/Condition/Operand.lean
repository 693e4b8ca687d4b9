import ReportTemplate.Scope

/-! Operands: where a condition, an interpolation or a filter call takes a value from. -/

namespace ReportTemplate

/-- A source of one value. -/
inductive Operand where
  | literal (constant : Value)
  | path (name : String)

/-- The value of an operand in a scope. -/
def Operand.eval (scope : Scope) : Operand → Value
  | .literal constant => constant
  | .path name => scope.resolve name

end ReportTemplate
