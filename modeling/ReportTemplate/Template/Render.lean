import ReportTemplate.Template.Choice
import ReportTemplate.Template.Loop

/-! Renders: loops are expanded first, then choices are resolved, and the interpolations left
are replaced last. Choices see the data of the render only, not the frames of loops.
-/

namespace ReportTemplate.Template

def render (registry : Registry) (data : Value) (template : List Char) : Logged (List Char) := do
  let scope : Scope := { data }
  let expanded ← expandLoops registry scope template
  let resolved ← resolveChoices scope expanded
  interpolate registry scope resolved

end ReportTemplate.Template
