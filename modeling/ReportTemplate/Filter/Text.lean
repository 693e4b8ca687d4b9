import ReportTemplate.Filter.General
import ReportTemplate.Text.Lines
import ReportTemplate.Text.Replace

/-! Filters for texts. -/

namespace ReportTemplate.Filter

/-- Drops blanks at both ends of a text. -/
def trim : Filter := fun value _ =>
  match value with
  | .string text => okChars (Text.trim text.toList)
  | _ => .ok value

/-- Puts the first character of a text in upper case and the others in lower case. -/
def capitalize : Filter := fun value _ =>
  match value with
  | .string text => okChars (Text.capitalize text.toList)
  | _ => .ok value

/-- Replaces every occurrence of the first argument in a text by the second, nothing unless
given.
-/
def replace : Filter := fun value arguments =>
  match textArgument arguments 0 with
  | none => fail (.missingArgument "from")
  | some part =>
      match value with
      | .string text => okChars (Text.replace part ((textArgument arguments 1).getD []) text.toList)
      | _ => .ok value

def maxIndent : Float := 1024

/-- Indents the lines of the value's text that are not empty, by two blanks unless given. -/
def indent : Filter := fun value arguments => do
  if value.isNull then return .null
  let width := (← numberArgument arguments 0 "width").getD 2
  if maxIndent < width then
    fail (.failed ("indent width " ++ String.ofList (Number.outputStyle.text width)
      ++ " exceeds the maximum of " ++ String.ofList (Number.outputStyle.text maxIndent)))
  else
    let margin := List.replicate (Number.truncateCount width) ' '
    let indentLine (line : List Char) := if line.isEmpty then [] else margin ++ line
    okChars (Text.join ['\n'] ((Text.lines value.outputChars).map indentLine))

end ReportTemplate.Filter
