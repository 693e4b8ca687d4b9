import ReportTemplate.Json.Printer

/-! Values as output text. -/

namespace ReportTemplate.Value

/-- The text of a value that is not `null`: lists and mappings as JSON on one line. -/
def shownChars : Value → List Char
  | .null => ['n', 'u', 'l', 'l']
  | .bool flag => Json.boolText flag
  | .number n => Number.outputStyle.plain n
  | .string text => text.toList
  | .list items => Json.compact (.list items)
  | .map entries => Json.compact (.map entries)

/-- The text that a value puts into the output: nothing for `null`. -/
def outputChars : Value → List Char
  | .null => []
  | .string text => text.toList
  | value => value.shownChars

/-- The text of a value, `null` included. -/
def shown (value : Value) : String :=
  String.ofList value.shownChars

/-- The text that a value puts into the output. -/
def output (value : Value) : String :=
  String.ofList value.outputChars

end ReportTemplate.Value
