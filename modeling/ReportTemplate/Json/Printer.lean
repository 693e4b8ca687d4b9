import ReportTemplate.Json.Quoted
import ReportTemplate.Number.Notation
import ReportTemplate.Value.Basic

/-! JSON text of values, on one line or indented.
Numbers that are not finite have no JSON form and are written as `null`.
-/

namespace ReportTemplate.Json

def numberText (n : Float) : List Char :=
  Number.jsonStyle.plain n

def boolText (flag : Bool) : List Char :=
  if flag then ['t', 'r', 'u', 'e'] else ['f', 'a', 'l', 's', 'e']

/-- The JSON text of `null`. -/
def nullText : List Char :=
  ['n', 'u', 'l', 'l']

/-- The JSON text of a key and the colon after it. -/
def keyText (key : String) : List Char :=
  quote key.toList ++ [':']

mutual

/-- Writes a value on one line without blanks. -/
def compact : Value → List Char
  | .null => nullText
  | .bool flag => boolText flag
  | .number n => numberText n
  | .string text => quote text.toList
  | .list [] => ['[', ']']
  | .list (item :: items) => '[' :: compact item ++ compactItems items
  | .map [] => ['\x7b', '\x7d']
  | .map ((key, value) :: entries) =>
      '\x7b' :: keyText key ++ compact value ++ compactEntries entries

/-- Writes the items after the first and the closing bracket. -/
def compactItems : List Value → List Char
  | [] => [']']
  | item :: items => ',' :: compact item ++ compactItems items

/-- Writes the entries after the first and the closing brace. -/
def compactEntries : List (String × Value) → List Char
  | [] => ['\x7d']
  | (key, value) :: entries =>
      ',' :: keyText key ++ compact value ++ compactEntries entries

end

/-- A line break and the indentation of a nesting depth, two blanks for each level. -/
def newline (depth : Nat) : List Char :=
  '\n' :: List.replicate (2 * depth) ' '

mutual

/-- Writes a value over several lines, its nested values indented below `depth`. -/
def indented (depth : Nat) : Value → List Char
  | .null => nullText
  | .bool flag => boolText flag
  | .number n => numberText n
  | .string text => quote text.toList
  | .list [] => ['[', ']']
  | .list (item :: items) =>
      '[' :: newline (depth + 1) ++ indented (depth + 1) item ++ indentedItems depth items
  | .map [] => ['\x7b', '\x7d']
  | .map ((key, value) :: entries) =>
      '\x7b' :: newline (depth + 1) ++ keyText key ++ ' ' :: indented (depth + 1) value
        ++ indentedEntries depth entries

/-- Writes the items after the first and the closing bracket of a list at `depth`. -/
def indentedItems (depth : Nat) : List Value → List Char
  | [] => newline depth ++ [']']
  | item :: items =>
      ',' :: newline (depth + 1) ++ indented (depth + 1) item ++ indentedItems depth items

/-- Writes the entries after the first and the closing brace of a mapping at `depth`. -/
def indentedEntries (depth : Nat) : List (String × Value) → List Char
  | [] => newline depth ++ ['\x7d']
  | (key, value) :: entries =>
      ',' :: newline (depth + 1) ++ keyText key ++ ' ' :: indented (depth + 1) value
        ++ indentedEntries depth entries

end

end ReportTemplate.Json
