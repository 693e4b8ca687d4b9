import ReportTemplate.Context.Basic
import ReportTemplate.Json.Reader

/-! Overrides: `key=value` arguments that set single values of a context. -/

namespace ReportTemplate.Context

/-- A value to be stored at a dotted path. -/
structure Override where
  path : String
  value : Value

namespace Override

/-- Holds for the brackets that start inline JSON. -/
def startsJson : List Char → Bool
  | '[' :: _ => true
  | '\x7b' :: _ => true
  | _ => false

/-- Reads the value of an override: a literal word, an integer, another number, inline JSON, else
the text.
-/
def readValue (text : String) : Value :=
  match text with
  | "true" => .bool true
  | "false" => .bool false
  | "null" => .null
  | _ =>
      match Number.int64 text.toList with
      | some n => .number (Float.ofInt n)
      | none =>
          match Number.float text.toList with
          | some n => .number n
          | none =>
              if startsJson text.toList then (Json.read? text.toList).getD (.string text)
              else .string text

/-- Reads an override at its first equals sign; blanks around the path do not count, and the
path is not blank.
-/
def read (argument : String) : Except LoadError Override :=
  match Text.splitOnce '=' argument.toList with
  | none => .error (.override argument)
  | some (path, value) =>
      if Text.isBlankText path then .error (.override argument)
      else .ok ⟨String.ofList (Text.trim path), readValue (String.ofList value)⟩

end Override

/-- Builds a context from overrides, each stored over the ones before it. -/
def ofOverrides (arguments : List String) : Except LoadError Context :=
  arguments.foldlM (fun context argument => do
    let change ← Override.read argument
    return context.set change.path change.value) {}

end ReportTemplate.Context
