import ReportTemplate.Condition.Reader
import ReportTemplate.Filter.Registry
import ReportTemplate.Template.Log

/-! Expressions of interpolations: an operand and the filters that its value goes through. -/

namespace ReportTemplate.Template

/-- Where a character stands with regard to quotes. -/
inductive Quoting where
  | outside
  | inside (quote : Char)
  | escaped (quote : Char)
  deriving DecidableEq, Repr

/-- The state behind a character: a backslash protects the next character from closing the
quotes.
-/
def Quoting.next (c : Char) : Quoting → Quoting
  | .outside => if c = '"' ∨ c = '\'' then .inside c else .outside
  | .inside quote =>
      if c = '\\' then .escaped quote
      else if c = quote then .outside
      else .inside quote
  | .escaped quote => .inside quote

def consFirst (c : Char) : List (List Char) → List (List Char)
  | [] => [[c]]
  | piece :: pieces => (c :: piece) :: pieces

/-- Cuts a text at the separators outside quotes; `none` when a quote stays open. -/
def splitFrom (separator : Char) : Quoting → List Char → Option (List (List Char))
  | .outside, [] => some [[]]
  | _, [] => none
  | state, c :: rest =>
      if state = .outside ∧ c = separator then (splitFrom separator .outside rest).map ([] :: ·)
      else (splitFrom separator (state.next c) rest).map (consFirst c)

/-- Cuts a text at the separators outside quotes. -/
def splitUnquoted (separator : Char) (text : List Char) : Option (List (List Char)) :=
  splitFrom separator .outside text

/-- A filter's name and its arguments. -/
structure FilterCall where
  name : String
  arguments : List Operand

namespace FilterCall

def insideParentheses? (text : List Char) : Option (List Char) :=
  match text with
  | '(' :: rest => if rest.getLast? = some ')' then some rest.dropLast else none
  | _ => none

/-- Reads arguments between commas; a blank text has none. -/
def arguments? (text : List Char) : Option (List Operand) :=
  if Text.isBlankText text then some []
  else (splitUnquoted ',' text).bind (·.mapM Operand.read?)

/-- Reads a filter call: a name, and arguments in parentheses if there are any. -/
def read? (text : List Char) : Option FilterCall :=
  let text := Text.trim text
  let name := text.takeWhile Registry.isNameChar
  let rest := Text.trim (text.dropWhile Registry.isNameChar)
  if name.isEmpty then none
  else if rest.isEmpty then some ⟨String.ofList name, []⟩
  else
    ((insideParentheses? rest).bind arguments?).map fun arguments =>
      ⟨String.ofList name, arguments⟩

/-- Applies a filter to a value. A filter that is unknown or fails leaves the value and is
noted.
-/
def apply (registry : Registry) (scope : Scope) (value : Value) (call : FilterCall)
    : Logged Value :=
  match registry.apply call.name value (call.arguments.map (·.eval scope)) with
  | .applied result => pure result
  | .unknown =>
      .raise (.unknownFilter call.name (Match.hint? call.name registry.names)) value
  | .failed reason => .raise (.failedFilter call.name reason) value

end FilterCall

/-- The expression of an interpolation. -/
structure Expression where
  base : Operand
  calls : List FilterCall

namespace Expression

/-- Reads an expression: an operand and filter calls between bars. -/
def read? (text : List Char) : Option Expression := do
  match ← splitUnquoted '|' text with
  | [] => none
  | base :: calls => return ⟨← Operand.read? base, ← calls.mapM FilterCall.read?⟩

/-- The value of an expression: each filter gets what the one before it leaves. -/
def eval (registry : Registry) (scope : Scope) (expression : Expression) : Logged Value :=
  expression.calls.foldlM (FilterCall.apply registry scope) (expression.base.eval scope)

end Expression

end ReportTemplate.Template
