import ReportTemplate.Number.Notation
import ReportTemplate.Value.Text

/-! Filters: functions from a value and arguments to a value, which may fail. -/

namespace ReportTemplate

/-- Why a filter gives no value. -/
inductive FilterError where
  | missingArgument (name : String)
  | invalidArgument (name expected found : String)
  | failed (reason : String)
  deriving DecidableEq, Repr

def FilterError.message : FilterError → String
  | .missingArgument name => "missing required argument `" ++ name ++ "`"
  | .invalidArgument name expected found =>
      "invalid argument `" ++ name ++ "`: expected " ++ expected ++ ", found " ++ found
  | .failed reason => reason

/-- How a filter ends without a value: with an error, or broken off, perhaps with a message.
-/
inductive FilterFailure where
  | error (cause : FilterError)
  | broken (reason : Option String)
  deriving DecidableEq, Repr

def FilterFailure.toError : FilterFailure → FilterError
  | .error cause => cause
  | .broken (some reason) => .failed ("filter panicked: " ++ reason)
  | .broken none => .failed "filter panicked: unknown panic"

/-- A filter: it gets the value and the arguments behind its name. -/
abbrev Filter := Value → List Value → Except FilterFailure Value

namespace Filter

def fail {α : Type} (cause : FilterError) : Except FilterFailure α :=
  .error (.error cause)

def ok (text : String) : Except FilterFailure Value :=
  .ok (.string text)

def okChars (text : List Char) : Except FilterFailure Value :=
  .ok (.string (String.ofList text))

/-- The number argument at a place; `null` counts as none. -/
def numberArgument (arguments : List Value) (index : Nat) (name : String)
    : Except FilterFailure (Option Float) :=
  match arguments[index]? with
  | none => .ok none
  | some .null => .ok none
  | some (.number n) => .ok (some n)
  | some value => fail (.invalidArgument name "number" value.kind)

/-- The text of the argument at a place; `null` counts as none. -/
def textArgument (arguments : List Value) (index : Nat) : Option (List Char) :=
  match arguments[index]? with
  | none => none
  | some .null => none
  | some value => some value.outputChars

end Filter

end ReportTemplate
