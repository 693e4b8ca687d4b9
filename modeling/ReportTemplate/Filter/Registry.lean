import ReportTemplate.Filter.Hint
import ReportTemplate.Filter.Text

/-! Registries of filters by name.
A later filter of a name replaces an earlier one and keeps its place.
-/

namespace ReportTemplate

/-- Filters by name, in the order of their first registration. -/
structure Registry where
  filters : Entries Filter := []

/-- Why a filter cannot be registered. -/
structure RegistrationError where
  name : String
  suggestion : Option String
  deriving DecidableEq, Repr

/-- What is wrong with the name of a filter. -/
def RegistrationError.reason (error : RegistrationError) : String :=
  if error.name.isEmpty then "filter names cannot be empty"
  else "filter names must start with a letter or `_` and contain only letters, digits and `_`"

/-- What becomes of a value at a filter. -/
inductive Outcome where
  | applied (value : Value)
  | unknown
  | failed (error : FilterError)

namespace Registry

def builtins : Registry where
  filters := [
    ("score", Filter.score), ("metric", Filter.metric), ("size", Filter.size),
    ("list", Filter.list), ("prioritize", Filter.prioritize), ("json", Filter.json),
    ("upper", Filter.upper), ("lower", Filter.lower), ("default", Filter.fallback),
    ("length", Filter.length), ("first", Filter.first), ("last", Filter.last),
    ("join", Filter.join), ("truncate", Filter.truncate), ("round", Filter.round),
    ("trim", Filter.trim), ("capitalize", Filter.capitalize), ("replace", Filter.replace),
    ("indent", Filter.indent), ("keys", Filter.keys), ("reverse", Filter.reverse)]

def names (registry : Registry) : List String :=
  registry.filters.keys

def size (registry : Registry) : Nat :=
  registry.filters.length

def contains (registry : Registry) (name : String) : Bool :=
  (registry.filters.lookup name).isSome

def isNameChar (c : Char) : Bool :=
  c.isAlphanum || c = '_'

/-- Holds for names that templates can refer to: a letter or underscore comes first. -/
def isName : List Char → Bool
  | [] => false
  | c :: rest => (c.isAlpha || c = '_') && rest.all isNameChar

/-- A name like a given one without characters that names do not have. -/
def sanitize (name : String) : String :=
  String.ofList ((Text.trim name.toList).map fun c => if c.isAlphanum then c else '_')

/-- The suggestion for a name that cannot be registered. -/
def suggestion (registry : Registry) (name : String) : Option String :=
  let sanitized := sanitize name
  match Match.hint? sanitized registry.names with
  | some hint => some hint
  | none => if sanitized.isEmpty then none else some ("Try `" ++ sanitized ++ "`")

/-- Registers a filter under a name that templates can refer to. -/
def register (registry : Registry) (name : String) (filter : Filter)
    : Except RegistrationError Registry :=
  if isName name.toList then .ok ⟨registry.filters.insert name filter⟩
  else .error ⟨name, registry.suggestion name⟩

/-- Applies the filter of a name to a value and arguments. -/
def apply (registry : Registry) (name : String) (value : Value) (arguments : List Value)
    : Outcome :=
  match registry.filters.lookup name with
  | none => .unknown
  | some filter =>
      match filter value arguments with
      | .ok result => .applied result
      | .error failure => .failed failure.toError

end Registry

end ReportTemplate
