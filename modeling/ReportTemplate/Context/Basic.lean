import ReportTemplate.FileError
import ReportTemplate.Scope

/-! Render contexts: the mapping that templates read their data from.
Contexts are merged deeply and changed along dotted paths; keys keep their positions.
-/

namespace ReportTemplate

namespace Value

mutual

/-- Lays a value over another: two mappings are merged, anything else is replaced. -/
def overlay : Value → Value → Value
  | .map base, .map upper => .map (overlayEntries base upper)
  | _, upper => upper

/-- Lays entries over others one by one: known keys keep their positions, new ones follow. -/
def overlayEntries : Entries Value → List (String × Value) → Entries Value
  | base, [] => base
  | base, (key, upper) :: rest =>
      let value :=
        match base.lookup key with
        | some lower => overlay lower upper
        | none => upper
      overlayEntries (base.insert key value) rest

end

/-- Stores a value in nested mappings along keys. A value on the way that is missing or not a
mapping becomes one; without keys nothing is stored.
-/
def storeAt (entries : Entries Value) : List String → Value → Entries Value
  | [], _ => entries
  | [key], value => entries.insert key value
  | key :: rest, value =>
      let inner :=
        match entries.lookup key with
        | some (.map inner) => inner
        | _ => []
      entries.insert key (.map (storeAt inner rest value))

end Value

/-- The data of one render: a mapping at the top level. -/
structure Context where
  entries : Entries Value := []

namespace Context

/-- Merges another context into this one, the other's values winning. -/
def merge (context other : Context) : Context :=
  ⟨Value.overlayEntries context.entries other.entries⟩

/-- Merges contexts in order, later ones winning. -/
def mergeAll (contexts : List Context) : Context :=
  contexts.foldl merge {}

def set (context : Context) (path : String) (value : Value) : Context :=
  ⟨Value.storeAt context.entries (Scope.segments path) value⟩

def toValue (context : Context) : Value :=
  .map context.entries

/-- The value at a dotted path, if any. -/
def get? (context : Context) (path : String) : Option Value :=
  context.toValue.follow (Scope.segments path)

/-- Why a context cannot be loaded. -/
inductive LoadError where
  | yaml
  | json
  | file (reason : FileError)
  | override (argument : String)
  | shape (found : String)
  deriving DecidableEq, Repr

def LoadError.message : LoadError → String
  | .yaml => "Failed to parse YAML context"
  | .json => "Failed to parse JSON context"
  | .file reason => "IO error: " ++ reason.message
  | .override argument => "Invalid --set format: '" ++ argument ++ "'. Expected key=value"
  | .shape found => "Context must be a mapping at the top level, found " ++ found

/-- Takes a value as context: a mapping, or `null` as the empty context. -/
def ofValue : Value → Except LoadError Context
  | .map entries => .ok ⟨entries⟩
  | .null => .ok {}
  | value => .error (.shape value.kind)

end Context

end ReportTemplate
