import ReportTemplate.Text.Blank
import ReportTemplate.Text.Split
import ReportTemplate.Value.Basic

/-! Scopes of names: the data of a render under the frames of the loops around a place.
A name is looked up from the innermost frame outwards, and a dotted path walks on from the
value of its first segment.
-/

namespace ReportTemplate

/-- The names visible at one place of a template, frames innermost first. -/
structure Scope where
  data : Value
  frames : List (Entries Value) := []

namespace Scope

/-- Adds a frame whose names hide equal names outside. -/
def push (scope : Scope) (frame : Entries Value) : Scope :=
  { scope with frames := frame :: scope.frames }

/-- Looks a name up in frames and then in the data below them. -/
def lookupIn (data : Value) : List (Entries Value) → String → Option Value
  | [], name => data.get? name
  | frame :: frames, name =>
      match frame.lookup name with
      | some value => some value
      | none => lookupIn data frames name

/-- Looks a name up, the innermost binding first. -/
def lookup (scope : Scope) (name : String) : Option Value :=
  lookupIn scope.data scope.frames name

/-- The segments between the dots of a path. -/
def segments (path : String) : List String :=
  (Text.splitOn '.' path.toList).map String.ofList

/-- The value at a dotted path. Blanks around the path do not count, and nothing is at the
empty path, behind a missing key or inside a value that is not a mapping.
-/
def resolve? (scope : Scope) (path : String) : Option Value :=
  match Text.trim path.toList with
  | [] => none
  | c :: rest =>
      match segments (String.ofList (c :: rest)) with
      | [] => none
      | name :: keys => (scope.lookup name).bind fun value => value.follow keys

/-- The value at a dotted path, `null` where there is none. -/
def resolve (scope : Scope) (path : String) : Value :=
  (scope.resolve? path).getD .null

end Scope

end ReportTemplate
