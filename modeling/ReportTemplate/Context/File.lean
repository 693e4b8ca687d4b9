import ReportTemplate.Context.Basic
import ReportTemplate.Json.Reader
import ReportTemplate.Yaml.Reader

/-! Contexts read from text and from files.
The extension of a file's name says whether it holds JSON or YAML.
-/

namespace ReportTemplate.Context

def ofJson (text : String) : Except LoadError Context :=
  match Json.read? text.toList with
  | some value => ofValue value
  | none => .error .json

/-- Reads a context from YAML text; without a document it is empty. -/
def ofYaml (text : String) : Except LoadError Context :=
  match Yaml.read? text.toList with
  | some value => ofValue value
  | none => .error .yaml

/-- The last part of a path, where empty parts and single points do not count. -/
def fileName? (path : List Char) : Option (List Char) :=
  match ((Text.splitOn '/' path).filter fun part => part ≠ [] ∧ part ≠ ['.']).getLast? with
  | some name => if name = ['.', '.'] then none else some name
  | none => none

/-- The part of a file's name behind its last point, which is not its first character. -/
def extension? (path : List Char) : Option (List Char) :=
  match fileName? path with
  | none => none
  | some name =>
      let reversed := name.reverse
      if reversed.contains '.' ∧ (reversed.dropWhile (· ≠ '.')).length ≠ 1 then
        some (reversed.takeWhile (· ≠ '.')).reverse
      else none

/-- Holds for paths of JSON files, in any case of the extension. -/
def isJsonPath (path : String) : Bool :=
  (extension? path.toList).map (·.map Char.toLower) == some ['j', 's', 'o', 'n']

/-- Reads a context from what reading a file gives. -/
def ofFile (path : String) (content : Except FileError String) : Except LoadError Context :=
  match content with
  | .ok text => if isJsonPath path then ofJson text else ofYaml text
  | .error reason => .error (.file reason)

end ReportTemplate.Context
