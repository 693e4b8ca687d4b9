/-! Replacing parts of a text. -/

namespace ReportTemplate.Text

/-- Replaces the occurrences of a part from left to right, `skip` characters of the text being
replaced already. An empty part does not occur.
-/
def replaceFrom (part replacement : List Char) (skip : Nat) : List Char → List Char
  | [] => []
  | c :: rest =>
      match skip with
      | skip + 1 => replaceFrom part replacement skip rest
      | 0 =>
          if part ≠ [] ∧ part.isPrefixOf (c :: rest) then
            replacement ++ replaceFrom part replacement (part.length - 1) rest
          else c :: replaceFrom part replacement 0 rest

def replace (part replacement text : List Char) : List Char :=
  replaceFrom part replacement 0 text

end ReportTemplate.Text
