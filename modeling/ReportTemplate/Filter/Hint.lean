import ReportTemplate.Text.Distance

/-! Hints at names that are close to an unknown one. -/

namespace ReportTemplate

/-- A known name and its distance from the unknown one. -/
structure Match where
  text : String
  distance : Nat
  deriving DecidableEq, Repr

namespace Match

def maxDistance : Nat := 3

def distanceOf (first second : String) : Nat :=
  Text.distance first.toList second.toList

/-- A candidate as a match, if it is close and not the name itself. -/
def of? (name candidate : String) : Option Match :=
  let distance := distanceOf name candidate
  if 0 < distance ∧ distance ≤ maxDistance then some ⟨candidate, distance⟩ else none

/-- The order of matches: by distance, then by text. -/
def before (a b : Match) : Bool :=
  a.distance < b.distance || (a.distance == b.distance && decide (a.text ≤ b.text))

/-- The best matches among candidates, at most `limit`. -/
def closest (name : String) (candidates : List String) (limit : Nat) : List Match :=
  ((candidates.filterMap (of? name)).mergeSort before).take limit

def hintLimit : Nat := 3

/-- A question that names the best matches, if there are any. -/
def hint? (name : String) (candidates : List String) : Option String :=
  match closest name candidates hintLimit with
  | [] => none
  | found =>
      some ("Did you mean " ++ " or ".intercalate (found.map fun m => "`" ++ m.text ++ "`")
        ++ "?")

end Match

end ReportTemplate
