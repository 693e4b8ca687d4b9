/-! Edit distance of texts.
One row of distances to the beginnings of the second text is kept for each beginning of the
first.
-/

namespace ReportTemplate.Text

/-- Computes the row behind a character. `left` is the entry before the remaining ones, and
`diagonal` the entry above it.
-/
def nextEntries (c : Char) (left diagonal : Nat) : List Char → List Nat → List Nat
  | d :: ds, above :: row =>
      let entry := min (min (left + 1) (above + 1)) (diagonal + if c = d then 0 else 1)
      entry :: nextEntries c entry above ds row
  | _, _ => []

/-- The row of the next beginning of the first text. -/
def nextRow (second : List Char) (row : List Nat) (c : Char) : List Nat :=
  match row with
  | [] => []
  | first :: rest => (first + 1) :: nextEntries c (first + 1) first second rest

/-- The least count of characters inserted, removed or changed to get from one text to
another.
-/
def distance (first second : List Char) : Nat :=
  (first.foldl (nextRow second) (List.range (second.length + 1))).getLast?.getD 0

end ReportTemplate.Text
