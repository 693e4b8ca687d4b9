/-! Character ranges. -/

namespace ReportTemplate.Text

/-- Holds when a number lies in one of the closed ranges. -/
def inRanges (ranges : List (Nat × Nat)) (n : Nat) : Bool :=
  ranges.any fun range => range.1 ≤ n && n ≤ range.2

end ReportTemplate.Text
