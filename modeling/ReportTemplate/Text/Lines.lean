import ReportTemplate.Text.Split

/-! Lines of a text. -/

namespace ReportTemplate.Text

/-- Drops a carriage return at the end of a line. -/
def dropCarriageReturn (line : List Char) : List Char :=
  if line.getLast? = some '\r' then line.dropLast else line

/-- Finishes a row of pieces between line feeds: a carriage return before a line feed does
not count, and behind the last line feed an empty piece is no line.
-/
def finishLines : List (List Char) → List (List Char)
  | [] => []
  | [last] => if last.isEmpty then [] else [last]
  | line :: rest => dropCarriageReturn line :: finishLines rest

def lines (text : List Char) : List (List Char) :=
  finishLines (splitOn '\n' text)

end ReportTemplate.Text
