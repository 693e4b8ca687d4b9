import ReportTemplate.Yaml.Source

/-! The layout of written YAML text: where the next character stands and what is before it.
A line is indented when it starts, and a mark keeps one blank from the text before it.
-/

namespace ReportTemplate.Yaml

/-- Written text and the place behind it. -/
structure Layout where
  /-- The text in reverse. -/
  reversed : List Char := []
  /-- The column of the next character. -/
  column : Nat := 0
  /-- Whether a blank or nothing is before the next character. -/
  afterBlank : Bool := true
  /-- Whether only indentation and marks are before the next character on its line. -/
  inIndent : Bool := true
  /-- Whether the end of the text has to be marked, for line breaks at its end. -/
  openEnd : Bool := false

namespace Layout

def put (c : Char) (layout : Layout) : Layout :=
  { layout with reversed := c :: layout.reversed, column := layout.column + 1 }

def puts (text : List Char) (layout : Layout) : Layout :=
  text.foldl (fun layout c => layout.put c) layout

def putBreak (c : Char) (layout : Layout) : Layout :=
  { layout with reversed := c :: layout.reversed, column := 0 }

def mark (afterBlank inIndent : Bool) (layout : Layout) : Layout :=
  { layout with afterBlank, inIndent }

def separate (layout : Layout) : Layout :=
  if layout.afterBlank then layout else layout.put ' '

/-- Goes to a column of a line that has nothing but indentation before it. -/
def indentTo (column : Nat) (layout : Layout) : Layout :=
  let fresh :=
    if !layout.inIndent || column < layout.column
        || (layout.column = column && !layout.afterBlank) then
      layout.putBreak '\n'
    else layout
  (fresh.puts (List.replicate (column - fresh.column) ' ')).mark true true

/-- Writes a mark; `indents` says that the line counts as indentation behind it. -/
def indicator (text : List Char) (afterBlank indents : Bool) (layout : Layout) : Layout :=
  (layout.puts text).mark afterBlank (layout.inIndent && indents)

def text (layout : Layout) : List Char :=
  layout.reversed.reverse

end Layout

end ReportTemplate.Yaml
