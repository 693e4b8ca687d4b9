import ReportTemplate.Text.Blank
import ReportTemplate.Text.Split

/-! Tidying of rendered text: no blanks at the ends of lines, at most one empty line in a row,
and no blanks around the whole.
-/

namespace ReportTemplate

/-- Drops line feeds behind two others in a row, of which `count` come before the text. -/
def collapseBreaks (count : Nat) : List Char → List Char
  | [] => []
  | c :: rest =>
      if c = '\n' then
        if count < 2 then c :: collapseBreaks (count + 1) rest
        else collapseBreaks count rest
      else c :: collapseBreaks 0 rest

/-- Drops the blanks at the end of every line. -/
def trimLines (text : List Char) : List Char :=
  Text.join ['\n'] ((Text.splitOn '\n' text).map Text.trimEnd)

def normalize (text : List Char) : List Char :=
  Text.trim (collapseBreaks 0 (trimLines text))

end ReportTemplate
