import ReportTemplate.FileError

/-! The operations that a command needs of its surroundings. -/

namespace ReportTemplate.Cli

/-- Surroundings with files and with two texts that lines are added to: the output and the
reports.
-/
class Host (m : Type → Type) where
  /-- Reads a file that holds text. -/
  readText (path : String) : m (Except FileError String)
  /-- Creates a folder, with the folders it lies in. -/
  createFolders (path : String) : m (Except FileError Unit)
  /-- Writes a file, replacing one that is there. -/
  writeText (path text : String) : m (Except FileError Unit)
  /-- Prints a line. -/
  printLine (line : String) : m Unit
  /-- Reports a line. -/
  reportLine (line : String) : m Unit

end ReportTemplate.Cli
