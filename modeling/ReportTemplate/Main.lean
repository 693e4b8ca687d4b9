import ReportTemplate.Cli.Program

/-! The program's entry, run in the real surroundings. -/

namespace ReportTemplate.Cli

/-- The failure behind an error of the operating system. -/
def reasonOf : IO.Error → FileError
  | .noFileOrDirectory .. => .absent
  | error => .other (toString error)

/-- What an operation gives, with its error as a failure. -/
def attempt {α : Type} (operation : IO α) : IO (Except FileError α) :=
  try
    return .ok (← operation)
  catch error =>
    return .error (reasonOf error)

/-- Commands run on the real files, the standard output and the standard error. -/
instance : Host IO where
  readText path := do
    match ← attempt (IO.FS.readBinFile path) with
    | .error reason => return .error reason
    | .ok bytes =>
        match String.fromUTF8? bytes with
        | some text => return .ok text
        | none => return .error .notText
  createFolders path := attempt (IO.FS.createDirAll path)
  writeText path text := attempt (IO.FS.writeFile path text)
  printLine line := IO.println line
  reportLine line := IO.eprintln line

end ReportTemplate.Cli

/-- Runs the program and exits with its code. -/
def main (arguments : List String) : IO UInt32 := do
  return (← ReportTemplate.Cli.run arguments).toUInt32
