import ReportTemplate.Cli.FileTree
import ReportTemplate.Cli.Host

/-! Machines: surroundings as plain data, in which every run of the program can be replayed. -/

namespace ReportTemplate.Cli

/-- Files, what has been printed, and the lines that have been reported. -/
structure Machine where
  files : FileTree := {}
  output : String := ""
  reports : List String := []

namespace Machine

/-- Commands run on machines by changing them. -/
instance : Host (StateM Machine) where
  readText path := do return (← get).files.readText path
  createFolders path := modifyGet fun machine =>
    let (files, result) := machine.files.createFolders path
    (result, { machine with files })
  writeText path text := modifyGet fun machine =>
    match machine.files.writeText path text with
    | .ok files => (.ok (), { machine with files })
    | .error reason => (.error reason, machine)
  printLine line := modify fun machine =>
    { machine with output := machine.output ++ line ++ "\n" }
  reportLine line := modify fun machine =>
    { machine with reports := machine.reports ++ [line] }

end Machine

end ReportTemplate.Cli
