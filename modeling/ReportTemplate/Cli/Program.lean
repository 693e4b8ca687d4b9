import ReportTemplate.Cli.Failure
import ReportTemplate.Cli.Guide
import ReportTemplate.Cli.Host
import ReportTemplate.Context.File
import ReportTemplate.Context.Override
import ReportTemplate.Yaml.Printer

/-! The program: its commands, run against their surroundings. -/

namespace ReportTemplate.Cli

/-- The path of the folder that a path lies in, unless that is the working folder itself.
Slashes at the end and parts that stay in place do not count.
-/
def folderOf? (path : String) : Option String :=
  let parts := (Text.splitOn '/' path.toList).reverse.dropWhile fun part =>
    part = [] ∨ part = ['.']
  match parts with
  | [] => none
  | [_] => none
  | [_, []] => some "/"
  | _ :: outer => some (String.ofList (Text.join ['/'] outer.reverse))

section Commands

variable {m : Type → Type} [Monad m] [Host m]

/-- Turns the refusal of an operation into a failure of the command. -/
def expect {α ε : Type} (explain : ε → Failure) (operation : m (Except ε α))
    : ExceptT Failure m α :=
  ExceptT.mk do return (← operation).mapError explain

def printLines (lines : List String) : m Unit :=
  lines.forM Host.printLine

/-- Reports a step that only debug mode mentions. -/
def note (debug : Bool) (message : String) : m Unit :=
  if debug then Host.reportLine ("DEBUG " ++ message) else pure ()

def loadFile (path : String) : ExceptT Failure m Context :=
  expect (Failure.loading path) do return Context.ofFile path (← Host.readText path)

/-- Merges the context in a file into another one. -/
def addFile (debug : Bool) (context : Context) (path : String) : ExceptT Failure m Context := do
  let loaded ← loadFile path
  note (m := m) debug ("merged context from " ++ path)
  return context.merge loaded

/-- Merges overrides, if there are any, into a context. -/
def addOverrides (debug : Bool) (arguments : List String) (context : Context)
    : ExceptT Failure m Context := do
  if arguments.isEmpty then return context
  let overrides ← expect Failure.ofLoad (pure (Context.ofOverrides arguments))
  note (m := m) debug ("applied " ++ toString arguments.length ++ " --set values")
  return context.merge overrides

/-- Loads the context of a rendering: its files merged in order, then its overrides. -/
def loadContext (debug : Bool) (settings : RenderSettings) : ExceptT Failure m Context := do
  let context ← settings.contexts.foldlM (addFile debug) {}
  addOverrides debug settings.overrides context

def contextLines (context : Context) : List String :=
  ["# Context", "---", String.ofList (Text.trimEnd (Yaml.print context.toValue)), "---", ""]

def engineOf (settings : RenderSettings) : Except EngineError Engine :=
  (Engine.Builder.normalize {} (!settings.raw)).build

/-- Writes a file and says so. -/
def writeFile (path text : String) : ExceptT Failure m Unit := do
  expect (Failure.atPath path) (Host.writeText path text)
  Host.printLine (m := m) ("wrote " ++ path)

/-- Writes rendered text to a file, in a folder that is created when it is missing. -/
def writeOutput (path text : String) : ExceptT Failure m Unit := do
  match folderOf? path with
  | some folder => expect (Failure.atPath folder) (Host.createFolders folder)
  | none => pure ()
  writeFile path text

/-- Writes rendered text to a file if there is one to write, and prints it otherwise. -/
def deliver (text : String) : Option String → ExceptT Failure m Unit
  | some path => writeOutput path text
  | none => Host.printLine (m := m) text

/-- Renders a template with a context, to a file or as output. -/
def render (debug : Bool) (options : RenderOptions) : ExceptT Failure m Unit := do
  let template ← expect (Failure.atPath options.template) (Host.readText options.template)
  note (m := m) debug ("loaded template " ++ options.template ++ " ("
    ++ toString template.utf8ByteSize ++ " bytes)")
  let context ← loadContext debug options.toRenderSettings
  if options.showsContext then printLines (m := m) (contextLines context)
  let engine ← expect Failure.ofEngine (pure (engineOf options.toRenderSettings))
  let rendered := engine.compile template context.toValue
  rendered.log.forM fun event =>
    Host.reportLine (m := m) (event.level.name ++ " " ++ event.message)
  deliver rendered.value options.output

def listFilters : m Unit :=
  let names := Engine.filterNames {}
  printLines (("Available filters (" ++ toString names.length ++ ")")
    :: names.map fun name => "  " ++ name)

def runCommand (debug : Bool) : Command → ExceptT Failure m Unit
  | .render options => render debug options
  | .filters => listFilters (m := m)

/-- Runs the program on its arguments and gives its exit code. -/
def run (arguments : List String) : m Nat := do
  match Invocation.read arguments with
  | .error error =>
      Host.reportLine error.report
      return 2
  | .ok (.help topic) =>
      Host.printLine topic.helpText
      return 0
  | .ok (.version topic) =>
      Host.printLine topic.versionText
      return 0
  | .ok (.run command debug) =>
      match ← (runCommand debug command).run with
      | .ok _ => return 0
      | .error failure =>
          Host.reportLine failure.report
          return failure.exitCode

end Commands

end ReportTemplate.Cli
