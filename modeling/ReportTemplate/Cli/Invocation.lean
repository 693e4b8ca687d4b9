import ReportTemplate.Cli.Argument

/-! Invocations: what a command line asks the program to do. -/

namespace ReportTemplate.Cli

/-- The choices of a rendering, apart from its template. -/
structure RenderSettings where
  contexts : List String := []
  overrides : List String := []
  raw : Bool := false
  output : Option String := none
  showsContext : Bool := false
  deriving DecidableEq, Repr

/-- A rendering: the template's path and the choices for it. -/
structure RenderOptions extends RenderSettings where
  template : String
  deriving DecidableEq, Repr

/-- The commands. -/
inductive Command where
  | render (options : RenderOptions)
  | filters
  deriving DecidableEq, Repr

/-- What help and version texts are about. -/
inductive Topic where
  | program
  | render
  | filters
  | help
  deriving DecidableEq, Repr

/-- What a command line asks for. -/
inductive Invocation where
  | run (command : Command) (debug : Bool)
  | help (topic : Topic)
  | version (topic : Topic)
  deriving DecidableEq, Repr

/-- A rendering whose arguments are being read. -/
structure RenderDraft extends RenderSettings where
  template : Option String := none
  debug : Bool := false
  deriving DecidableEq, Repr

namespace Invocation

/-- Turns a flag on, once. -/
def switch (name : String) (isOn : Bool) : Except UsageError Bool :=
  if isOn then .error (.repeated name) else .ok true

/-- A path given as a value, which is not empty. -/
def path (name : String) (value : String) : Except UsageError String :=
  if value = "" then .error (.missingValue name) else .ok value

def commonOption {σ : Type} : String → Option (Effect σ)
  | "-h" => some (.stop .help)
  | "--help" => some (.stop .help)
  | "-V" => some (.stop .version)
  | "--version" => some (.stop .version)
  | _ => none

/-- Stores a context file behind those given before. -/
def addContext (value : String) (draft : RenderDraft) : Except UsageError RenderDraft := do
  return { draft with contexts := draft.contexts ++ [← path "--context" value] }

def addOverride (value : String) (draft : RenderDraft) : Except UsageError RenderDraft :=
  .ok { draft with overrides := draft.overrides ++ [value] }

/-- Stores the output path, once. -/
def setOutput (value : String) (draft : RenderDraft) : Except UsageError RenderDraft := do
  if draft.output.isSome then .error (.repeated "--output")
  else return { draft with output := some (← path "--output" value) }

/-- Stores the template's path, the only operand of a rendering. -/
def setTemplate (text : String) (draft : RenderDraft) : Except UsageError RenderDraft := do
  if draft.template.isSome then .error (.unexpected text)
  else return { draft with template := some (← path "<TEMPLATE>" text) }

/-- The arguments of the `render` command. -/
def renderSignature : Signature RenderDraft where
  option
    | "-c" => some (.value addContext)
    | "--context" => some (.value addContext)
    | "--set" => some (.value addOverride)
    | "-o" => some (.value setOutput)
    | "--output" => some (.value setOutput)
    | "--raw" => some (.flag fun draft => do
        return { draft with raw := ← switch "--raw" draft.raw })
    | "--show-context" => some (.flag fun draft => do
        return { draft with showsContext := ← switch "--show-context" draft.showsContext })
    | "--debug" => some (.flag fun draft => do
        return { draft with debug := ← switch "--debug" draft.debug })
    | name => commonOption name
  operand := setTemplate

/-- The arguments of the `filters` command: whether it runs in debug mode. -/
def filtersSignature : Signature Bool where
  option
    | "--debug" => some (.flag (switch "--debug"))
    | name => commonOption name
  operand text _ := .error (.unexpected text)

/-- The invocation for arguments of a command that were read or that stopped early. -/
def ofReading {σ : Type} (topic : Topic) (finish : σ → Except UsageError Invocation)
    : Except Stop σ → Except UsageError Invocation
  | .ok settings => finish settings
  | .error (.usage error) => .error error
  | .error .help => .ok (.help topic)
  | .error .version => .ok (.version topic)

/-- Reads the arguments of the `render` command. -/
def readRender (debug : Bool) (arguments : List String) : Except UsageError Invocation :=
  ofReading .render (fun draft =>
    match draft.template with
    | some template => .ok (.run (.render { draft with template }) (debug || draft.debug))
    | none => .error .noTemplate) (renderSignature.read arguments {})

/-- Reads the arguments of the `filters` command. -/
def readFilters (debug : Bool) (arguments : List String) : Except UsageError Invocation :=
  ofReading .filters (fun more => .ok (.run .filters (debug || more)))
    (filtersSignature.read arguments false)

/-- Reads the arguments of the `help` command: at most the name of one command. -/
def readHelp : List String → Except UsageError Invocation
  | [] => .ok (.help .program)
  | ["render"] => .ok (.help .render)
  | ["filters"] => .ok (.help .filters)
  | ["help"] => .ok (.help .help)
  | name :: _ => .error (.unknownCommand name)

/-- Reads arguments up to the command's name, then those of the command. -/
def readFrom (debug : Bool) : List String → Except UsageError Invocation
  | [] => .error .noCommand
  | text :: rest =>
      match Argument.read text with
      | .operand "render" => readRender debug rest
      | .operand "filters" => readFilters debug rest
      | .operand "help" => readHelp rest
      | .operand name => .error (.unknownCommand name)
      | .option "--debug" none =>
          if debug then .error (.repeated "--debug") else readFrom true rest
      | .option "--help" none => .ok (.help .program)
      | .option "--version" none => .ok (.version .program)
      | .option "-h" _ => .ok (.help .program)
      | .option "-V" _ => .ok (.version .program)
      | _ => .error (.unexpected text)

/-- Reads a whole command line, without the program's own name. -/
def read (arguments : List String) : Except UsageError Invocation :=
  readFrom false arguments

end Invocation

end ReportTemplate.Cli
