import ReportTemplate.Context.Basic
import ReportTemplate.Engine

/-! Failures of commands and the exit codes that tell them apart. -/

namespace ReportTemplate.Cli

/-- Why a command fails. -/
inductive Failure where
  | context (reason : String) (advice : Option String)
  | template (reason : String) (advice : Option String)
  | file (reason : String)
  deriving DecidableEq, Repr

namespace Failure

def message : Failure → String
  | .context reason _ => "Context error: " ++ reason
  | .template reason _ => "Template error: " ++ reason
  | .file reason => "IO error: " ++ reason

def code : Failure → String
  | .context _ _ => "gabarit::cli::context"
  | .template _ _ => "gabarit::cli::template"
  | .file _ => "gabarit::cli::io"

def help : Failure → Option String
  | .context _ advice => advice
  | .template _ advice => advice
  | .file _ => none

def exitCode : Failure → Nat
  | .context _ _ => 2
  | .template _ _ => 3
  | .file _ => 5

/-- The failure to use the file at a path. -/
def atPath (path : String) (reason : FileError) : Failure :=
  .file (path ++ ": " ++ reason.message)

/-- The failure to load a context that did not come from a file of its own. -/
def ofLoad : Context.LoadError → Failure
  | .file reason => .file reason.message
  | .override argument =>
      .context (Context.LoadError.override argument).message
        (some "use --set key.path=value, e.g. --set site.name=example.org")
  | error => .context error.message none

/-- The failure to load a context from the file at a path. -/
def loading (path : String) : Context.LoadError → Failure
  | .file reason => atPath path reason
  | error =>
      .context (path ++ ": " ++ error.message)
        (some "context files must hold a JSON or YAML mapping at the top level")

def ofEngine (error : EngineError) : Failure :=
  .template error.message error.help

def report (failure : Failure) : String :=
  let advice :=
    match failure.help with
    | some text => "\n  help: " ++ text
    | none => ""
  failure.code ++ "\n\n  × " ++ failure.message ++ advice

end Failure

end ReportTemplate.Cli
