import ReportTemplate.Normalize
import ReportTemplate.Template.Render

/-! Engines: a registry of filters, and whether rendered text is tidied. -/

namespace ReportTemplate

/-- A template engine. -/
structure Engine where
  filters : Registry := Registry.builtins
  normalizes : Bool := true

/-- Why an engine refuses a request. -/
inductive EngineError where
  | invalidTemplate (found : String)
  | invalidFilter (cause : RegistrationError)
  deriving DecidableEq, Repr

namespace EngineError

def message : EngineError → String
  | .invalidTemplate found => "Invalid template: expected a string, found " ++ found
  | .invalidFilter cause => "Invalid filter `" ++ cause.name ++ "`: " ++ cause.reason

def code : EngineError → String
  | .invalidTemplate _ => "gabarit::engine::invalid_template"
  | .invalidFilter _ => "gabarit::engine::invalid_filter"

def help : EngineError → Option String
  | .invalidTemplate _ => some "pass the template text itself, not a parsed document"
  | .invalidFilter cause => cause.suggestion

end EngineError

namespace Engine

def registerFilter (engine : Engine) (name : String) (filter : Filter)
    : Except EngineError Engine :=
  match engine.filters.register name filter with
  | .ok filters => .ok { engine with filters }
  | .error cause => .error (.invalidFilter cause)

/-- The names of the filters, those that every engine starts with first. -/
def filterNames (engine : Engine) : List String :=
  engine.filters.names

def compile (engine : Engine) (template : String) (data : Value) : Logged String := do
  let text ← Template.render engine.filters data template.toList
  return String.ofList (if engine.normalizes then normalize text else text)

/-- Renders a template that is given as a value and has to be text. -/
def compileValue (engine : Engine) (template data : Value)
    : Except EngineError (Logged String) :=
  match template with
  | .string text => .ok (engine.compile text data)
  | other => .error (.invalidTemplate other.kind)

/-- An engine under construction, which remembers the first filter it refused. -/
structure Builder where
  engine : Engine := {}
  refused : Option EngineError := none

namespace Builder

def normalize (builder : Builder) (normalizes : Bool) : Builder :=
  { builder with engine := { builder.engine with normalizes } }

/-- Registers a filter; one that is refused is reported by `build`. -/
def filter (builder : Builder) (name : String) (filter : Filter) : Builder :=
  match builder.engine.registerFilter name filter with
  | .ok engine => { builder with engine }
  | .error cause => { builder with refused := builder.refused <|> some cause }

/-- The finished engine, or the first refusal. -/
def build (builder : Builder) : Except EngineError Engine :=
  match builder.refused with
  | some cause => .error cause
  | none => .ok builder.engine

end Builder

end Engine

end ReportTemplate
