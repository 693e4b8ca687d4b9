import ReportTemplate.Text.Split

/-! Reading of command-line arguments, from left to right.
The first argument that is wrong, or that asks for help, ends the reading.
-/

namespace ReportTemplate.Cli

/-- Why a command line cannot be understood. -/
inductive UsageError where
  | noCommand
  | unknownCommand (name : String)
  | unexpected (argument : String)
  | missingValue (option : String)
  | needlessValue (option : String)
  | repeated (option : String)
  | noTemplate
  deriving DecidableEq, Repr

def UsageError.message : UsageError → String
  | .noCommand => "a subcommand is required but none was given"
  | .unknownCommand name => "unrecognized subcommand '" ++ name ++ "'"
  | .unexpected argument => "unexpected argument '" ++ argument ++ "' found"
  | .missingValue option => "a value is required for '" ++ option ++ "' but none was supplied"
  | .needlessValue option => "unexpected value for '" ++ option ++ "' found; no more were expected"
  | .repeated option => "the argument '" ++ option ++ "' cannot be used multiple times"
  | .noTemplate => "the required argument '<TEMPLATE>' was not provided"

/-- An argument by its shape. Options keep the dashes of their names. -/
inductive Argument where
  | separator
  | option (name : String) (attached : Option String)
  | operand (text : String)
  deriving DecidableEq, Repr

namespace Argument

/-- Holds for long option names, those with two dashes. -/
def isLong (name : String) : Bool :=
  name.toList.take 2 == ['-', '-']

/-- What follows a one-letter option in its own argument, where an equals sign is optional. -/
def attachedText : List Char → Option String
  | [] => none
  | '=' :: value => some (String.ofList value)
  | value => some (String.ofList value)

/-- Tells the shape of an argument. A single dash is an operand. -/
def read (text : String) : Argument :=
  match text.toList with
  | ['-', '-'] => .separator
  | '-' :: '-' :: rest =>
      match Text.splitOnce '=' rest with
      | some (name, value) =>
          .option (String.ofList ('-' :: '-' :: name)) (some (String.ofList value))
      | none => .option text none
  | '-' :: letter :: rest => .option (String.ofList ['-', letter]) (attachedText rest)
  | _ => .operand text

end Argument

/-- What ends the reading of arguments early. -/
inductive Stop where
  | usage (error : UsageError)
  | help
  | version
  deriving DecidableEq, Repr

/-- What an option does with the settings read so far. -/
inductive Effect (σ : Type) where
  | flag (set : σ → Except UsageError σ)
  | value (store : String → σ → Except UsageError σ)
  | stop (reason : Stop)

/-- The arguments that a command understands. -/
structure Signature (σ : Type) where
  option : String → Option (Effect σ)
  operand : String → σ → Except UsageError σ

namespace Signature

variable {σ : Type}

/-- Reads arguments into settings. The value of an option is attached to it or is the next
argument, which then does not look like an option; behind a separator all are operands.
-/
def read (signature : Signature σ) : List String → σ → Except Stop σ
  | [], settings => .ok settings
  | text :: rest, settings =>
      match Argument.read text with
      | .separator =>
          (rest.foldlM (fun settings operand => signature.operand operand settings) settings
            ).mapError .usage
      | .operand operand => do
          read signature rest (← (signature.operand operand settings).mapError .usage)
      | .option name attached =>
          match signature.option name with
          | none => .error (.usage (.unexpected text))
          | some (.stop reason) =>
              if attached.isSome ∧ Argument.isLong name then
                .error (.usage (.needlessValue name))
              else .error reason
          | some (.flag set) =>
              if attached.isSome then .error (.usage (.needlessValue name))
              else do read signature rest (← (set settings).mapError .usage)
          | some (.value store) =>
              match attached with
              | some value => do read signature rest (← (store value settings).mapError .usage)
              | none =>
                  match rest with
                  | [] => .error (.usage (.missingValue name))
                  | value :: rest =>
                      match Argument.read value with
                      | .operand _ => do
                          read signature rest (← (store value settings).mapError .usage)
                      | _ => .error (.usage (.missingValue name))

end Signature

end ReportTemplate.Cli
