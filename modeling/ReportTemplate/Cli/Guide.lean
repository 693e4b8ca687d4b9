import ReportTemplate.Cli.Invocation

/-! The texts that describe the program to its user. -/

namespace ReportTemplate.Cli

namespace Topic

/-- The name under which a version is reported. -/
def versionName : Topic → String
  | .program => "gabarit"
  | .render => "gabarit-render"
  | .filters => "gabarit-filters"
  | .help => "gabarit-help"

def versionText (topic : Topic) : String :=
  topic.versionName ++ " 0.1.0"

def commandLines : List String :=
  ["Commands:",
    "  render   Render a template file",
    "  filters  List available filters",
    "  help     Print this message or the help of the given subcommand(s)"]

/-- The lines about the options that every command has. -/
def commonLines : List String :=
  ["Options:",
    "      --debug    Enable debug output",
    "  -h, --help     Print help",
    "  -V, --version  Print version"]

/-- The lines of the help on a topic. -/
def helpLines : Topic → List String
  | .program =>
      ["Render report templates from JSON or YAML data", "",
        "Usage: gabarit [OPTIONS] <COMMAND>", ""] ++ commandLines ++ [""] ++ commonLines
  | .render =>
      ["Render a template file", "", "Usage: gabarit render [OPTIONS] <TEMPLATE>", "",
        "Arguments:", "  <TEMPLATE>  Template file", "", "Options:",
        "  -c, --context <CONTEXT>  Context file(s) to merge (JSON or YAML)",
        "      --debug              Enable debug output",
        "      --set <SET>          Set context values on command line (key=value)",
        "      --raw                Skip output normalization",
        "  -o, --output <OUTPUT>    Write the result to a file instead of stdout",
        "      --show-context       Show the merged context before rendering",
        "  -h, --help               Print help",
        "  -V, --version            Print version"]
  | .filters =>
      ["List available filters", "", "Usage: gabarit filters [OPTIONS]", ""] ++ commonLines
  | .help =>
      ["Print this message or the help of the given subcommand(s)", "",
        "Usage: gabarit help [COMMAND]", ""] ++ commandLines

def helpText (topic : Topic) : String :=
  "\n".intercalate topic.helpLines

end Topic

/-- What is reported for a command line that cannot be understood. -/
def UsageError.report (error : UsageError) : String :=
  "error: " ++ error.message ++ "\n\nFor more information, try '--help'."

end ReportTemplate.Cli
