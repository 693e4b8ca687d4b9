import ReportTemplate.Entries
import ReportTemplate.Text.Blank
import ReportTemplate.Text.Split
import ReportTemplate.Text.Word
import ReportTemplate.Text.Case
import ReportTemplate.Number.Exact
import ReportTemplate.Number.Shortest
import ReportTemplate.Number.Notation
import ReportTemplate.Number.Numeral
import ReportTemplate.Value.Basic
import ReportTemplate.Json.Printer
import ReportTemplate.Json.Reader
import ReportTemplate.Scope
import ReportTemplate.Value.Text
import ReportTemplate.Condition.Reader
import ReportTemplate.Context.File
import ReportTemplate.Context.Override
import ReportTemplate.Yaml.Reader
import ReportTemplate.Filter.Registry
import ReportTemplate.Engine
import ReportTemplate.Yaml.Printer
import ReportTemplate.Cli.Argument
import ReportTemplate.Cli.Invocation
import ReportTemplate.Cli.Guide
import ReportTemplate.Cli.Failure
import ReportTemplate.Cli.Host
import ReportTemplate.Cli.FileTree
import ReportTemplate.Cli.Program
import ReportTemplate.Cli.Machine
import ReportTemplate.Main
import ReportTemplate.Proofs.Template.DataText
import ReportTemplate.Proofs.Template.StrayTags
import ReportTemplate.Proofs.Context.Overriding
import ReportTemplate.Proofs.Filter.Registration
import ReportTemplate.Proofs.Template.Printing
import ReportTemplate.Proofs.Engine.Lookup
import ReportTemplate.Proofs.Filter.Calling
import ReportTemplate.Proofs.Cli.FileTree
import ReportTemplate.Proofs.Cli.Inputs
import ReportTemplate.Proofs.Template.EventOrder
import ReportTemplate.Proofs.Cli.Rendering
import ReportTemplate.Proofs.Text.Tidying
import ReportTemplate.Proofs.Context.Regrouping
import ReportTemplate.Proofs.Filter.Chaining
import ReportTemplate.Proofs.Scope.Flattening
import ReportTemplate.Proofs.Engine.Building
import ReportTemplate.Proofs.Filter.Suggestion
import ReportTemplate.Proofs.Context.KeptText
import ReportTemplate.Proofs.Number.Order
import ReportTemplate.Proofs.Number.Rounding
import ReportTemplate.Proofs.Filter.Ranking
import ReportTemplate.Proofs.Filter.Matching
import ReportTemplate.Proofs.Value.Equality
import ReportTemplate.Proofs.Json.Numeral
import ReportTemplate.Proofs.Json.Quoted
import ReportTemplate.Proofs.Json.Scanning
import ReportTemplate.Proofs.Json.Reading
import ReportTemplate.Proofs.Json.Reloading
import ReportTemplate.Proofs.Template.OpenQuotes
import ReportTemplate.Proofs.Template.BlockMatching
import ReportTemplate.Proofs.Template.TagPlaces
import ReportTemplate.Proofs.Filter.Rounding
