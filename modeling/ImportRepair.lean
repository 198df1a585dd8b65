import ImportRepair.Cli.Arguments
import ImportRepair.Cli.Help
import ImportRepair.Cli.Options
import ImportRepair.Cli.Program
import ImportRepair.Diagnostic.Basic
import ImportRepair.Diagnostic.Category
import ImportRepair.Diagnostic.Imprecise
import ImportRepair.Diagnostic.Reader
import ImportRepair.Diagnostic.Structured
import ImportRepair.Diff.Segments
import ImportRepair.Diff.Unified
import ImportRepair.Entry
import ImportRepair.Evidence.Basic
import ImportRepair.Evidence.Linter
import ImportRepair.Fix.Basic
import ImportRepair.Fix.Certified
import ImportRepair.Fix.Console
import ImportRepair.Fix.File
import ImportRepair.Fix.Heuristic
import ImportRepair.Fix.Pass
import ImportRepair.Grouping
import ImportRepair.Host.Basic
import ImportRepair.Host.Disk
import ImportRepair.Host.Machine
import ImportRepair.Import.Basic
import ImportRepair.Import.Empty
import ImportRepair.Import.Merge
import ImportRepair.Import.Pieces
import ImportRepair.Import.Printer
import ImportRepair.Import.Reader
import ImportRepair.Import.Removal
import ImportRepair.Import.Table
import ImportRepair.Json.Basic
import ImportRepair.Json.Binary64
import ImportRepair.Json.Comments
import ImportRepair.Json.Lexer
import ImportRepair.Json.Printer
import ImportRepair.Json.Reader
import ImportRepair.Log
import ImportRepair.Path.Basic
import ImportRepair.Path.Portable
import ImportRepair.Project.Settings
import ImportRepair.Project.Tsconfig
import ImportRepair.Report.Document
import ImportRepair.Report.Instant
import ImportRepair.Report.Instant.Reader
import ImportRepair.Report.Summary
import ImportRepair.Report.Text
import ImportRepair.Run.Cycle
import ImportRepair.Run.Report
import ImportRepair.Run.Result
import ImportRepair.Run.Verification
import ImportRepair.Text.Basic
import ImportRepair.Text.Blank
import ImportRepair.Text.Cased
import ImportRepair.Text.LineEdits
import ImportRepair.Text.Lower
import ImportRepair.Text.Numeral
import ImportRepair.Text.Printable
import ImportRepair.Text.Quoted
import ImportRepair.Text.Ranges
import ImportRepair.Text.Search
import ImportRepair.Text.ShellWords
import ImportRepair.Text.Utf8
import ImportRepair.Text.Word
import ImportRepair.Tool.Compiler
import ImportRepair.Tool.Linter
import ImportRepair.Tool.Reply
import ImportRepair.Main
import ImportRepair.Proofs.Fix.Certified
import ImportRepair.Proofs.Fix.Survival
import ImportRepair.Proofs.Merge.Renumbering
import ImportRepair.Proofs.Fix.Winner
import ImportRepair.Proofs.Text.Context
import ImportRepair.Proofs.Merge.Context
import ImportRepair.Proofs.Fix.Isolation
import ImportRepair.Proofs.Run.Verdict
import ImportRepair.Proofs.Run.Linter
import ImportRepair.Proofs.Diagnostic.Reader
import ImportRepair.Proofs.Fix.EvidenceKey
import ImportRepair.Proofs.Fix.Change
import ImportRepair.Proofs.Diagnostic.Located
import ImportRepair.Proofs.Fix.Frame
import ImportRepair.Proofs.Run.Files
import ImportRepair.Proofs.Fix.DryRun
import ImportRepair.Proofs.Run.DryRun
import ImportRepair.Proofs.Run.Succession
import ImportRepair.Proofs.Merge.Members
import ImportRepair.Proofs.Fix.Account
import ImportRepair.Proofs.Import.Spelling
import ImportRepair.Proofs.Merge.Losses
import ImportRepair.Proofs.Import.EmptyBraces
import ImportRepair.Proofs.Merge.Keyword
import ImportRepair.Proofs.Text.LineEnds
import ImportRepair.Proofs.Import.Characters
import ImportRepair.Proofs.Fix.LineEnds
import ImportRepair.Proofs.Diagnostic.Tiers
import ImportRepair.Proofs.Fix.Console
import ImportRepair.Proofs.Fix.Arguments
import ImportRepair.Proofs.Json.Comments
import ImportRepair.Proofs.Fix.EvidenceSet
import ImportRepair.Proofs.Path.Root
import ImportRepair.Proofs.Project.Exclusion
import ImportRepair.Proofs.Report.Standing
import ImportRepair.Proofs.Diff.Unified
import ImportRepair.Proofs.Diagnostic.Snippet
import ImportRepair.Proofs.Cli.Settings
import ImportRepair.Proofs.Import.Views
