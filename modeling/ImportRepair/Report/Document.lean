import ImportRepair.Json.Printer
import ImportRepair.Report.Text

/-!
# Reports as JSON

The export of a run holds what the report file holds, for other programs to
read.
-/

namespace ImportRepair

namespace Json

def record (fields : List (String × Json)) : Json :=
  object (fields.map fun f => (f.1.toList, f.2))

def ofString (s : String) : Json := string s.toList

def ofStrings (ss : List String) : Json := array (ss.map ofString)

def ofNat (n : Nat) : Json := integer n

/-- A value, or `null` in its absence. -/
def ofOption {α : Type} (f : α → Json) : Option α → Json
  | none => null
  | some a => f a

end Json

/-- A diagnostic in the export.  The snippet is left out if there is none. -/
def Diagnostic.toJson (d : Diagnostic) : Json :=
  .record ([("file", .string d.file), ("line", .integer d.line), ("column", .integer d.column),
    ("code", .string d.code), ("message", .string d.message),
    ("category", .ofString d.category.name), ("severity", .ofString d.severity.name),
    ("tier", .ofString d.tier.name)] ++ d.snippet.toList.map fun s => ("snippet", .string s))

def FixResult.toJson (r : FixResult) : Json :=
  .record [("file", .string r.file), ("fixed", .bool r.fixed),
    ("change_count", .integer r.changeCount), ("message", .ofString r.message),
    ("error", .ofOption .ofString r.error), ("actions", .ofStrings r.actions)]

def Batch.toJson (b : Batch) : Json :=
  .record [("total", .integer b.total), ("processed", .ofNat b.processed),
    ("fixed", .ofNat b.fixed), ("failed", .ofNat b.failed), ("skipped", .ofNat b.skipped),
    ("details", .array (b.details.map FixResult.toJson))]

/-- A code with its details and its number of diagnostics.  Where the details are those of an
    unknown code, the link comes after the code. -/
def codeJson (code : Text) (count : Nat) : Json :=
  let d := CodeDetails.of code
  let documentation := ("documentation", Json.ofString d.documentation)
  let number := ("code", Json.string code)
  .record ([("title", .ofString d.title), ("description", .ofString d.description)] ++
    (if (CodeDetails.of? code).isSome then [documentation, number] else [number, documentation]) ++
    [("count", .ofNat count)])

namespace RunReport

variable (r : RunReport)

def summaryJson : Json :=
  .record [("outcome", .ofString r.outcome.name), ("initial_count", .ofNat r.initial.length),
    ("final_count", .ofOption .integer (r.verification.bind (·.final))),
    ("delta", .ofOption .integer (r.verification.bind (·.delta?))),
    ("by_category", .record ((categoryCounts r.remaining).map fun p => (p.1.name, .ofNat p.2))),
    ("most_common", .array ((topCodes r.remaining).map fun p => codeJson p.1 p.2))]

def toJson : Json :=
  .record [("started_at", .ofString r.started.text),
    ("finished_at", .ofOption (fun t => .ofString t.text) r.finished),
    ("dry_run", .bool r.dryRun), ("states", .ofStrings (r.phases.map (·.name))),
    ("summary", r.summaryJson), ("fixes", .ofOption Batch.toJson r.batch),
    ("diagnostics", .array (r.remaining.map Diagnostic.toJson))]

end RunReport

end ImportRepair
