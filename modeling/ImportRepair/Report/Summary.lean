import ImportRepair.Report.Text

/-!
# What the command line prints about a run

After a run the command line prints a summary.  Before it come the changes to
each file, with their diffs if nothing was written.
-/

namespace ImportRepair

def Outcome.icon : Outcome → String
  | .passed => "✅"
  | .improved => "📉"
  | .unchanged => "➖"
  | .regression => "📈"
  | .notVerified => "⏸️"
  | .unparsed => "❓"

def Batch.countLines (b : Batch) : List String :=
  ["", s!"🛠️  Files fixed:   {b.fixed}", s!"⏭️  Files skipped: {b.skipped}",
    s!"❌ Files failed:  {b.failed}", s!"✏️  Changes:       {b.changeCount}"]

def FixResult.changeLines (r : FixResult) : List String :=
  let diff := (r.diff.filter fun d => !d.isEmpty).toList.flatMap fun d =>
    (Text.lines (Text.dropEndWhile (· == '\n') d)).map fun l => s!"   {String.ofList l}"
  ["", s!"📄 {String.ofList r.file}"] ++ r.actions.map (s!"   • {·}") ++ diff

def Batch.changeLines (b : Batch) (dryRun : Bool) : List String :=
  match b.details.filter (·.fixed) with
  | [] => ["", "No changes to apply."]
  | changed =>
    let mode := if dryRun then "DRY-RUN" else "APPLIED"
    let verb := if dryRun then "Would change" else "Changed"
    ["", rule '=', s!"CHANGES ({mode})", rule '='] ++ changed.flatMap FixResult.changeLines ++
      ["", rule '-', s!"{verb}: {b.changeCount} items in {changed.length} files"] ++
      (if 0 < b.failed then [s!"Failed: {b.failed}"] else [])

namespace RunReport

variable (r : RunReport)

def summaryLines : List String :=
  let ranking := if r.remaining.isEmpty then [] else
    ["", "Errors by category:"] ++
      (rankedCategories r.remaining).map fun p => s!"  • {p.1}: {p.2}"
  let warning := if r.outcome = .regression then
    ["   ⚠️  Fixes increased the number of diagnostics. Review the changes."] else []
  ["", rule '=', "TYPESCRIPT FIX SUMMARY", rule '=',
    s!"🔍 Initial diagnostics: {r.initial.length}"] ++
    r.final.toList.map (fun ds => s!"🔁 After fixing:        {ds.length}") ++ ranking ++
    r.batch.toList.flatMap Batch.countLines ++
    ["", s!"{r.outcome.icon} Outcome: {r.outcome.name.toUpper}"] ++ warning

def changeLines : List String := r.batch.toList.flatMap fun b => b.changeLines r.dryRun

end RunReport

end ImportRepair
