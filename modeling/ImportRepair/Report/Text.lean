import ImportRepair.Run.Report

/-!
# Reports as text

The report file lists the diagnostics that are left, file by file, after a
summary of the run.
-/

namespace ImportRepair

/-- A line of 80 equal characters. -/
def rule (c : Char) : String := String.ofList (List.replicate 80 c)

/-- The categories with their numbers of diagnostics, most frequent first, ties in the order of
    their names. -/
def rankedCategories (ds : List Diagnostic) : List (String × Nat) :=
  ((categoryCounts ds).map fun p => (p.1.name, p.2)).mergeSort fun a b =>
    if a.2 = b.2 then decide (a.1 ≤ b.1) else decide (b.2 < a.2)

def listedCodes : Int := 5

def topCodes (ds : List Diagnostic) : List (Text × Nat) := takeUpTo listedCodes (rankedCodes ds)

/-! ### Diagnostics -/

/-- The block of a diagnostic, with hints if they are asked for. -/
def Diagnostic.block (hints : Bool) (d : Diagnostic) : List String :=
  [s!"Line {d.line}, Column {d.column}: {String.ofList d.code} - {String.ofList d.message}"] ++
    (d.snippet.filter fun s => !s.isEmpty).toList.map (fun s => s!"    {String.ofList s}") ++
    (if hints then "Suggestions:" :: d.category.hints.map (s!"  - {·}") else []) ++ [""]

def fileBlock (hints : Bool) (file : Text) (ds : List Diagnostic) : List String :=
  [s!"File: {String.ofList file} ({ds.length} errors)", rule '-'] ++ ds.flatMap (·.block hints)

def diagnosticLines (hints : Bool) (ds : List Diagnostic) : List String :=
  if ds.isEmpty then ["No TypeScript errors found."]
  else [s!"Found {ds.length} TypeScript errors:", ""] ++
    (groupBy Diagnostic.file ds).flatMap fun g => fileBlock hints g.1 g.2

/-! ### The fix pass -/

def Batch.summary (b : Batch) : String :=
  s!"Fix pass: {b.fixed} fixed, {b.skipped} unchanged, {b.failed} failed of {b.total} files"

/-- The line about one file.  An error that says nothing does not show. -/
def FixResult.statusLine (r : FixResult) : String :=
  let file := String.ofList r.file
  match r.error.filter (· != "") with
  | some e => s!"  FAILED  {file}: {e}"
  | none => if r.fixed then s!"  FIXED   {file}: {r.message}" else s!"  SKIPPED {file}: {r.message}"

def Batch.statusLines (b : Batch) : List String :=
  b.summary :: b.details.map (·.statusLine) ++ [""]

namespace RunReport

variable (r : RunReport)

def headerLines : List String :=
  ["TypeScript Diagnostic Report", rule '=',
    s!"Generated:   {(r.finished.getD r.started).secondsText}",
    s!"Outcome:     {r.outcome.name}",
    s!"Initial:     {r.initial.length} diagnostics"] ++
    r.final.toList.map (fun ds => s!"Final:       {ds.length} diagnostics") ++
    (if r.dryRun then ["Mode:        dry run (no files written)"] else []) ++ [""]

/-- The lines about the categories and codes that are left. -/
def rankingLines : List String :=
  let ds := r.remaining
  if ds.isEmpty then []
  else ["Errors by category:"] ++ (rankedCategories ds).map (fun p => s!"  {p.1}: {p.2}") ++
    ["", "Most common error codes:"] ++
    (topCodes ds).map (fun p => s!"  {String.ofList p.1} ({p.2}): {(CodeDetails.of p.1).title}") ++
    [""]

def textLines (hints : Bool) : List String :=
  r.headerLines ++ r.rankingLines ++ r.batch.toList.flatMap Batch.statusLines ++ [rule '=', ""] ++
    diagnosticLines hints r.remaining

def text (hints : Bool) : String := String.join ((r.textLines hints).map (· ++ "\n"))

end RunReport

end ImportRepair
