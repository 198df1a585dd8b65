import ImportRepair.Cli.Arguments
import ImportRepair.Report.Document
import ImportRepair.Report.Summary
import ImportRepair.Run.Cycle

/-!
# The program

The program finds the project of a directory, runs the cycle of checking and
fixing, prints what has changed, and writes the reports that are asked for.
-/

namespace ImportRepair.Cli

variable {m : Type → Type} [Monad m] [Host m]

/-! ### Settings -/

/-- Why the program comes to no end. -/
inductive Failure where
  | noDirectory (path : Path)
  | noTsconfig (path : Path)
  | path (f : PathFault)
  | tsconfig (path : Path) (e : TsconfigError)
  | exclude (e : Settings.ExcludeError)
  /-- The name of an excluded directory is left blank. -/
  | blankExclude
  | run (e : RunError)
  /-- The place of the report is left blank. -/
  | blankReportPath
deriving DecidableEq, Repr

namespace Failure

def message : Failure → String
  | noDirectory p => s!"Not a directory: {String.ofList p.text}"
  | noTsconfig p => s!"tsconfig.json not found: {String.ofList p.text}"
  | path f => f.message
  | tsconfig p e => e.message p
  | exclude .notAList => "the excluded directories are not a list"
  | exclude .notAText => "an excluded directory is not a text"
  | blankExclude => "the name of an excluded directory is left blank"
  | run e => e.message
  | blankReportPath => "the place of the report is left blank"

/-- The program prints the failure and ends; any other failure breaks it off. -/
def isReported : Failure → Bool
  | noDirectory _ | noTsconfig _ => true
  | tsconfig _ .missing | tsconfig _ (.unreadable .missing) => true
  | run (.compiler (.command _)) | run (.compiler .noProgram) | run (.compiler (.call _)) => false
  | run (.compiler _) => true
  | _ => false

end Failure

/-- The directory that is to be fixed, if one is named. -/
def targetOf (o : Options) : m (Except Failure (Option Path)) := do
  match o.target <|> o.directory.bind Entry.value? with
  | none => return .ok none
  | some p =>
    match ← Host.resolve p with
    | .error f => return .error (.path f)
    | .ok target =>
      match ← Host.isDirectory target with
      | .error f => return .error (.path f)
      | .ok true => return .ok (some target)
      | .ok false => return .error (.noDirectory target)

/-- The configuration file: the one that is named, or the nearest one. -/
def tsconfigOf (o : Options) (target : Option Path) : m (Except Failure (Option Path)) := do
  match o.tsconfig.bind Entry.value? with
  | some p =>
    match ← Host.resolve p with
    | .error f => return .error (.path f)
    | .ok file =>
      match ← Host.isPresent file with
      | .error f => return .error (.path f)
      | .ok true => return .ok (some file)
      | .ok false => return .error (.noTsconfig file)
  | none => return (← Tsconfig.find (target.getD (← Host.workingDirectory))).mapError .path

/-- Reads the configuration file.  A file that says nothing usable is as good as none. -/
def readTsconfig : Option Path → m (Except Failure (Option Tsconfig))
  | none => do
    Host.log ⟨.info, .commandLine,
      "No tsconfig.json found, using the target directory as project root"⟩
    return .ok none
  | some file => do
    match ← Tsconfig.load file with
    | .ok t =>
      Host.log ⟨.info, .commandLine, s!"Using tsconfig: {String.ofList file.text}"⟩
      return .ok (some t)
    | .error e =>
      if e.isTolerated then
        Host.log ⟨.warning, .commandLine, s!"Failed to parse tsconfig.json: {e.message file}"⟩
        return .ok none
      else return .error (.tsconfig file e)

def Options.settings (o : Options) (workingDirectory root : Path) (target tsconfig : Option Path) :
    Settings :=
  { Settings.ofDirectories workingDirectory root target.toList with
    tsconfig := (o.tsconfig.bind Entry.value?).bind fun _ => tsconfig
    fix := !o.has .noFix
    flags := ⟨!o.has .noDuplicateFix, !o.has .noUnusedFix⟩
    heuristics := !o.has .noHeuristics
    rules := o.rules
    dryRun := o.has .dryRun
    includeTests := o.has .includeTests
    compiler := o.compiler
    linter := o.linter
    timeout := o.timeout
    workers := o.workers }

/-- The names of directories that the options exclude, if none of them is left blank. -/
def Options.excluded (o : Options) : Except Failure (List Text) :=
  match o.exclude.mapM Entry.value? with
  | some names => .ok names
  | none => .error .blankExclude

/-- The settings with the directories that the configuration file excludes. -/
def excludeFrom (s : Settings) : Option Tsconfig → Except Failure Settings
  | none => .ok s
  | some t =>
    match s.exclude t.exclude with
    | .ok s => .ok s
    | .error e => .error (.exclude e)

def settingsOf (o : Options) : ExceptT Failure m Settings := do
  let target ← ExceptT.mk (targetOf o)
  let file ← ExceptT.mk (tsconfigOf o target)
  let tsconfig ← ExceptT.mk (readTsconfig file)
  let here ← monadLift (Host.workingDirectory : m Path)
  let root := (file.map (·.parent)).getD (target.getD here)
  let s ← ExceptT.mk (pure (excludeFrom (o.settings here root target file) tsconfig))
  let names ← ExceptT.mk (pure o.excluded)
  return { s with excludes := s.excludes ++ names }

/-! ### Reports -/

/-- Writes a file.  A path that stands for no place breaks the program off; other faults are
    returned. -/
def store (path : Path) (octets : List UInt8) : m (Except Failure (Option FileFault)) := do
  match ← Host.write path octets with
  | .ok () => return .ok none
  | .error .nulCharacter => return .error (.path ⟨path, .nulCharacter⟩)
  | .error f => return .ok (some f)

def saveReport (o : Options) (path : Path) (r : RunReport) : ExceptT Failure m Unit := do
  let place := String.ofList path.text
  match ← ExceptT.mk (store path (Utf8.encode (r.text (!o.has .noSuggestions)).toList)) with
  | none => monadLift (Host.log ⟨.info, .report, s!"Error report saved to {place}"⟩ : m Unit)
  | some f =>
    let text := s!"Failed to save error report to {place}: {f.message path}"
    monadLift (Host.log ⟨.error, .report, text⟩ : m Unit)

def saveExport (path : Path) (r : RunReport) : ExceptT Failure m Unit := do
  let place := String.ofList path.text
  match ← ExceptT.mk (store path (Utf8.encode r.toJson.text)) with
  | none => monadLift (Host.printAll ["", s!"📊 Report exported to: {place}"] : m Unit)
  | some f =>
    let text := s!"Failed to export JSON to {place}: {f.message path}"
    monadLift (Host.log ⟨.error, .commandLine, text⟩ : m Unit)

def printRun (o : Options) (r : RunReport) : m Unit := do
  if !o.has .quiet then Host.printAll r.changeLines
  Host.printAll r.summaryLines

def saveReports (o : Options) (r : RunReport) : ExceptT Failure m Unit := do
  if o.has .report then
    match o.reportPath with
    | .value path => saveReport o path r
    | .blank => throw .blankReportPath
  match o.exportPath.bind Entry.value? with
  | some path => saveExport path r
  | none => return

/-! ### The program -/

def announce (s : Settings) : m Unit := do
  Host.print s!"📁 Project root: {String.ofList s.root.text}"
  if s.targets ≠ [s.root] then
    let targets := ", ".intercalate (s.targets.map fun t => String.ofList t.text)
    Host.print s!"🔍 Fixing:       {targets}"

def execute (o : Options) : ExceptT Failure m RunReport := do
  let s ← settingsOf o
  if !o.has .quiet then monadLift (announce s : m Unit)
  match (← monadLift ((run s).run.run initialPhases : m _)).1 with
  | .error e => throw (.run e)
  | .ok r =>
    monadLift (printRun o r : m Unit)
    saveReports o r
    return r

/-- Runs the program.  The result is its exit code, unless a failure breaks it off. -/
def program (o : Options) : m (Except Failure Nat) := do
  match ← (execute o).run with
  | .ok r => return .ok r.exitCode
  | .error e =>
    if e.isReported then
      Host.print s!"❌ Error: {e.message}"
      return .ok 1
    else return .error e

/-- The level from which on records are shown. -/
def Options.logLevel (o : Options) : LogLevel :=
  if o.has .verbose then .debug else if o.has .quiet then .warning else .info

def Options.shows (o : Options) (r : LogRecord) : Bool :=
  decide (o.logLevel.weight ≤ r.level.weight)

end ImportRepair.Cli
