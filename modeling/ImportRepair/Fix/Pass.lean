import ImportRepair.Fix.File
import ImportRepair.Report.Text
import ImportRepair.Tool.Linter

/-!
# The fix pass

A fix pass goes over all files that have diagnostics.  Files that are not found
or must not be touched are left alone; the linter is asked about the others,
and each is fixed by its own evidence.
-/

namespace ImportRepair

variable {m : Type → Type} [Monad m] [Host m]

/-! ### Tasks -/

/-- A file that is to be fixed. -/
structure FixTask where
  file : Text
  diagnostics : List Diagnostic
  path : Path
deriving DecidableEq, Repr

/-- The first of some directories below which a path leads to a file. -/
def findBelow (p : Path) : List Path → m (Except PathFault (Option Path))
  | [] => return .ok none
  | d :: ds => do
    match ← Host.isFile (d.join p) with
    | .error f => return .error f
    | .ok true => return .ok (some (d.join p))
    | .ok false => findBelow p ds

/-- The file of a diagnostic: as it is named, or below one of some directories. -/
def findSource (directories : List Path) (file : Text) : m (Except PathFault (Option Path)) := do
  let p := Path.ofText file
  if p.isAbsolute then return (← Host.isFile p).map fun isFile => if isFile then some p else none
  else match ← findBelow p directories with
    | .ok none =>
      Host.log ⟨.error, .files, s!"File not found: {String.ofList file} or any alternate path"⟩
      return .ok none
    | found => return found

/-- The task for a file with diagnostics, or the result if there is nothing to do. -/
def planFile (s : Settings) (file : Text) (ds : List Diagnostic) :
    m (Except PathFault (FixResult ⊕ FixTask)) := do
  let here ← Host.workingDirectory
  match ← findSource [s.root, here] file with
  | .error f => return .error f
  | .ok none => return .ok (.inl { file, message := "File not found" })
  | .ok (some path) =>
    if s.excludes? here path then
      Host.log ⟨.debug, .run, s!"Skipping excluded file: {String.ofList file}"⟩
      return .ok (.inl { file, message := "Excluded" })
    else return .ok (.inr ⟨file, ds, path⟩)

/-- The plans for files with diagnostics, up to the first whose path cannot be followed. -/
def planFiles (s : Settings) (files : List (Text × List Diagnostic)) :
    m (Except PathFault (List (FixResult ⊕ FixTask))) :=
  (files.mapM fun f => ExceptT.mk (planFile s f.1 f.2)).run

/-- The files that have diagnostics, in the order of their names. -/
def filesOf (ds : List Diagnostic) : List (Text × List Diagnostic) :=
  (groupBy Diagnostic.file ds).mergeSort fun a b => Text.le a.1 b.1

/-! ### Evidence -/

/-- The name by which the linter's evidence refers to a file. -/
def evidenceName (s : Settings) (workingDirectory path : Path) : Text :=
  portable s.root.text (path.resolve workingDirectory).text

def evidenceFor (s : Settings) (evidence : List Evidence) (workingDirectory path : Path) :
    List Evidence :=
  evidence.filter fun e =>
    portable s.root.text (e.file.getD []) == evidenceName s workingDirectory path

/-- What the linter says of some files.  A linter that cannot be used says nothing. -/
def askLinter (s : Settings) (paths : List Path) : m (Except LinterError (List Evidence)) := do
  if paths.isEmpty || !s.flags.dropUnused then return .ok []
  else
    let here ← Host.workingDirectory
    match ← runLinter s (paths.map fun p => (p.resolve here).text) with
    | .ok es => return .ok es
    | .error e =>
      if e.isTolerated then
        Host.log ⟨.warning, .run,
          s!"Linter unavailable, relying on compiler evidence only: {e.message}"⟩
        return .ok []
      else return .error e

/-! ### The pass -/

/-- Why a pass came to no end. -/
inductive PassError where
  | source (f : PathFault)
  | linter (e : LinterError)
  /-- It is left blank how many files may be fixed at a time. -/
  | blankWorkers
deriving DecidableEq, Repr

def PassError.message : PassError → String
  | source f => f.message
  | linter e => e.message
  | blankWorkers => "the number of workers is left blank"

/-- Fixes the file of a task.  Whatever goes wrong is the result of this file alone. -/
def FixTask.run (s : Settings) (evidence : List Evidence) (t : FixTask) : m FixResult := do
  let own := evidenceFor s evidence (← Host.workingDirectory) t.path
  match ← fixSource s t.file t.diagnostics t.path own with
  | .ok r => return r
  | .error e =>
    let error := e.message t.path
    Host.log ⟨.error, .run, s!"Unexpected error fixing {String.ofList t.file}: {error}"⟩
    return { file := t.file, error := some error, message := "Unexpected error" }

def Batch.ofResults (total : Nat) (results : List FixResult) : Batch :=
  ⟨total, results.mergeSort fun a b => Text.le a.file b.file⟩

def runTasks (s : Settings) (plans : List (FixResult ⊕ FixTask)) : m (Except PassError Batch) := do
  let settled := plans.filterMap Sum.getLeft?
  let tasks := plans.filterMap Sum.getRight?
  let precise := tasks.filter fun t => !lackPlaces t.diagnostics
  match ← askLinter s (precise.map (·.path)) with
  | .error e => return .error (.linter e)
  | .ok evidence =>
    if s.workers = .blank then return .error .blankWorkers
    else
      let results ← tasks.mapM (·.run s evidence)
      let batch := Batch.ofResults plans.length (settled ++ results)
      Host.log ⟨.info, .run, batch.summary⟩
      return .ok batch

/-- Goes over all files that have diagnostics. -/
def fixPass (s : Settings) (ds : List Diagnostic) : m (Except PassError Batch) := do
  match ← planFiles s (filesOf ds) with
  | .error f => return .error (.source f)
  | .ok plans => runTasks s plans

end ImportRepair
