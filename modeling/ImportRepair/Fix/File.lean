import ImportRepair.Diff.Unified
import ImportRepair.Fix.Certified
import ImportRepair.Fix.Heuristic
import ImportRepair.Project.Settings
import ImportRepair.Run.Result

/-!
# Fixing a file

A file is read, its text is fixed, and the new text is written back, or shown
as a diff in a dry run.  A file that cannot be read or written fails by itself
and does not disturb other files.
-/

namespace ImportRepair

/-! ### Source files -/

/-- Why a source file was not fixed. -/
inductive SourceError where
  | unreadable (fault : FileFault)
  | encoding (fault : Utf8.Fault)
  | unwritable (fault : FileFault)
  /-- A rule is asked for, but its name is left blank. -/
  | blankRule
deriving DecidableEq, Repr

def SourceError.message (path : Path) (e : SourceError) : String :=
  let place := String.ofList path.text
  match e with
  | unreadable .nulCharacter | unwritable .nulCharacter => FileFault.nulCharacter.message path
  | unreadable f => s!"{place}: cannot read: {f.message path}"
  | encoding f => s!"{place}: cannot read: {f.message}"
  | unwritable f => s!"{place}: cannot write: {f.message path}"
  | blankRule => "unhashable type: 'list'"

/-- The error is one that files are expected to have.  It is then a result like others. -/
def SourceError.isExpected : SourceError → Bool
  | unreadable .nulCharacter | unwritable .nulCharacter | blankRule => false
  | _ => true

variable {m : Type → Type} [Monad m] [Host m]

def loadSource (path : Path) : m (Except SourceError Text) := do
  match ← Host.read path with
  | .error f => return .error (.unreadable f)
  | .ok octets =>
    match Utf8.decode octets with
    | .error f => return .error (.encoding f)
    | .ok t => return .ok t

def storeSource (path : Path) (t : Text) : m (Except SourceError Unit) := do
  match ← Host.write path (Utf8.encode t) with
  | .error f => return .error (.unwritable f)
  | .ok () => return .ok ()

/-! ### Methods -/

/-- A way of fixing a file, with the words that report it. -/
structure FixMethod where
  fix : Text → TextFix
  log : Text → List LogRecord
  /-- Why the method cannot be carried through, whatever the text. -/
  obstacle : Option SourceError := none
  /-- What is reported if nothing changes. -/
  unchangedLog : List LogRecord
  /-- What is reported of a message about a file that was written. -/
  writtenLog : String → List LogRecord
  /-- The actions in one sentence. -/
  sentence : List String → String
  written : String → String

/-- Stores the fix of a text, or shows it in a dry run. -/
def FixMethod.store (method : FixMethod) (dryRun : Bool) (file : Text) (path : Path)
    (before : Text) (f : TextFix) : m (Except SourceError FixResult) := do
  let sentence := method.sentence f.actions
  let result : FixResult :=
    { file, fixed := true, changeCount := f.changeCount, actions := f.actions }
  if dryRun then
    return .ok { result with
      message := s!"Changes identified (dry run): {sentence}"
      diff := some (Diff.unified file before f.text) }
  else match ← storeSource path f.text with
    | .error e => return .error e
    | .ok () =>
      let message := method.written sentence
      Host.logAll (method.writtenLog message)
      return .ok { result with message }

def FixMethod.apply (method : FixMethod) (dryRun : Bool) (file : Text) (path : Path) :
    m (Except SourceError FixResult) := do
  match ← loadSource path with
  | .error e => return .error e
  | .ok before =>
    let f := method.fix before
    Host.logAll (method.log before)
    match method.obstacle with
    | some e => return .error e
    | none =>
      if f.text = before then
        Host.logAll method.unchangedLog
        return .ok { file, message := "No changes needed" }
      else method.store dryRun file path before f

/-- The result of a fix, also of one that failed as expected. -/
def settle (source : LogSource) (file : Text) (path : Path) (r : Except SourceError FixResult) :
    m (Except SourceError FixResult) := do
  match r with
  | .ok result => return .ok result
  | .error e =>
    if e.isExpected then
      let error := e.message path
      Host.log ⟨.error, source, s!"Error processing {String.ofList file}: {error}"⟩
      return .ok { file, error := some error, message := "File I/O failed" }
    else return .error e

/-- The fix by evidence. -/
def FixMethod.certified (flags : FixFlags) (evidence : List Evidence) (file : Text) :
    FixMethod where
  fix := certifiedFix flags evidence
  log := certifiedLog flags evidence
  unchangedLog := []
  writtenLog message := [⟨.info, .run, s!"Fixed {String.ofList file}: {message}"⟩]
  sentence := "; ".intercalate
  written sentence := sentence

/-- The names of rules in front of the first one that is left blank. -/
def namedRules (rules : List (Entry Text)) : List Text :=
  (rules.takeWhile (· != .blank)).filterMap Entry.value?

/-- The fix without evidence.  It breaks off at a rule whose name is left blank. -/
def FixMethod.heuristic (mergeDuplicates : Bool) (rules : List (Entry Text)) (file : Text) :
    FixMethod where
  fix := heuristicFix mergeDuplicates (namedRules rules)
  log := heuristicLog mergeDuplicates (namedRules rules)
  obstacle := if .blank ∈ rules then some .blankRule else none
  unchangedLog := [⟨.info, .heuristicFix, s!"No changes needed for {String.ofList file}"⟩]
  writtenLog _ := []
  sentence := ", ".intercalate
  written sentence := s!"Heuristic cleanup: {sentence}"

/-! ### Files -/

/-- Fixes a file without evidence, unless one of its diagnostics has a place. -/
def fixWithoutEvidence (s : Settings) (file : Text) (ds : List Diagnostic) (path : Path) :
    m (Except SourceError FixResult) := do
  if lackPlaces ds then
    Host.log ⟨.info, .heuristicFix,
      s!"No specific errors identified in {String.ofList file}, using heuristic-based cleanup"⟩
    let method := FixMethod.heuristic s.flags.mergeDuplicates s.rules file
    settle .heuristicFix file path (← method.apply s.dryRun file path)
  else return .ok { file, message := "Precise diagnostics available, heuristics not applied" }

/-- Fixes a file: by evidence, or if no diagnostic has a place, without. -/
def fixSource (s : Settings) (file : Text) (ds : List Diagnostic) (path : Path)
    (evidence : List Evidence) : m (Except SourceError FixResult) := do
  if lackPlaces ds then
    if s.heuristics then fixWithoutEvidence s file ds path
    else return .ok { file, message := "Only low-confidence diagnostics, heuristics disabled" }
  else
    let method := FixMethod.certified s.flags (evidence ++ Evidence.ofDiagnostics ds) file
    settle .run file path (← method.apply s.dryRun file path)

end ImportRepair
