import ImportRepair.Fix.Pass
import ImportRepair.Run.Report

/-!
# A run

A run checks the project, fixes it once and checks it once more:

* idle, checking, done: nothing to fix, or fixing is switched off;
* idle, checking, fixing, done: a dry run;
* idle, checking, fixing, reverifying, done.

The phases are kept from run to run.
-/

namespace ImportRepair

/-- Why a run came to no end. -/
inductive RunError where
  | compiler (e : CompilerError)
  | fix (e : PassError)
deriving DecidableEq, Repr

def RunError.message : RunError → String
  | compiler e => e.message
  | fix e => e.message

variable {m : Type → Type} [Monad m] [Host m]

/-- A computation that goes through phases and may fail. -/
abbrev RunT (m : Type → Type) (α : Type) : Type := ExceptT RunError (StateT (List Phase) m) α

namespace Run

def perform {α : Type} (a : m α) : RunT m α := monadLift a

def note (level : LogLevel) (text : String) : RunT m Unit :=
  perform (Host.log ⟨level, .run, text⟩)

def enter (p : Phase) : RunT m Unit := do
  let before := (← get).getLast?.getD .idle
  note .debug s!"State: {before.name} -> {p.name}"
  modify (· ++ [p])

def check (s : Settings) : RunT m (List Diagnostic × CompilerResult) := do
  match ← perform (ImportRepair.check s) with
  | .ok r => return r
  | .error e => throw (.compiler e)

def fix (s : Settings) (ds : List Diagnostic) : RunT m Batch := do
  match ← perform (fixPass s ds) with
  | .ok b => return b
  | .error e => throw (.fix e)

def finish (r : RunReport) : RunT m RunReport := do
  enter .done
  let phases ← get
  let now ← perform Host.now
  return { r with phases, finished := some now }

/-- Ends a run whose first check found nothing. -/
def finishClean (r : RunReport) (c : CompilerResult) : RunT m RunReport := do
  let v := Verification.compare 0 0 c.success
  if v.outcome = .unparsed then
    note .error s!"Compiler exited with {c.code} but no diagnostics could be parsed"
  else note .info "No TypeScript errors found"
  finish { r with verification := some v }

/-- Ends a run that is not verified. -/
def finishUnverified (r : RunReport) : RunT m RunReport :=
  finish { r with verification := some ⟨.notVerified, r.initial.length, none⟩ }

/-- Ends a run whose second check found `final`. -/
def finishVerified (r : RunReport) (final : List Diagnostic) (c : CompilerResult) :
    RunT m RunReport := do
  let v := Verification.compare r.initial.length final.length c.success
  if v.isWorse then
    note .warning
      s!"Fixes increased the diagnostic count from {r.initial.length} to {final.length}"
  else
    note .info (s!"Re-verification: {v.outcome.name} " ++
      s!"({r.initial.length} -> {final.length} diagnostics)")
  finish { r with final := some final, verification := some v }

end Run

def run (s : Settings) : RunT m RunReport := do
  let started ← Run.perform Host.now
  Run.enter .checking
  let (initial, first) ← Run.check s
  let report : RunReport := { started, initial, dryRun := s.dryRun }
  if initial.isEmpty then Run.finishClean report first
  else
    Run.note .info s!"Found {initial.length} TypeScript diagnostics"
    if !s.fix then Run.finishUnverified report
    else
      Run.enter .fixing
      let batch ← Run.fix s initial
      let report := { report with batch := some batch }
      if s.dryRun then Run.finishUnverified report
      else
        Run.enter .reverifying
        let (final, second) ← Run.check s
        Run.finishVerified report final second

/-- The results of `n` runs, one after the other, where `phases` are those gone through before. -/
def runs (s : Settings) (phases : List Phase) : Nat → m (List (Except RunError RunReport))
  | 0 => return []
  | n + 1 => do
    let (r, phases) ← (run s).run.run phases
    return r :: (← runs s phases n)

/-- The phases of a program that has not run yet. -/
def initialPhases : List Phase := [.idle]

end ImportRepair
