import ImportRepair.Diagnostic.Basic
import ImportRepair.Report.Instant
import ImportRepair.Run.Result
import ImportRepair.Run.Verification

/-!
# What a run reports

A run checks the project, fixes it and checks it again.  Its report holds the
diagnostics of both checks, the results of the fix pass between them, and the
phases that the run went through.
-/

namespace ImportRepair

/-- A phase of a run. -/
inductive Phase where
  | idle
  | checking
  | fixing
  | reverifying
  | done
deriving DecidableEq, Repr

namespace Phase

def all : List Phase := [.idle, .checking, .fixing, .reverifying, .done]

def name : Phase → String
  | idle => "idle"
  | checking => "checking"
  | fixing => "fixing"
  | reverifying => "reverifying"
  | done => "done"

end Phase

/-- The report of one run. -/
structure RunReport where
  started : Instant
  finished : Option Instant := none
  /-- The diagnostics of the first check. -/
  initial : List Diagnostic := []
  /-- The diagnostics of the second check, if there was one. -/
  final : Option (List Diagnostic) := none
  /-- The results of the fix pass, if there was one. -/
  batch : Option Batch := none
  verification : Option Verification := none
  phases : List Phase := []
  dryRun : Bool := false
deriving DecidableEq, Repr

namespace RunReport

variable (r : RunReport)

/-- How the run ended. -/
def outcome : Outcome := (r.verification.map (·.outcome)).getD .notVerified

def success : Bool := r.outcome == .passed

def exitCode : Nat := if r.success then 0 else 1

def remaining : List Diagnostic := r.final.getD r.initial

/-- How long the run took, in microseconds, if the instants can be compared. -/
def microseconds? : Option Int :=
  match r.finished with
  | none => some 0
  | some t => t.microsecondsSince? r.started

end RunReport

end ImportRepair
