import ImportRepair.Text.Basic

/-!
# Results of a fix pass

Each file of a fix pass has one result.  A result with an error has failed;
any other is either a fix or leaves the file alone.
-/

namespace ImportRepair

/-- What became of one file. -/
structure FixResult where
  file : Text
  fixed : Bool := false
  changeCount : Int := 0
  message : String := ""
  error : Option String := none
  actions : List String := []
  /-- What a dry run would change. -/
  diff : Option Text := none
deriving DecidableEq, Repr

namespace FixResult

variable (r : FixResult)

def failed : Bool := r.error.isSome

def skipped : Bool := !r.fixed && !r.failed

end FixResult

/-- The results of one fix pass. -/
structure Batch where
  /-- The number of files that the pass set out to fix. -/
  total : Int := 0
  details : List FixResult := []
deriving DecidableEq, Repr

namespace Batch

variable (b : Batch)

def add (r : FixResult) : Batch := { b with details := b.details ++ [r] }

def processed : Nat := b.details.length

def failed : Nat := b.details.countP (·.failed)

def fixed : Nat := b.details.countP fun r => !r.failed && r.fixed

def skipped : Nat := b.details.countP (·.skipped)

def changeCount : Int := b.details.foldl (fun n r => n + r.changeCount) 0

end Batch

end ImportRepair
