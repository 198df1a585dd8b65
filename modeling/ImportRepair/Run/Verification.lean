/-!
# Verification

After a fix pass the compiler is run again, and the number of its diagnostics
is compared with the number before the pass.
-/

namespace ImportRepair

/-- How a run ended. -/
inductive Outcome where
  /-- No diagnostic is left, and the compiler succeeds. -/
  | passed
  /-- Fewer diagnostics are left than there were. -/
  | improved
  | unchanged
  /-- There are more diagnostics than before. -/
  | regression
  /-- The compiler was not run again. -/
  | notVerified
  /-- The compiler fails, but its output has no diagnostic. -/
  | unparsed
deriving DecidableEq, Repr

namespace Outcome

def all : List Outcome := [.passed, .improved, .unchanged, .regression, .notVerified, .unparsed]

def name : Outcome → String
  | passed => "passed"
  | improved => "improved"
  | unchanged => "unchanged"
  | regression => "regression"
  | notVerified => "not_verified"
  | unparsed => "unparsed"

end Outcome

/-- The numbers of diagnostics before and after a fix pass. -/
structure Verification where
  outcome : Outcome
  initial : Int
  final : Option Int := none
deriving DecidableEq, Repr

namespace Verification

/-- The outcome for the numbers of diagnostics before and after a pass, where `success` tells
    whether the compiler succeeded after it. -/
def outcomeOf (initial final : Int) (success : Bool) : Outcome :=
  if final = 0 then if success then .passed else .unparsed
  else if final < initial then .improved
  else if final = initial then .unchanged
  else .regression

def compare (initial final : Int) (success : Bool) : Verification :=
  ⟨outcomeOf initial final success, initial, some final⟩

variable (v : Verification)

/-- By how much the number of diagnostics has grown. -/
def delta? : Option Int := v.final.map (· - v.initial)

def isWorse : Bool := v.outcome == .regression

end Verification

end ImportRepair
