import ImportRepair.Diagnostic.Basic
import ImportRepair.Fix.Basic
import ImportRepair.Fix.Console
import ImportRepair.Import.Merge

/-!
# Fixing a text without evidence

A file for which the compiler gives no line is still cleaned up: duplicate
imports are merged, which depends on nothing but the text itself.  Further
rules are applied only if they are asked for by name.
-/

namespace ImportRepair

/-! ### Rules -/

/-- A change of texts that has to be asked for. -/
inductive Rule where
  | consoleStatements
deriving DecidableEq, Repr

namespace Rule

def all : List Rule := [.consoleStatements]

def name : Rule → Text
  | consoleStatements => "console-statements".toList

def ofName? (n : Text) : Option Rule := all.find? (·.name == n)

def count (t : Text) : Rule → Nat
  | consoleStatements => countConsoleCalls t

def apply (t : Text) : Rule → Text
  | consoleStatements => removeConsoleCalls t

end Rule

/-- The fix after the rule with a name.  A name of no rule changes nothing. -/
def TextFix.applyRule (f : TextFix) (name : Text) : TextFix :=
  match Rule.ofName? name with
  | none => f
  | some rule =>
    match rule.count f.text with
    | 0 => f
    | n + 1 =>
      { text := rule.apply f.text
        changeCount := f.changeCount + (n + 1)
        actions := f.actions ++ [s!"{String.ofList rule.name}:{n + 1}"] }

def TextFix.applyAll (f : TextFix) (names : List Text) : TextFix :=
  names.foldl TextFix.applyRule f

def rulesLog (names : List Text) : List LogRecord :=
  (names.filter fun n => (Rule.ofName? n).isNone).map fun n =>
    ⟨.warning, .heuristicFix, s!"Unknown heuristic rule: {String.ofList n}"⟩

/-! ### Merge and rules -/

def heuristicMerge (t : Text) : TextFix :=
  let plan := (ImportTable.ofText t).merge
  { text := plan.apply t
    changeCount := plan.deletionCount
    actions := if plan.deletionCount = 0 then [] else ["merge-duplicates"] }

def heuristicFix (mergeDuplicates : Bool) (rules : List Text) (t : Text) : TextFix :=
  (if mergeDuplicates then heuristicMerge t else { text := t }).applyAll rules

def heuristicLog (mergeDuplicates : Bool) (rules : List Text) (t : Text) : List LogRecord :=
  (if mergeDuplicates then (ImportTable.ofText t).mergeLog else []) ++ rulesLog rules

/-- Only the heuristic fix applies: there are diagnostics, and none of them has a place. -/
def lackPlaces (ds : List Diagnostic) : Bool := !ds.isEmpty && !ds.any (·.hasPlace)

end ImportRepair
