import ImportRepair.Fix.Basic
import ImportRepair.Import.Merge
import ImportRepair.Import.Removal

/-!
# Fixing a text by evidence

The fix merges duplicate imports and then removes the bindings that evidence
names.  Evidence refers to lines of the text before the merge, so it is moved
to the lines on which the names stand after it.
-/

namespace ImportRepair

/-! ### Evidence after a merge -/

/-- A record of evidence on the lines of the merged text.  A record without a name becomes one
    record for each name of its statement, so that a statement takes no names of another with
    it. -/
def Evidence.move (table : ImportTable) (plan : MergePlan) (e : Evidence) : List Evidence :=
  let names := match e.name, table.onLine? e.line with
    | none, some s => s.boundNames.map some
    | name, _ => [name]
  names.map fun name => { e with line := plan.lineAfter e.line, name }

def moveEvidence (table : ImportTable) (plan : MergePlan) (evidence : List Evidence) :
    List Evidence :=
  evidence.flatMap (·.move table plan)

/-! ### Merge and removal -/

/-- Which fixes are made. -/
structure FixFlags where
  mergeDuplicates : Bool := true
  dropUnused : Bool := true
deriving DecidableEq, Repr

def FixFlags.mergePlan (flags : FixFlags) (table : ImportTable) : MergePlan :=
  if flags.mergeDuplicates then table.merge else {}

def MergePlan.action (p : MergePlan) : String :=
  let modules := ", ".intercalate (p.modules.map String.ofList)
  s!"merged {p.deletionCount} duplicate imports ({modules})"

def Removal.action (r : Removal) : String :=
  let names := ", ".intercalate (r.removed.map fun p => String.ofList p.2)
  s!"removed {r.removed.length} unused imports ({names})"

def mergedFix (flags : FixFlags) (t : Text) : TextFix :=
  let plan := flags.mergePlan (ImportTable.ofText t)
  if plan.changes then ⟨plan.apply t, plan.deletionCount, [plan.action]⟩ else { text := t }

/-- The evidence on the lines of the text after the merge that the flags allow. -/
def mergedEvidence (flags : FixFlags) (evidence : List Evidence) (t : Text) : List Evidence :=
  let table := ImportTable.ofText t
  moveEvidence table (flags.mergePlan table) evidence

def TextFix.remove (f : TextFix) (evidence : List Evidence) : TextFix :=
  let removal := Removal.plan (ImportTable.ofText f.text) evidence
  { text := ImportRepair.dropUnused evidence f.text
    changeCount := f.changeCount + removal.removed.length
    actions := f.actions ++ if removal.removed.isEmpty then [] else [removal.action] }

/-- Fixes a text by evidence. -/
def certifiedFix (flags : FixFlags) (evidence : List Evidence) (t : Text) : TextFix :=
  if flags.dropUnused then (mergedFix flags t).remove (mergedEvidence flags evidence t)
  else mergedFix flags t

def certifiedLog (flags : FixFlags) (evidence : List Evidence) (t : Text) : List LogRecord :=
  (if flags.mergeDuplicates then (ImportTable.ofText t).mergeLog else []) ++
    if flags.dropUnused then
      Removal.log (ImportTable.ofText (mergedFix flags t).text) (mergedEvidence flags evidence t)
    else []

end ImportRepair
