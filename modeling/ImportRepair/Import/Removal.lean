import ImportRepair.Evidence.Basic
import ImportRepair.Import.Empty
import ImportRepair.Import.Printer
import ImportRepair.Import.Table
import ImportRepair.Log
import ImportRepair.Text.Quoted

/-!
# Removing unused bindings

Evidence names a line and a binding.  A statement on that line loses the
binding, and the whole line goes when no binding is left.  Where the braces
keep some of their items, only the text between them changes; the other items
stay as they were written.
-/

namespace ImportRepair

/-! ### One statement -/

/-- What becomes of a statement. -/
inductive StatementRemoval where
  | unchanged
  /-- The line goes, with all of its names. -/
  | deleted (names : List Text)
  /-- Some names are removed; the line changes. -/
  | changed (line : Text) (names : List Text)
deriving DecidableEq, Repr

/-- The first braces in a text: what stands before them, between them and after them. -/
def firstBraces? : Text → Option (Text × Text × Text)
  | [] => none
  | c :: r =>
    match braces? (c :: r) with
    | some (body, rest) => some ([], body, rest)
    | none => (firstBraces? r).map fun (before, body, rest) => (c :: before, body, rest)

namespace Statement

variable (s : Statement)

/-- The line without the named bindings that are in `names`; all other items keep their text. -/
def withoutItems (names : List Text) : Text :=
  match firstBraces? s.raw with
  | none => s.raw
  | some (before, body, rest) =>
    let kept := ((Text.items body).zip s.named).filter fun p => !names.contains p.2.localName
    before ++ braced (kept.map (·.1)) ++ rest

/-- What becomes of the statement when `names` are removed. -/
def without (names : List Text) : StatementRemoval :=
  let lost := s.bindings.filter fun b => names.contains b.localName
  let kept := s.bindings.filter fun b => !names.contains b.localName
  let removed := lost.map (·.localName)
  if lost.isEmpty then .unchanged
  else if kept.isEmpty then .deleted removed
  else if lost.all (·.kind = .named) && kept.any (·.kind = .named) then
    .changed (s.withoutItems names) removed
  else .changed (s.render kept) removed

/-- What becomes of the statement under evidence; no name stands for all names. -/
def removal (names : List (Option Text)) : StatementRemoval :=
  if names.contains none then
    if s.bindings.isEmpty then .unchanged else .deleted s.boundNames
  else s.without names.reduceOption

end Statement

/-! ### A text -/

/-- The names that evidence gives for each line, in the order of the lines. -/
def evidenceByLine (evidence : List Evidence) : List (Int × List (Option Text)) :=
  let groups := (groupBy Evidence.line evidence).map fun g => (g.1, (g.2.map (·.name)).eraseDups)
  groups.mergeSort fun a b => decide (a.1 ≤ b.1)

def ImportTable.removal? (table : ImportTable) (line : Int) (names : List (Option Text)) :
    Option StatementRemoval :=
  (table.onLine? line).map fun s => s.removal names

/-- Removals planned for a text. -/
structure Removal where
  edits : LineEdits := {}
  /-- The removed names with their lines. -/
  removed : List (Int × Text) := []
deriving DecidableEq, Repr

namespace Removal

def append (a b : Removal) : Removal :=
  ⟨⟨a.edits.replacements ++ b.edits.replacements, a.edits.deletions ++ b.edits.deletions⟩,
    a.removed ++ b.removed⟩

instance : Append Removal := ⟨append⟩

def ofLine (table : ImportTable) (line : Int) (names : List (Option Text)) : Removal :=
  match table.removal? line names with
  | none | some .unchanged => {}
  | some (.deleted ns) => ⟨⟨[], [line]⟩, ns.map (line, ·)⟩
  | some (.changed t ns) => ⟨⟨[(line, t)], []⟩, ns.map (line, ·)⟩

def logOfLine (table : ImportTable) (line : Int) (names : List (Option Text)) : List LogRecord :=
  match table.removal? line names with
  | none =>
    let given := names.reduceOption.filter fun n => !n.isEmpty
    let skipped := quotedList (given.mergeSort Text.le)
    [⟨.debug, .removal, s!"Line {line}: no import statement, skipping {String.ofList skipped}"⟩]
  | some .unchanged => []
  | some (.deleted ns) | some (.changed _ ns) =>
    let list := ", ".intercalate (ns.map String.ofList)
    [⟨.debug, .removal, s!"Line {line}: removed unused imports: {list}"⟩]

/-- The removals that evidence calls for. -/
def plan (table : ImportTable) (evidence : List Evidence) : Removal :=
  (evidenceByLine evidence).foldr (fun p r => ofLine table p.1 p.2 ++ r) {}

def log (table : ImportTable) (evidence : List Evidence) : List LogRecord :=
  (evidenceByLine evidence).flatMap fun p => logOfLine table p.1 p.2

/-- The text after the removals, without imports of nothing. -/
def apply (r : Removal) (t : Text) : Text := dropEmptyImports (r.edits.apply t)

end Removal

/-- The text without the bindings that evidence names.  Without evidence nothing changes. -/
def dropUnused (evidence : List Evidence) (t : Text) : Text :=
  if evidence.isEmpty then t else (Removal.plan (ImportTable.ofText t) evidence).apply t

/-! ### Several passes -/

/-- One of several passes over a text, with the removals up to then. -/
structure RemovalPass where
  text : Text
  total : Removal
deriving DecidableEq, Repr

/-- The passes over a text, each with its own evidence, where `total` has been removed before. -/
def removalPasses (t : Text) (total : Removal) : List (List Evidence) → List RemovalPass
  | [] => []
  | evidence :: rest =>
    let total := total ++ Removal.plan (ImportTable.ofText t) evidence
    let u := dropUnused evidence t
    ⟨u, total⟩ :: removalPasses u total rest

end ImportRepair
