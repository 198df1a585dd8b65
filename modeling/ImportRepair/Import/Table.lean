import ImportRepair.Grouping
import ImportRepair.Import.Reader

/-!
# The import table of a file

The table holds the statements of a file in the order of their lines.  Views of
it give the statement on a line, the statements of each module, and the modules
that have statements to merge.
-/

namespace ImportRepair

/-- The import statements of a file, in the order of their lines. -/
abbrev ImportTable := List Statement

namespace ImportTable

/-- A line that may hold a statement: it mentions one of the words that make one. -/
def isCandidate (t : Text) : Bool :=
  Text.occursIn "import".toList t || Text.occursIn "require".toList t

/-- The import table of a text. -/
def ofText (t : Text) : ImportTable :=
  (Text.numberedLines t).filterMap fun p =>
    if isCandidate p.2 then Statement.ofLine? p.2 p.1 else none

variable (table : ImportTable)

def onLine? (line : Int) : Option Statement := table.find? (·.line == line)

/-- The statements by module, in the order in which the modules first occur. -/
def byModule : List (Text × List Statement) := groupBy (·.specifier) table

end ImportTable

/-- Statements that share a key, in the order of the keys' first occurrence. -/
def mergeGroups (statements : List Statement) : List (MergeKey × List Statement) :=
  groupBy Statement.mergeKey statements

/-- The modules some two statements of which share their style and their type flag, with all
    their statements. -/
def ImportTable.duplicateModules (table : ImportTable) : List (Text × List Statement) :=
  table.byModule.filter fun g =>
    let keys := g.2.map Statement.mergeKey
    keys.any fun key => decide (1 < keys.count key)

def ImportTable.duplicates (table : ImportTable) : List Text := table.duplicateModules.map (·.1)

end ImportRepair
