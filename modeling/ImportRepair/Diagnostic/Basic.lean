import ImportRepair.Diagnostic.Category
import ImportRepair.Grouping
import ImportRepair.Log

/-!
# Diagnostics

A diagnostic is one complaint of the compiler.  Its tier tells how it was found
in the compiler's output: in one of the two line formats, which give a line and
a column, or by a table or a bare path, which give no place that an edit could
rely on.
-/

namespace ImportRepair

/-- How severe the compiler takes a diagnostic to be. -/
inductive Severity where
  | error
  | warning
deriving DecidableEq, Repr

def Severity.name : Severity → String
  | error => "error"
  | warning => "warning"

/-- How a diagnostic was found. -/
inductive Tier where
  /-- A line `file(line,column): error TS1: message`. -/
  | primary
  /-- A line `file:line:column - error TS1: message`. -/
  | alternate
  /-- A row of the table of files. -/
  | summary
  /-- A path somewhere in the output. -/
  | scan
deriving DecidableEq, Repr

namespace Tier

def name : Tier → String
  | primary => "primary"
  | alternate => "alternate"
  | summary => "summary"
  | scan => "scan"

def hasPlace : Tier → Bool
  | primary | alternate => true
  | summary | scan => false

end Tier

/-- One complaint of the compiler. -/
structure Diagnostic where
  file : Text
  line : Int
  column : Int
  code : Text
  message : Text
  category : Category
  severity : Severity := .error
  /-- The source line that the compiler quotes. -/
  snippet : Option Text := none
  /-- The column of the mark below that line. -/
  caret : Option Int := none
  tier : Tier := .primary
deriving DecidableEq, Repr

namespace Diagnostic

def hasPlace (d : Diagnostic) : Bool := d.tier.hasPlace

/-- The order of diagnostics: by file, then by line, then by column. -/
def le (d e : Diagnostic) : Bool :=
  if d.file = e.file then
    if d.line = e.line then decide (d.column ≤ e.column) else decide (d.line < e.line)
  else Text.le d.file e.file

end Diagnostic

/-! ### Statistics -/

/-- What diagnostics are grouped by. -/
inductive GroupKey where
  | file
  | category
  | code
deriving DecidableEq, Repr

namespace GroupKey

def ofName? : String → Option GroupKey
  | "file" => some file
  | "category" => some category
  | "code" => some code
  | _ => none

def of (k : GroupKey) (d : Diagnostic) : Text :=
  match k with
  | file => d.file
  | category => d.category.name.toList
  | code => d.code

/-- The key with a name, or else the file, and what is reported of a name that is none. -/
def choose (name : String) : GroupKey × List LogRecord :=
  match ofName? name with
  | some k => (k, [])
  | none =>
    (file, [⟨.warning, .compilerOutput, s!"Invalid group key: {name}. Using 'file' instead."⟩])

end GroupKey

def categoryCounts (ds : List Diagnostic) : List (Category × Nat) := countBy (·.category) ds

/-- The codes with their numbers of diagnostics, most frequent first, ties in the order of the
    codes. -/
def rankedCodes (ds : List Diagnostic) : List (Text × Nat) :=
  (countBy (·.code) ds).mergeSort fun a b =>
    if a.2 = b.2 then Text.le a.1 b.1 else decide (b.2 < a.2)

/-- The first `limit` elements of a list; a negative limit leaves out that many at the end. -/
def takeUpTo {α : Type} (limit : Int) (l : List α) : List α :=
  if limit < 0 then l.take (l.length - limit.natAbs) else l.take limit.toNat

end ImportRepair
