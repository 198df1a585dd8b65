import ImportRepair.Diagnostic.Basic
import ImportRepair.Text.Search

/-!
# Evidence of unused bindings

This library never decides by itself that a binding is unused.  It removes what
the linter or the compiler has reported, and a report is one record of
evidence: a line, and the name of the binding, or no name for all bindings of
the line.
-/

namespace ImportRepair

/-- Which tool reported that a binding is unused. -/
inductive EvidenceSource where
  | linter
  | compiler
  /-- Another tool. -/
  | other (name : Text)
deriving DecidableEq, Repr

namespace EvidenceSource

def name : EvidenceSource → Text
  | linter => "eslint".toList
  | compiler => "compiler".toList
  | other n => n

def ofName (n : Text) : EvidenceSource :=
  if n = linter.name then linter else if n = compiler.name then compiler else other n

end EvidenceSource

/-- The report that a binding is unused. -/
structure Evidence where
  line : Int
  name : Option Text
  column : Int := 0
  file : Option Text := none
  message : Text := []
  source : EvidenceSource := .linter
deriving DecidableEq, Repr

namespace Evidence

/-! ### Names in messages -/

/-- A nonempty text between two quotation marks of the same kind. -/
def quotedName? : Text → Option Text
  | [] => none
  | c :: r =>
    if c = '\'' || c = '"' then
      match r.takeWhile (· != c), r.dropWhile (· != c) with
      | n@(_ :: _), _ :: _ => some n
      | _, _ => none
    else none

/-- The name that a message is about: the first quoted text in it. -/
def nameIn? (message : Text) : Option Text := firstMatch? quotedName? message

/-! ### Evidence from the compiler -/

/-- The code that reports a whole statement, where its message quotes no name. -/
def wholeStatementCode : Text := "TS6192".toList

/-- The codes that report unused declarations. -/
def unusedCodes : List Text :=
  ["TS6133".toList, wholeStatementCode, "TS6196".toList, "TS6198".toList]

/-- The evidence that a diagnostic gives, if it has a place and reports something unused. -/
def ofDiagnostic? (d : Diagnostic) : Option Evidence :=
  let name := nameIn? d.message
  if d.code ∈ unusedCodes && d.hasPlace && (name.isSome || d.code == wholeStatementCode) then
    some { line := d.line, name, column := d.column, file := some d.file, message := d.message,
           source := .compiler }
  else none

def ofDiagnostics (ds : List Diagnostic) : List Evidence := ds.filterMap ofDiagnostic?

end Evidence

end ImportRepair
