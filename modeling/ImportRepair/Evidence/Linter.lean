import ImportRepair.Evidence.Basic
import ImportRepair.Json.Reader
import ImportRepair.Path.Portable

/-!
# Evidence from the linter

The linter reports in JSON: a list of files, each with its path and a list of
messages.  A message of one of the rules about unused variables that quotes a
name is evidence against that name.  Nothing is assumed of the shape of the
report; whatever else stands in it is either skipped or an error.
-/

namespace ImportRepair

/-- Why a report of the linter was not read. -/
inductive LinterReportError where
  | malformed (fault : Json.Fault) (place : Json.Place)
  /-- The report is JSON, but no list. -/
  | notAList
  /-- A text or number that stands for a line, a column or a value is no integer of a permitted
      length. -/
  | numeral (e : NumeralError)
  /-- The report nests too many values. -/
  | tooDeep (c : Json.Container)
  | notANumber
  | infinite
  /-- A value that should be an object or a text is neither. -/
  | noMember
  /-- A value is of a kind that cannot be used in its place. -/
  | wrongKind
deriving DecidableEq, Repr

namespace LinterReportError

def ofRead : Json.ReadError → LinterReportError
  | .malformed f p => .malformed f p
  | .numeral e => .numeral e
  | .tooDeep c => .tooDeep c

def message : LinterReportError → String
  | malformed f p => s!"Failed to parse ESLint output: {(Json.ReadError.malformed f p).message}"
  | notAList => "Unexpected ESLint output: top level is not a list"
  | numeral e => e.message
  | tooDeep c => (Json.ReadError.tooDeep c).message
  | notANumber => "cannot convert float NaN to integer"
  | infinite => "cannot convert float infinity to integer"
  | noMember => "a value has no members"
  | wrongKind => "a value is of the wrong kind"

end LinterReportError

namespace Json

/-- The field of an object, or a default if the object does not have it. -/
def field (v : Json) (name : String) (default : Json) : Except LinterReportError Json :=
  match v with
  | object fields => .ok ((fields.lookup name.toList).getD default)
  | _ => .error .noMember

/-- The values that a value consists of.  A text consists of its characters and an object of its
    field names. -/
def members : Json → Except LinterReportError (List Json)
  | array items => .ok items
  | object fields => .ok (fields.map fun f => .string f.1)
  | string t => .ok (t.map fun c => .string [c])
  | _ => .error .wrongKind

/-- A value that stands for nothing. -/
def isVoid : Json → Bool
  | null => true
  | bool b => !b
  | integer n => n == 0
  | float x => x.isZero
  | string t => t.isEmpty
  | array items => items.isEmpty
  | object fields => fields.isEmpty

def messageText : Json → Except LinterReportError Text
  | string t => .ok t
  | v => if v.isVoid then .ok [] else .error .wrongKind

/-- The integer that a value stands for; fractions are cut off. -/
def wholeNumber : Json → Except LinterReportError Int
  | integer n => .ok n
  | bool b => .ok (if b then 1 else 0)
  | string t =>
    match Numeral.integer t with
    | .ok n => .ok n
    | .error e => .error (.numeral e)
  | float .nan => .error .notANumber
  | float x => x.truncate?.elim (.error .infinite) .ok
  | _ => .error .wrongKind

def unusedRules : List Text :=
  ["no-unused-vars".toList, "@typescript-eslint/no-unused-vars".toList]

def isUnusedRule : Json → Except LinterReportError Bool
  | string t => .ok (unusedRules.contains t)
  | array _ | object _ => .error .wrongKind
  | _ => .ok false

end Json

namespace Evidence

/-- The evidence of a message about a file, if there is any. -/
def ofMessage (file : Text) (message : Json) : Except LinterReportError (Option Evidence) := do
  if ← (← message.field "ruleId" .null).isUnusedRule then
    let text ← (← message.field "message" .null).messageText
    match nameIn? text with
    | none => return none
    | some name =>
      let line ← (← message.field "line" (.integer 0)).wholeNumber
      let column ← (← message.field "column" (.integer 0)).wholeNumber
      return some { line, name, column, file, message := text, source := .linter }
  else return none

/-- The evidence of the report on one file.  Test files give none unless they are asked for. -/
def ofFileReport (root : Option Text) (includeTests : Bool) (report : Json) :
    Except LinterReportError (List Evidence) := do
  match ← report.field "filePath" (.string []) with
  | .string path =>
    let file := portable root path
    if !includeTests && isTestPath file then return []
    else
      let messages ← (← report.field "messages" (.array [])).members
      return (← messages.mapM (ofMessage file)).reduceOption
  | _ => throw .noMember

/-- How many containers of a report may lie within each other.  The number stands for what is left
    of the recursion limit when a report is read, in a program that was started as a module; the
    configuration file is read with three calls less on the way. -/
def depthLimit : Nat := 987

/-- The evidence of a report of the linter.  An empty report is a report on no file. -/
def ofLinterReport (root : Option Text) (includeTests : Bool) (report : Text) :
    Except LinterReportError (List Evidence) := do
  if report.isEmpty then return []
  else match Json.read depthLimit report with
    | .error e => throw (.ofRead e)
    | .ok (.array files) => return (← files.mapM (ofFileReport root includeTests)).flatten
    | .ok _ => throw .notAList

end Evidence

end ImportRepair
