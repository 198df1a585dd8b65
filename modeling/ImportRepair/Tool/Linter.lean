import ImportRepair.Evidence.Linter
import ImportRepair.Tool.Compiler

/-!
# Running the linter

The linter is asked about unused names in some files and answers in JSON.
-/

namespace ImportRepair

/-- Why the linter gave no evidence. -/
inductive LinterError where
  | command (e : CommandError)
  | notFound (program : Text)
  | denied (program : Text)
  | timedOut (timeout : Entry Int)
  /-- The linter failed and printed no report. -/
  | failed (code : Int) (stderr : Text)
  | report (e : LinterReportError)
  | call (f : CallFault)
deriving DecidableEq, Repr

/-- How many characters of the linter's complaint are quoted. -/
def quotedComplaint : Nat := 500

def LinterError.message : LinterError → String
  | command e => e.message
  | notFound p => s!"Linter not found: {String.ofList p} ({notFoundMessage p})"
  | denied p => s!"Failed to run linter: {deniedMessage p}"
  | timedOut t => s!"Linter timed out after {t.shown}s"
  | failed code stderr =>
    s!"Linter exited with {code}: {String.ofList ((Text.trim stderr).take quotedComplaint)}"
  | report e => e.message
  | call f => f.message

/-- The linter could not be used, which a fix pass puts up with. -/
def LinterError.isTolerated : LinterError → Bool
  | notFound _ | denied _ | timedOut _ | failed _ _ => true
  | report (.malformed _ _) | report .notAList => true
  | _ => false

/-- The options that make the linter report unused names in JSON. -/
def reportOptions : List Text :=
  ["--format".toList, "json".toList, "--rule".toList,
   "@typescript-eslint/no-unused-vars: error".toList]

def linterArguments (command : Entry Text) (files : List Text) :
    Except CommandError (List Text) := do
  return (← commandWords command) ++ reportOptions ++ files

/-- The evidence of a linter that has ended.  It ends with 1 if it has found something. -/
def readLinter (s : Settings) (stdout stderr : Text) (code : Int) :
    Except LinterError (List Evidence) :=
  if code ≠ 0 ∧ code ≠ 1 ∧ Text.allBlank stdout then .error (.failed code stderr)
  else match Evidence.ofLinterReport s.root.text s.includeTests stdout with
    | .ok es => .ok es
    | .error e => .error (.report e)

variable {m : Type → Type} [Monad m] [Host m]

/-- Runs the linter on some files.  Without files there is nothing to run. -/
def runLinter (s : Settings) (files : List Text) : m (Except LinterError (List Evidence)) := do
  if files.isEmpty then return .ok []
  else match linterArguments s.linter files with
    | .error e => return .error (.command e)
    | .ok arguments =>
      Host.log ⟨.debug, .tools, s!"Running command: {spaced arguments}"⟩
      let call : ToolCall := ⟨arguments, s.root, s.timeout⟩
      match ← Host.start call with
      | .notFound => return .error (.notFound call.program)
      | .denied => return .error (.denied call.program)
      | .timedOut => return .error (.timedOut s.timeout)
      | .broken f => return .error (.call f)
      | .finished stdout stderr code =>
        match readLinter s stdout stderr code with
        | .error e => return .error e
        | .ok es =>
          Host.log ⟨.info, .tools, s!"Linter reported {es.length} unused bindings"⟩
          return .ok es

end ImportRepair
