import ImportRepair.Diagnostic.Reader
import ImportRepair.Project.Settings
import ImportRepair.Text.ShellWords

/-!
# Running the compiler

The compiler is started in the root of the project.  What it prints on both of
its streams is read for diagnostics.
-/

namespace ImportRepair

/-! ### Commands -/

/-- Why a command cannot be used. -/
inductive CommandError where
  | blank
  | split (e : Shell.SplitError)
deriving DecidableEq, Repr

def CommandError.message : CommandError → String
  | blank => "the command is left blank"
  | split e => e.message

def commandWords : Entry Text → Except CommandError (List Text)
  | .blank => .error .blank
  | .value command => (Shell.words command).mapError .split

def spaced (words : List Text) : String := " ".intercalate (words.map String.ofList)

/-! ### The compiler -/

/-- Why the compiler gave no result. -/
inductive CompilerError where
  | command (e : CommandError)
  /-- The command has no words, so it names no program that could be started. -/
  | noProgram
  | notFound (program : Text)
  | denied (program : Text)
  | timedOut (timeout : Entry Int)
  | call (f : CallFault)
deriving DecidableEq, Repr

def notFoundMessage (program : Text) : String :=
  s!"[Errno 2] No such file or directory: {String.ofList (quoted program)}"

def deniedMessage (program : Text) : String :=
  s!"[Errno 13] Permission denied: {String.ofList (quoted program)}"

def CompilerError.message : CompilerError → String
  | command e => e.message
  | noProgram => "list index out of range"
  | notFound p => s!"Compiler not found: {String.ofList p} ({notFoundMessage p})"
  | denied p => s!"Failed to run compiler: {deniedMessage p}"
  | timedOut t => s!"Compiler timed out after {t.shown}s"
  | call f => f.message

/-- What a run of the compiler gave. -/
structure CompilerResult where
  output : Text
  code : Int
  arguments : List Text
deriving DecidableEq, Repr

def CompilerResult.success (r : CompilerResult) : Bool := r.code == 0

/-- The options by which a command names a configuration file itself. -/
def projectOptions : List Text := ["--project".toList, "-p".toList]

/-- The arguments of the compiler.  The configuration file is passed unless the command names
    one. -/
def compilerArguments (command : Entry Text) (tsconfig : Option Path) :
    Except CommandError (List Text) := do
  let words ← commandWords command
  match tsconfig with
  | some p =>
    if projectOptions.any words.contains then return words
    else return words ++ ["--project".toList, p.text]
  | none => return words

variable {m : Type → Type} [Monad m] [Host m]

def runCompiler (s : Settings) : m (Except CompilerError CompilerResult) := do
  match compilerArguments s.compiler s.tsconfig with
  | .error e => return .error (.command e)
  | .ok arguments =>
    Host.log ⟨.info, .tools, s!"Running type check: {spaced arguments}"⟩
    let call : ToolCall := ⟨arguments, s.root, s.timeout⟩
    match ← Host.start call with
    | .notFound => return .error ((call.program?.map .notFound).getD .noProgram)
    | .denied => return .error ((call.program?.map .denied).getD .noProgram)
    | .timedOut => return .error (.timedOut s.timeout)
    | .broken f => return .error (.call f)
    | .finished stdout stderr code =>
      Host.log ⟨.debug, .tools, s!"Compiler exited with {code}"⟩
      return .ok ⟨stdout ++ '\n' :: stderr, code, arguments⟩

def check (s : Settings) : m (Except CompilerError (List Diagnostic × CompilerResult)) := do
  match ← runCompiler s with
  | .error e => return .error e
  | .ok run =>
    let (ds, log) := readOutput s.root.text true run.output
    Host.logAll log
    return .ok (ds, run)

end ImportRepair
