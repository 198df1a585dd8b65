import ImportRepair.Fix.Heuristic
import ImportRepair.Project.Settings

/-!
# Options of the command line

An option is a switch, or it takes a value, or it asks for help.  The table of
options gives for each of them its names; everything that is said about an
option in messages comes from this table.
-/

namespace ImportRepair.Cli

/-- An option without a value. -/
inductive Switch where
  | includeTests
  | noFix
  | noDuplicateFix
  | noUnusedFix
  | noHeuristics
  | dryRun
  | report
  | noSuggestions
  | verbose
  | quiet
deriving DecidableEq, Repr

/-- An option with a value. -/
inductive Valued where
  | directory
  | tsconfig
  | exclude
  | rule
  | compiler
  | linter
  | timeout
  | workers
  | reportPath
  | exportPath
deriving DecidableEq, Repr

/-- What an option does. -/
inductive OptionKind where
  | help
  | version
  | switch (s : Switch)
  | valued (v : Valued)
deriving DecidableEq, Repr

structure OptionSpec where
  kind : OptionKind
  names : List Text
deriving DecidableEq, Repr

def spec (kind : OptionKind) (names : List String) : OptionSpec := ⟨kind, names.map (·.toList)⟩

def optionTable : List OptionSpec :=
  [spec .help ["-h", "--help"],
   spec (.valued .directory) ["--dir", "-d"],
   spec (.valued .tsconfig) ["--tsconfig", "-c"],
   spec (.valued .exclude) ["--exclude", "-e"],
   spec (.switch .includeTests) ["--include-tests"],
   spec (.switch .noFix) ["--no-fix"],
   spec (.switch .noDuplicateFix) ["--no-duplicate-fix"],
   spec (.switch .noUnusedFix) ["--no-unused-fix"],
   spec (.switch .noHeuristics) ["--no-heuristics"],
   spec (.valued .rule) ["--rule"],
   spec (.switch .dryRun) ["--dry-run", "-n"],
   spec (.valued .compiler) ["--compiler-cmd"],
   spec (.valued .linter) ["--linter-cmd"],
   spec (.valued .timeout) ["--timeout"],
   spec (.valued .workers) ["--workers"],
   spec (.switch .report) ["--report"],
   spec (.valued .reportPath) ["--report-path"],
   spec (.switch .noSuggestions) ["--no-suggestions"],
   spec (.valued .exportPath) ["--export"],
   spec (.switch .verbose) ["--verbose", "-v"],
   spec (.switch .quiet) ["--quiet", "-q"],
   spec .version ["--version", "-V"]]

namespace OptionSpec

def takesValue (o : OptionSpec) : Bool :=
  match o.kind with
  | .valued _ => true
  | _ => false

/-- The names of an option, as messages give them. -/
def title (o : OptionSpec) : Text := ['/'].intercalate o.names

end OptionSpec

def namedOptions : List (Text × OptionSpec) :=
  optionTable.flatMap fun o => o.names.map fun n => (n, o)

def option? (name : Text) : Option OptionSpec := namedOptions.lookup name

/-! ### Errors -/

/-- What is wrong with the use of an option. -/
inductive OptionProblem where
  | noValue
  /-- A switch has been given a value. -/
  | unwantedValue (value : Text)
  | notAnInteger (value : Text)
  | unknownChoice (value : Text)
deriving DecidableEq, Repr

def OptionProblem.message : OptionProblem → String
  | noValue => "expected one argument"
  | unwantedValue v => s!"ignored explicit argument {String.ofList (quoted v)}"
  | notAnInteger v => s!"invalid int value: {String.ofList (quoted v)}"
  | unknownChoice v =>
    let choices := ", ".intercalate (Rule.all.map fun r => String.ofList (quoted r.name))
    s!"invalid choice: {String.ofList (quoted v)} (choose from {choices})"

/-- Why a command line is refused. -/
inductive UsageError where
  /-- Several options begin like an argument. -/
  | ambiguous (argument : Text) (names : List Text)
  | problem (option : OptionSpec) (p : OptionProblem)
  | unrecognized (arguments : List Text)
deriving DecidableEq, Repr

def UsageError.message : UsageError → String
  | ambiguous a names =>
    let list := ", ".intercalate (names.map String.ofList)
    s!"ambiguous option: {String.ofList a} could match {list}"
  | problem o p => s!"argument {String.ofList o.title}: {p.message}"
  | unrecognized as =>
    let list := " ".intercalate (as.map String.ofList)
    s!"unrecognized arguments: {list}"

/-! ### Options that are given -/

/-- What a command line asks for. -/
structure Options where
  target : Option Path := none
  directory : Option (Entry Path) := none
  tsconfig : Option (Entry Path) := none
  /-- Names of directories that are excluded besides the usual ones. -/
  exclude : List (Entry Text) := []
  rules : List (Entry Text) := []
  compiler : Entry Text := defaultCompiler
  linter : Entry Text := defaultLinter
  timeout : Entry Int := defaultTimeout
  workers : Entry Int := defaultWorkers
  reportPath : Entry Path := Path.ofText "typescript-errors.log".toList
  exportPath : Option (Entry Path) := none
  switches : List Switch := []
deriving DecidableEq, Repr

namespace Options

variable (o : Options)

def has (s : Switch) : Bool := o.switches.contains s

def turnOn (s : Switch) : Options := { o with switches := o.switches ++ [s] }

/-- What the value of an option says.  Two dashes leave the option blank. -/
def entryOf (value : Text) : Entry Text := if value = ['-', '-'] then .blank else .value value

def integer : Entry Text → Except OptionProblem (Entry Int)
  | .blank => .ok .blank
  | .value t =>
    match Numeral.integer t with
    | .ok n => .ok (.value n)
    | .error _ => .error (.notAnInteger t)

def ruleName : Entry Text → Except OptionProblem (Entry Text)
  | .blank => .ok .blank
  | .value t => if (Rule.ofName? t).isSome then .ok (.value t) else .error (.unknownChoice t)

def set (v : Valued) (e : Entry Text) : Except OptionProblem Options :=
  match v with
  | .directory => .ok { o with directory := some (e.map .ofText) }
  | .tsconfig => .ok { o with tsconfig := some (e.map .ofText) }
  | .exclude => .ok { o with exclude := o.exclude ++ [e] }
  | .rule => (ruleName e).map fun name => { o with rules := o.rules ++ [name] }
  | .compiler => .ok { o with compiler := e }
  | .linter => .ok { o with linter := e }
  | .timeout => (integer e).map fun n => { o with timeout := n }
  | .workers => (integer e).map fun n => { o with workers := n }
  | .reportPath => .ok { o with reportPath := e.map .ofText }
  | .exportPath => .ok { o with exportPath := some (e.map .ofText) }

end Options

end ImportRepair.Cli
