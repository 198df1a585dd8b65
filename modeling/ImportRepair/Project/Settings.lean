import ImportRepair.Entry
import ImportRepair.Fix.Certified
import ImportRepair.Path.Portable
import ImportRepair.Project.Tsconfig
import ImportRepair.Text.Lower

/-!
# The settings of a run

The settings say which project is checked, by which tools, and which of its
files may be touched.
-/

namespace ImportRepair

def defaultCompiler : Text := "npx tsc --noEmit".toList

/-- The command that looks for unused names. -/
def defaultLinter : Text := "npx eslint".toList

/-- How many seconds a tool may take. -/
def defaultTimeout : Int := 300

/-- How many files may be fixed at a time. -/
def defaultWorkers : Int := 4

structure Settings where
  /-- The root of the project, resolved. -/
  root : Path
  /-- The directories whose files may be touched, resolved. -/
  targets : List Path
  /-- The configuration file that is passed to the compiler. -/
  tsconfig : Option Path := none
  fix : Bool := true
  flags : FixFlags := {}
  /-- Whether files without evidence are fixed. -/
  heuristics : Bool := true
  /-- The names of the rules that are applied to files without evidence. -/
  rules : List (Entry Text) := []
  /-- Whether changes are only shown. -/
  dryRun : Bool := false
  /-- The suffixes of files that may be touched. -/
  extensions : List Text := [".ts".toList, ".tsx".toList]
  includeTests : Bool := false
  /-- Names of directories whose files are not touched. -/
  excludes : List Text :=
    ["node_modules".toList, ".git".toList, "dist".toList, "build".toList, "out".toList]
  compiler : Entry Text := defaultCompiler
  linter : Entry Text := defaultLinter
  timeout : Entry Int := defaultTimeout
  /-- How many files may be fixed at a time, which does not change the result. -/
  workers : Entry Int := defaultWorkers
deriving DecidableEq, Repr

namespace Settings

/-- The settings for a root and directories, which are the root itself if there are none. -/
def ofDirectories (workingDirectory root : Path) (targets : List Path) : Settings :=
  let root := root.resolve workingDirectory
  { root, targets := if targets.isEmpty then [root] else targets.map (·.resolve workingDirectory) }

/-! ### Files that may be touched -/

/-- A file must not be touched because of its name: it has another suffix, is a test file, or
    lies in an excluded directory. -/
def excludesNames? (s : Settings) (p : Path) : Bool :=
  !s.extensions.contains (Text.lower p.suffix) ||
    (!s.includeTests && isTestPath p.text) ||
    s.excludes.any p.parts.contains

/-- A file must not be touched: it has another suffix, is a test file, lies in an excluded
    directory, or lies in none of the target directories. -/
def excludes? (s : Settings) (workingDirectory p : Path) : Bool :=
  s.excludesNames? p || !s.targets.any (p.resolve workingDirectory).isWithin

/-- Whether a file must not be touched.  What its name does not settle, its place does; it is a
    failure if the path stands for no place. -/
def judge (s : Settings) (workingDirectory p : Path) : Except PathFault Bool :=
  if s.excludesNames? p then .ok true
  else if p.holdsNul then .error ⟨p, .nulCharacter⟩
  else .ok (s.excludes? workingDirectory p)

/-! ### Excluded directories of the configuration file -/

/-- Why the excluded directories of a configuration file cannot be used. -/
inductive ExcludeError where
  /-- They are no list, object or text. -/
  | notAList
  | notAText
deriving DecidableEq, Repr

/-- A character of a pattern that is more than a name. -/
def isPatternChar (c : Char) : Bool := c == '*' || c == '?' || c == '[' || c == '/'

/-- The name of a directory in an exclude pattern, if it is a plain name. -/
def plainName? (pattern : Text) : Option Text :=
  let inner := Text.dropEndWhile (· == '/') (pattern.dropWhile (· == '/'))
  let name := Text.dropEndWhile (fun c => c == '/' || c == '*') inner
  if name.isEmpty || name.any isPatternChar then none else some name

/-- The patterns that a value holds: the items of a list, the field names of an object, or the
    characters of a text. -/
def patternsOf : Json → Except ExcludeError (List Json)
  | .array items => .ok items
  | .object fields => .ok (fields.map fun f => .string f.1)
  | .string t => .ok (t.map fun c => .string [c])
  | _ => .error .notAList

def patternText : Json → Except ExcludeError Text
  | .string t => .ok t
  | _ => .error .notAText

/-- The settings with the plain names among the excluded directories of a configuration file. -/
def exclude (s : Settings) (patterns : Json) : Except ExcludeError Settings := do
  let ps ← (← patternsOf patterns).mapM patternText
  return { s with excludes := s.excludes ++ ps.filterMap plainName? }

end Settings

end ImportRepair
