import ImportRepair.Host.Basic
import ImportRepair.Json.Comments
import ImportRepair.Json.Reader
import ImportRepair.Text.Utf8

/-!
# The configuration file of a project

The file `tsconfig.json` marks the root of a project.  Of what it configures,
only the excluded directories matter here.
-/

namespace ImportRepair

/-- What a configuration file says. -/
structure Tsconfig where
  path : Path
  /-- The value of the field `exclude`, whatever it is. -/
  exclude : Json

/-- Why a configuration file was not read. -/
inductive TsconfigError where
  | missing
  | unreadable (fault : FileFault)
  | encoding (fault : Utf8.Fault)
  | malformed (fault : Json.Fault) (place : Json.Place)
  | numeral (e : NumeralError)
  | tooDeep (c : Json.Container)
  /-- The file holds a value that is not an object. -/
  | notAnObject
deriving DecidableEq, Repr

namespace TsconfigError

def message (path : Path) : TsconfigError → String
  | missing => s!"tsconfig.json not found: {String.ofList path.text}"
  | unreadable f => f.message path
  | encoding f => f.message
  | malformed f p =>
    s!"Invalid JSON in {String.ofList path.text}: {(Json.ReadError.malformed f p).message}"
  | numeral e => e.message
  | tooDeep c => (Json.ReadError.tooDeep c).message
  | notAnObject => "the configuration is not an object"

/-- The contents of the file are at fault in a way that is expected to happen; a run goes on
    without them. -/
def isTolerated : TsconfigError → Bool
  | encoding _ | malformed _ _ | numeral _ => true
  | missing | unreadable _ | tooDeep _ | notAnObject => false

end TsconfigError

namespace Tsconfig

/-- What is excluded if the file does not say. -/
def defaultExclude : Json := .array [.string "node_modules".toList]

/-- How many containers of the file may lie within each other.  The number stands for what is left
    of the recursion limit when the file is read, in a program that was started as a module. -/
def depthLimit : Nat := 990

def ofText (path : Path) (t : Text) : Except TsconfigError Tsconfig :=
  match Json.read depthLimit (Jsonc.strip (Text.unifyLineEnds t)) with
  | .error (.malformed f p) => .error (.malformed f p)
  | .error (.numeral e) => .error (.numeral e)
  | .error (.tooDeep c) => .error (.tooDeep c)
  | .ok (.object fields) => .ok ⟨path, (fields.lookup "exclude".toList).getD defaultExclude⟩
  | .ok _ => .error .notAnObject

def ofOctets (path : Path) (octets : List UInt8) : Except TsconfigError Tsconfig :=
  match Utf8.decode octets with
  | .ok t => ofText path t
  | .error f => .error (.encoding f)

def fileName : Text := "tsconfig.json".toList

variable {m : Type → Type} [Monad m] [Host m]

def load (path : Path) : m (Except TsconfigError Tsconfig) := do
  match ← Host.isPresent path with
  | .error f => return .error (.unreadable f.fault)
  | .ok false => return .error .missing
  | .ok true =>
    match ← Host.read path with
    | .ok octets => return ofOctets path octets
    | .error f => return .error (.unreadable f)

/-- The first configuration file in some directories. -/
def findIn : List Path → m (Except PathFault (Option Path))
  | [] => return .ok none
  | d :: ds => do
    let file := d.join ⟨.relative, [fileName]⟩
    match ← Host.isPresent file with
    | .error f => return .error f
    | .ok true => return .ok (some file)
    | .ok false => findIn ds

/-- A directory and those above it, the nearest first. -/
def upwards (directory : Path) : List Path :=
  (List.range (directory.names.length + 1)).map fun k =>
    ⟨directory.root, directory.names.take (directory.names.length - k)⟩

/-- The configuration file that is nearest to a file or directory, in its directory or above. -/
def find (start : Path) : m (Except PathFault (Option Path)) := do
  match ← Host.resolve start with
  | .error f => return .error f
  | .ok here =>
    match ← Host.isFile here with
    | .error f => return .error f
    | .ok isFile => findIn (upwards (if isFile then here.parent else here))

end Tsconfig

end ImportRepair
