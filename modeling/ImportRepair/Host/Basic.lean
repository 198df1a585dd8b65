import ImportRepair.Entry
import ImportRepair.Log
import ImportRepair.Path.Basic
import ImportRepair.Report.Instant
import ImportRepair.Text.Quoted
import ImportRepair.Text.Utf8

/-!
# The host of a run

A run reads and writes files, starts the compiler and the linter, and reports
what it does.  The host does all this for it; everything else is computation.

The hosts that are meant know no links: where a path leads is told by its names
alone, and different names lead to different files.  A host may refuse to look
names up in a directory, to read a file and to write it, and a device may fail
in the middle of a write.
-/

namespace ImportRepair

/-! ### Files -/

inductive NodeKind where
  | file
  | directory
deriving DecidableEq, Repr

/-- Why a device fails. -/
inductive DeviceFault where
  | inputOutput
  | fileTooLarge
  | noSpace
  | quotaExceeded
deriving DecidableEq, Repr

def DeviceFault.message : DeviceFault → String
  | inputOutput => "[Errno 5] Input/output error"
  | fileTooLarge => "[Errno 27] File too large"
  | noSpace => "[Errno 28] No space left on device"
  | quotaExceeded => "[Errno 122] Disk quota exceeded"

/-- What is said of an argument of the system that holds the character NUL. -/
def nulMessage : String := "embedded null byte"

/-- Why a file is not read or written. -/
inductive FileFault where
  | missing
  | isDirectory
  /-- A name on the way to the file is that of a file. -/
  | notDirectory
  /-- The path, or a name on the way to the file, is longer than the host permits. -/
  | nameTooLong
  /-- A name holds the character NUL. -/
  | nulCharacter
  /-- A directory on the way to the file may not be searched, or the file may not be opened. -/
  | denied
  /-- The file was opened, but not all of it could be read or stored. -/
  | device (f : DeviceFault)
deriving DecidableEq, Repr

def FileFault.message (path : Path) : FileFault → String
  | missing => s!"[Errno 2] No such file or directory: {String.ofList (quoted path.text)}"
  | isDirectory => s!"[Errno 21] Is a directory: {String.ofList (quoted path.text)}"
  | notDirectory => s!"[Errno 20] Not a directory: {String.ofList (quoted path.text)}"
  | nameTooLong => s!"[Errno 36] File name too long: {String.ofList (quoted path.text)}"
  | nulCharacter => nulMessage
  | denied => s!"[Errno 13] Permission denied: {String.ofList (quoted path.text)}"
  | device f => f.message

/-- The fault says that nothing is there. -/
def FileFault.isAbsence : FileFault → Bool
  | missing | notDirectory | nulCharacter => true
  | isDirectory | nameTooLong | denied | device _ => false

/-- A path that cannot be followed, and why. -/
structure PathFault where
  path : Path
  fault : FileFault
deriving DecidableEq, Repr

def PathFault.message (f : PathFault) : String := f.fault.message f.path

/-! ### Tools -/

/-- A tool to be started. -/
structure ToolCall where
  arguments : List Text
  directory : Path
  /-- How many seconds the tool may take. -/
  timeout : Entry Int
deriving DecidableEq, Repr

/-- The program that a call starts, if the call names one. -/
def ToolCall.program? (c : ToolCall) : Option Text := c.arguments.head?

def ToolCall.program (c : ToolCall) : Text := c.program?.getD []

/-- An argument of the call holds the character NUL. -/
def ToolCall.holdsNul (c : ToolCall) : Bool := c.arguments.any (·.contains '\x00')

/-- Why a call breaks off without an answer of the tool. -/
inductive CallFault where
  /-- An argument holds the character NUL. -/
  | nulCharacter
  /-- The timeout is left blank. -/
  | blankTimeout
  /-- The timeout is longer than a tool can be waited for. -/
  | longTimeout
  /-- What the tool printed is not UTF-8. -/
  | encoding (fault : Utf8.Fault)
deriving DecidableEq, Repr

def CallFault.message : CallFault → String
  | nulCharacter => nulMessage
  | blankTimeout => "the timeout is left blank"
  | longTimeout => "the timeout is too long"
  | encoding f => f.message

/-- How many seconds a tool can be waited for; their milliseconds are counted in 32 bits. -/
def waitLimit : Int := 2147483

/-- Why a tool that was started by the call cannot be waited for. -/
def ToolCall.waitFault? (c : ToolCall) : Option CallFault :=
  match c.timeout with
  | .blank => some .blankTimeout
  | .value n => if waitLimit < n then some .longTimeout else none

/-- What becomes of a call. -/
inductive ToolResult where
  | finished (stdout stderr : Text) (code : Int)
  | notFound
  /-- The program may not be started. -/
  | denied
  /-- The tool has not ended in time. -/
  | timedOut
  | broken (f : CallFault)
deriving DecidableEq, Repr

/-- What becomes of the call if this is what becomes of the tool. -/
def ToolCall.resultOf (c : ToolCall) (r : ToolResult) : ToolResult :=
  if c.holdsNul then .broken .nulCharacter
  else match r with
    | .notFound | .denied => r
    | _ => (c.waitFault?.map .broken).getD r

/-! ### Hosts -/

/-- What a run needs from its host. -/
class Host (m : Type → Type) where
  workingDirectory : m Path
  look : Path → m (Except FileFault NodeKind)
  read : Path → m (Except FileFault (List UInt8))
  write : Path → List UInt8 → m (Except FileFault Unit)
  start : ToolCall → m ToolResult
  now : m Instant
  log : LogRecord → m Unit
  print : String → m Unit

namespace Host

variable {m : Type → Type} [Monad m] [Host m]

def logAll (records : List LogRecord) : m Unit := records.forM log

def printAll (lines : List String) : m Unit := lines.forM print

/-- The path leads to something of an accepted kind.  It is a failure if this cannot be told. -/
def leadsTo (accepts : NodeKind → Bool) (p : Path) : m (Except PathFault Bool) := do
  match ← look p with
  | .ok kind => return .ok (accepts kind)
  | .error f => return if f.isAbsence then .ok false else .error ⟨p, f⟩

def isFile (p : Path) : m (Except PathFault Bool) := leadsTo (· == .file) p

def isDirectory (p : Path) : m (Except PathFault Bool) := leadsTo (· == .directory) p

def isPresent (p : Path) : m (Except PathFault Bool) := leadsTo (fun _ => true) p

def resolve (p : Path) : m (Except PathFault Path) := do
  let here ← workingDirectory
  return if p.holdsNul then .error ⟨p, .nulCharacter⟩ else .ok (p.resolve here)

end Host

end ImportRepair
