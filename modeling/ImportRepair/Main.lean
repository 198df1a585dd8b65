import ImportRepair.Cli.Program
import ImportRepair.Tool.Reply
import Std.Time.Zoned

/-!
# The command

The command works on real files and tells the time by the real clock.  It starts
no tools: whenever it has to run the compiler or the linter, one line of
standard input replies how the tool has ended.
-/

namespace ImportRepair.Cli

/-- What the command does; its options say which records of the log are shown. -/
abbrev Command := ReaderT Options IO

namespace Command

/-- The number by which the system says that a name on the way to a file is that of a file. -/
def notDirectoryNumber : UInt32 := 20

/-- The number by which the system says that a name is too long. -/
def nameTooLongNumber : UInt32 := 36

/-- The number by which the system says that a device is full. -/
def noSpaceNumber : UInt32 := 28

/-- An action on a file, with the faults that are expected to happen. -/
def attempt {α : Type} (action : IO α) : IO (Except FileFault α) := do
  try
    return .ok (← action)
  catch
    | .noFileOrDirectory .. => return .error .missing
    | .inappropriateType _ number _ =>
      return .error (if number = notDirectoryNumber then .notDirectory else .isDirectory)
    | e@(.invalidArgument _ number _) =>
      if number = nameTooLongNumber then return .error .nameTooLong else throw e
    | .permissionDenied .. => return .error .denied
    | .hardwareFault .. => return .error (.device .inputOutput)
    | e@(.resourceExhausted _ number _) =>
      if number = noSpaceNumber then return .error (.device .noSpace) else throw e
    | e => throw e

def kindOf (p : Path) : IO (Except FileFault NodeKind) := do
  let place := (← IO.currentDir) / String.ofList p.text
  return (← attempt place.metadata).map fun data =>
    match data.type with
    | .dir => .directory
    | _ => .file

def clock : IO Instant := do
  let t ← Std.Time.PlainDateTime.now
  return {
    year := t.date.year.toInt.toNat, month := t.date.month.val.toNat, day := t.date.day.val.toNat
    hour := t.time.hour.val.toNat, minute := t.time.minute.val.toNat
    second := t.time.second.val.toNat, microsecond := t.time.nanosecond.val.toNat / 1000 }

instance : Host Command where
  workingDirectory := return .ofText (toString (← IO.currentDir)).toList
  look p := kindOf p
  read p := attempt do return (← IO.FS.readBinFile (String.ofList p.text)).toList
  write p octets := attempt (IO.FS.writeBinFile (String.ofList p.text) ⟨octets.toArray⟩)
  start c := do return c.resultOf (.ofReply (← (← IO.getStdin).getLine).toList)
  now := clock
  log r := do if (← ReaderT.read).shows r then IO.eprintln r.line
  print line := IO.println line

end Command

def perform (o : Options) : Command UInt32 := do
  match ← program o with
  | .ok code => return code.toUInt32
  | .error e =>
    IO.eprintln e.message
    return 1

/-- Does what a command line asks for and ends with the exit code. -/
def runCommand (arguments : List Text) : IO UInt32 := do
  match Request.ofArguments arguments with
  | .ok (.run o) => (perform o).run o
  | .ok .help =>
    IO.print helpText
    return 0
  | .ok .version =>
    IO.print versionText
    return 0
  | .error e =>
    IO.eprint e.text
    return usageExitCode.toUInt32

end ImportRepair.Cli

def main (arguments : List String) : IO UInt32 :=
  ImportRepair.Cli.runCommand (arguments.map (·.toList))
