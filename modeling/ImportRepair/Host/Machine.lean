import ImportRepair.Host.Disk

/-!
# A machine in memory

The machine is a host whose state is a value: its files, the results of the
tools that are still to be started, and what has been called, logged and
printed.  Statements about runs are statements about runs on this machine, so
they are about hosts without links, where reads and writes fail only as the
limits of the disk say.  What tools do to files is left out.
-/

namespace ImportRepair

/-- The state of a machine. -/
structure Machine where
  disk : Disk := {}
  workingDirectory : Path := ⟨.slash, []⟩
  clock : Instant
  /-- The results of the compiler; the last one repeats. -/
  compiler : List ToolResult := []
  /-- The results of the linter; the last one repeats. -/
  linter : List ToolResult := []
  /-- The calls that were made, also those of tools that were not started. -/
  calls : List ToolCall := []
  log : List LogRecord := []
  printed : List String := []
deriving DecidableEq, Repr

/-- The option by which a call of the linter is recognised. -/
def formatOption : Text := "--format".toList

def nextResult : List ToolResult → ToolResult × List ToolResult
  | [] => (.finished [] [] 0, [])
  | [r] => (r, [r])
  | r :: rs => (r, rs)

namespace Machine

def start (c : ToolCall) (s : Machine) : ToolResult × Machine :=
  let s := { s with calls := s.calls ++ [c] }
  if c.arguments.contains formatOption then
    let (r, rest) := nextResult s.linter
    (c.resultOf r, { s with linter := rest })
  else
    let (r, rest) := nextResult s.compiler
    (c.resultOf r, { s with compiler := rest })

def write (p : Path) (octets : List UInt8) (s : Machine) : Except FileFault Unit × Machine :=
  let (r, disk) := s.disk.write s.workingDirectory p octets
  (r, { s with disk })

instance : Host (StateM Machine) where
  workingDirectory := return (← get).workingDirectory
  look p := return (← get).disk.look (← get).workingDirectory p
  read p := return (← get).disk.read (← get).workingDirectory p
  write p octets := modifyGet (Machine.write p octets)
  start c := modifyGet (Machine.start c)
  now := return (← get).clock
  log r := modify fun s => { s with log := s.log ++ [r] }
  print line := modify fun s => { s with printed := s.printed ++ [line] }

end Machine

end ImportRepair
