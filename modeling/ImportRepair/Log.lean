/-!
# Log records

A function of this library that has something to report besides its result
returns log records with it.  Only the command line and the machine on which a
run takes place decide what happens to them.
-/

namespace ImportRepair

/-- How much a log record matters. -/
inductive LogLevel where
  | debug
  | info
  | warning
  | error
deriving DecidableEq, Repr

namespace LogLevel

def name : LogLevel → String
  | debug => "DEBUG"
  | info => "INFO"
  | warning => "WARNING"
  | error => "ERROR"

/-- The weight of the level; heavier records matter more. -/
def weight : LogLevel → Nat
  | debug => 10
  | info => 20
  | warning => 30
  | error => 40

end LogLevel

/-- The part of the program that a log record comes from. -/
inductive LogSource where
  | compilerOutput
  | merge
  | removal
  | heuristicFix
  | files
  | tools
  | run
  | report
  | commandLine
deriving DecidableEq, Repr

def LogSource.name : LogSource → String
  | compilerOutput => "tsfixer.diagnostics"
  | merge => "tsfixer.merger"
  | removal => "tsfixer.unused"
  | heuristicFix => "tsfixer.heuristics"
  | files => "tsfixer.fileio"
  | tools => "tsfixer.collaborators"
  | run => "tsfixer.orchestrator"
  | report => "tsfixer.report"
  | commandLine => "tsfixer.cli"

structure LogRecord where
  level : LogLevel
  source : LogSource
  text : String
deriving DecidableEq, Repr

def LogRecord.line (r : LogRecord) : String := s!"{r.level.name} {r.source.name}: {r.text}"

end ImportRepair
