import ImportRepair.Text.Basic

/-!
# Help

The texts by which the program explains itself: how it is called, what it does,
its options, and what its exit codes mean.
-/

namespace ImportRepair.Cli

def programName : String := "fix-typescript"

def version : String := "1.0.0"

def usageLines : List String :=
  ["usage: fix-typescript [-h] [--dir DIRECTORY] [--tsconfig FILE]",
   "                      [--exclude PATTERN] [--include-tests] [--no-fix]",
   "                      [--no-duplicate-fix] [--no-unused-fix] [--no-heuristics]",
   "                      [--rule NAME] [--dry-run] [--compiler-cmd CMD]",
   "                      [--linter-cmd CMD] [--timeout SECONDS] [--workers N]",
   "                      [--report] [--report-path FILE] [--no-suggestions]",
   "                      [--export FILE] [--verbose] [--quiet] [--version]",
   "                      [DIRECTORY]"]

def introductionLines : List String :=
  ["",
   "╔══════════════════════════════════════════════════════════════════════════════════╗",
   "║               FIX-TYPESCRIPT v1.0 - Diagnostic-Driven Import Fixer               ║",
   "║                                                                                  ║",
   "║  Runs the TypeScript compiler, merges duplicate imports, removes imports the    ║",
   "║  compiler or ESLint report as unused, then re-runs the compiler to verify.      ║",
   "╚══════════════════════════════════════════════════════════════════════════════════╝",
   "",
   "BEHAVIOR:",
   "  The project root is the directory holding tsconfig.json. It is found by",
   "  walking up from the target directory unless --tsconfig is given.",
   "",
   "  Only files named in compiler diagnostics are touched. Files whose",
   "  diagnostics carry no line/column (summary tables, bare paths) get the",
   "  heuristic pass: duplicate-import merging plus any --rule you enable.",
   "",
   "EXAMPLES:",
   "  # Check, fix and re-verify the project around the current directory",
   "  fix-typescript",
   "",
   "  # Only report, never write",
   "  fix-typescript --no-fix --report",
   "",
   "  # Preview the edits as diffs",
   "  fix-typescript --dry-run",
   "",
   "  # Restrict fixes to one directory and write a JSON export",
   "  fix-typescript ./src --export fixes.json",
   "        ",
   ""]

def optionLines : List String :=
  ["positional arguments:",
   "  DIRECTORY             Directory to fix (same as --dir)",
   "",
   "options:",
   "  -h, --help            show this help message and exit",
   "  --version, -V         show program's version number and exit",
   "",
   "Target Selection:",
   "  --dir DIRECTORY, -d DIRECTORY",
   "                        Directory to fix (default: tsconfig location or",
   "                        current dir)",
   "  --tsconfig FILE, -c FILE",
   "                        Path to tsconfig.json (auto-detected from the target",
   "                        if not specified)",
   "  --exclude PATTERN, -e PATTERN",
   "                        Additional directory names to exclude (can use",
   "                        multiple times)",
   "  --include-tests       Also fix *.test.* / *.spec.* / __tests__ files",
   "",
   "Fix Options:",
   "  --no-fix              Only check and report, do not modify files",
   "  --no-duplicate-fix    Do not merge duplicate imports",
   "  --no-unused-fix       Do not remove unused imports",
   "  --no-heuristics       Skip files that only have low-confidence diagnostics",
   "  --rule NAME           Enable an opt-in heuristic rule (choices: console-",
   "                        statements)",
   "  --dry-run, -n         Preview changes without applying them",
   "",
   "Process Options:",
   "  --compiler-cmd CMD    Type-check command (default: npx tsc --noEmit)",
   "  --linter-cmd CMD      ESLint command (default: npx eslint)",
   "  --timeout SECONDS     Timeout for each compiler/linter run (default: 300)",
   "  --workers N           Files fixed in parallel (default: 4)",
   "",
   "Output Options:",
   "  --report              Write a plain-text error report",
   "  --report-path FILE    Where to write the report (default: typescript-",
   "                        errors.log)",
   "  --no-suggestions      Leave remediation hints out of the report",
   "  --export FILE         Export results to JSON file",
   "  --verbose, -v         Show detailed output",
   "  --quiet, -q           Only show errors and summary",
   ""]

def closingLines : List String :=
  ["OUTCOMES:",
   "  ✅ passed        - no diagnostics left (exit 0)",
   "  📉 improved      - fewer diagnostics than before (exit 1)",
   "  ➖ unchanged     - same count as before (exit 1)",
   "  📈 regression    - more diagnostics than before (exit 1)",
   "  ⏸️  not_verified  - --no-fix or --dry-run with diagnostics present (exit 1)",
   "  ❓ unparsed      - compiler failed but its output could not be parsed (exit 1)",
   "",
   "NOTES:",
   "  - Unused imports are only removed when ESLint or the compiler says so",
   "  - Type-only and value imports are never merged together",
   "  - Always use --dry-run first to preview changes"]

def paragraph (lines : List String) : String := String.join (lines.map (· ++ "\n"))

def usageText : String := paragraph usageLines

def helpText : String :=
  paragraph (usageLines ++ introductionLines ++ optionLines ++ closingLines)

def versionText : String := s!"{programName} {version}\n"

end ImportRepair.Cli
