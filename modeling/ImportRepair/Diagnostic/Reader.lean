import ImportRepair.Diagnostic.Imprecise
import ImportRepair.Diagnostic.Structured

/-!
# Reading compiler output

The output of the compiler is read tier by tier: the first tier that finds a
diagnostic answers, and the others are not looked at.  A tier that meets a
number with too many digits finds nothing.  Colours and the kind of line ends
do not matter.
-/

namespace ImportRepair

/-! ### Terminal output -/

/-- The start of a colour sequence. -/
def escapeMark : Char := '\x1b'

def isColourParameter (c : Char) : Bool := isAsciiDigit c || c == ';'

/-- The number of characters of a colour sequence behind its first character. -/
def colourLength? : Text → Option Nat
  | '[' :: r =>
    match r.dropWhile isColourParameter with
    | c :: _ => if isAsciiLetter c then some ((r.takeWhile isColourParameter).length + 2) else none
    | [] => none
  | _ => none

/-- The text without colour sequences, where the next `skip` characters belong to one. -/
def dropColours (skip : Nat) : Text → Text
  | [] => []
  | c :: r =>
    match skip with
    | k + 1 => dropColours k r
    | 0 =>
      match if c = escapeMark then colourLength? r else none with
      | some n => dropColours n r
      | none => c :: dropColours 0 r

/-! ### Tiers -/

/-- What a tier finds in a text, and what it reports. -/
def Tier.read (tier : Tier) (root : Option Text) (snippets : Bool) (t : Text) :
    Except NumeralError (List Diagnostic) × List LogRecord :=
  match tier with
  | .primary => (Layout.parenthesised.diagnostics root snippets (Text.lines t), [])
  | .alternate => (Layout.colonSeparated.diagnostics root snippets (Text.lines t), [])
  | .summary => summaryDiagnostics root [] (summaryEntries (Text.lines t))
  | .scan => (.ok (scanDiagnostics root t), [])

/-- All tiers, the most precise first. -/
def Tier.ladder : List Tier := [.primary, .alternate, .summary, .scan]

/-- The diagnostics of the first of some tiers that finds any, in order, and the log. -/
def readTiers (root : Option Text) (snippets : Bool) (t : Text) :
    List Tier → List Diagnostic × List LogRecord
  | [] =>
    ([], [⟨.warning, .compilerOutput, "Compiler output contained no recognizable diagnostics"⟩])
  | tier :: tiers =>
    let (found, log) := tier.read root snippets t
    match found with
    | .error e =>
      let (ds, rest) := readTiers root snippets t tiers
      (ds, log ++ ⟨.warning, .compilerOutput,
        s!"Failed to parse compiler output ({tier.name} tier): {e.message}"⟩ :: rest)
    | .ok [] =>
      let (ds, rest) := readTiers root snippets t tiers
      (ds, log ++ rest)
    | .ok ds =>
      let note := if tier.hasPlace then [] else
        [⟨.info, .compilerOutput, s!"No structured diagnostics found, using {tier.name} tier " ++
          s!"({ds.length} files)"⟩]
      (ds.mergeSort Diagnostic.le, log ++ note)

/-- The diagnostics of compiler output, in order, and the log of reading it. -/
def readOutput (root : Option Text) (snippets : Bool) (output : Text) :
    List Diagnostic × List LogRecord :=
  if Text.allBlank output then ([], [])
  else readTiers root snippets (Text.unifyLineEnds (dropColours 0 output)) Tier.ladder

def diagnosticsOf (root : Option Text) (snippets : Bool) (output : Text) : List Diagnostic :=
  (readOutput root snippets output).1

end ImportRepair
