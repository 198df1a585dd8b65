import ImportRepair.Diagnostic.Basic
import ImportRepair.Path.Portable
import ImportRepair.Text.Numeral
import ImportRepair.Text.Search

/-!
# Diagnostics with line and column

The compiler has two formats for a diagnostic with a place:

    src/app.ts(10,5): error TS2322: message
    src/app.ts:10:5 - error TS2322: message

The lines that follow such a line may quote the source and mark a column below
it; the quoted line becomes the snippet of the diagnostic.
-/

namespace ImportRepair

/-- The two formats of a diagnostic with a place. -/
inductive Layout where
  | parenthesised
  | colonSeparated
deriving DecidableEq, Repr

/-- A line in one of the two formats, taken apart.  Line and column are still digits. -/
structure LocatedLine where
  file : Text
  line : Text
  column : Text
  severity : Severity
  code : Text
  message : Text
deriving DecidableEq, Repr

/-- A place in a file, as the digits of its line and column. -/
structure DigitPlace where
  line : Text
  column : Text
deriving DecidableEq, Repr

namespace Layout

def tier : Layout → Tier
  | parenthesised => .primary
  | colonSeparated => .alternate

/-- The place at the front of a text, and what follows it. -/
def place? : Layout → Text → Option (DigitPlace × Text)
  | parenthesised, '(' :: r => do
    let (line, r) ← Numeral.digits? r
    let r ← [','].isPrefixOf? r
    let (column, r) ← Numeral.digits? r
    let r ← "):".toList.isPrefixOf? r
    let r ← Text.afterBlanks? r
    some (⟨line, column⟩, r)
  | colonSeparated, ':' :: r => do
    let (line, r) ← Numeral.digits? r
    let r ← [':'].isPrefixOf? r
    let (column, r) ← Numeral.digits? r
    let r ← Text.afterBlanks? r
    let r ← ['-'].isPrefixOf? r
    let r ← Text.afterBlanks? r
    some (⟨line, column⟩, r)
  | _, _ => none

def placeText (line column : Text) : Layout → Text
  | parenthesised => '(' :: (line ++ ',' :: (column ++ "): ".toList))
  | colonSeparated => ':' :: (line ++ ':' :: (column ++ " - ".toList))

end Layout

/-- The severity at the front of a text, and what follows the white space after it. -/
def severity? (t : Text) : Option (Severity × Text) :=
  [Severity.error, .warning].findSome? fun s =>
    ((s.name.toList.isPrefixOf? t).bind Text.afterBlanks?).map fun r => (s, r)

/-- The code at the front of a text, and what follows the colon after it. -/
def code? (t : Text) : Option (Text × Text) := do
  let r ← "TS".toList.isPrefixOf? t
  let (ds, r) ← Numeral.digits? r
  let r ← [':'].isPrefixOf? r
  some ('T' :: 'S' :: ds, r)

/-- The place at the front of a text with everything after it. -/
def Layout.report? (l : Layout) (t : Text) : Option (DigitPlace × Severity × Text × Text) := do
  let (p, r) ← l.place? t
  let (s, r) ← severity? r
  let (c, r) ← code? r
  let m := Text.trim r
  if m.isEmpty || '\n' ∈ m then none else some (p, s, c, m)

def Layout.line? (l : Layout) (t : Text) : Option LocatedLine :=
  (splitShortest? l.report? t).map fun (file, p, s, c, m) => ⟨file, p.line, p.column, s, c, m⟩

def LocatedLine.text (x : LocatedLine) (l : Layout) : Text :=
  x.file ++ l.placeText x.line x.column ++ x.severity.name.toList ++ [' '] ++ x.code ++
    ": ".toList ++ x.message

def LocatedLine.diagnostic (x : LocatedLine) (l : Layout) (root : Option Text) :
    Except NumeralError Diagnostic := do
  let line ← Numeral.ofDigits x.line
  let column ← Numeral.ofDigits x.column
  return {
    file := portable root x.file, line, column, code := x.code, message := x.message
    category := .of x.code x.message, severity := x.severity, tier := l.tier }

/-! ### Snippets -/

/-- The column of the marks on a line that holds nothing but marks. -/
def markColumn? (t : Text) : Option Nat :=
  let isMark (c : Char) : Bool := c == '~' || c == '^'
  match t.dropWhile isBlank with
  | c :: r =>
    if isMark c && (r.dropWhile isMark).all isBlank then some (t.takeWhile isBlank).length else none
  | [] => none

/-- The line without a line number at its start, and without white space at its ends. -/
def dropGutter (t : Text) : Text :=
  match (Numeral.digits? (t.dropWhile isBlank)).bind fun p => Text.afterBlanks? p.2 with
  | some r => Text.trim r
  | none => Text.trim t

/-- The last line before a line of marks, with the column of the marks.  Blank lines are skipped,
    and the next line in the format ends the search. -/
def Layout.snippet? (l : Layout) (last : Option Text) : List Text → Option (Text × Nat)
  | [] => none
  | t :: ts =>
    if (l.line? (Text.trim t)).isSome then none
    else match markColumn? t, last with
      | some k, some s => some (s, k)
      | _, _ => l.snippet? (if Text.allBlank t then last else some (dropGutter t)) ts

/-- How many lines after a diagnostic are searched for its snippet. -/
def snippetReach : Nat := 4

def Diagnostic.withSnippet (d : Diagnostic) (l : Layout) (after : List Text) : Diagnostic :=
  match l.snippet? none (after.take snippetReach) with
  | some (s, k) => { d with snippet := some s, caret := some k }
  | none => d

/-- The diagnostics of the lines in the format, unless a line or column has too many digits. -/
def Layout.diagnostics (l : Layout) (root : Option Text) (snippets : Bool) :
    List Text → Except NumeralError (List Diagnostic)
  | [] => .ok []
  | t :: ts =>
    match l.line? (Text.trim t) with
    | none => l.diagnostics root snippets ts
    | some x => do
      let d ← x.diagnostic l root
      let ds ← l.diagnostics root snippets ts
      return (if snippets then d.withSnippet l ts else d) :: ds

end ImportRepair
