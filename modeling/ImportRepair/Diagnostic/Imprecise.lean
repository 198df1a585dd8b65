import ImportRepair.Diagnostic.Basic
import ImportRepair.Log
import ImportRepair.Path.Portable
import ImportRepair.Text.Numeral
import ImportRepair.Text.Search

/-!
# Files without places

Where the output has no diagnostic with a line and a column, the files that it
mentions still get one diagnostic each: those of the table that ends a long
report, or else every path of a TypeScript file in the text.
-/

namespace ImportRepair

/-- The code of a diagnostic without a place. -/
def genericCode : Text := "TS0000".toList

/-! ### The table of files -/

/-- A file of the table, with the digits of its first line and of its number of errors. -/
structure SummaryEntry where
  file : Text
  line : Text
  count : Text
deriving DecidableEq, Repr

/-- A colon and digits up to the end of the text. -/
def lineSuffix? : Text → Option Text
  | ':' :: r => do
    let (ds, r) ← Numeral.digits? r
    if Text.allBlank r then some ds else none
  | _ => none

/-- A file and the digits of a line after the white space `gap`.  Wide white space in front of a
    line without a file counts as an empty file name. -/
def fileAndLine? (gap t : Text) : Option (Text × Text) :=
  (splitShortest? lineSuffix? t) <|>
    (if 2 ≤ gap.length then (lineSuffix? t).map fun ds => ([], ds) else none)

/-- Two spaces or more between the words `Errors` and `Files`. -/
def tableHeader? (t : Text) : Option Unit := do
  let r ← "Errors".toList.isPrefixOf? t
  if 2 ≤ (r.takeWhile isBlank).length then
    ("Files".toList.isPrefixOf? (Text.trimLeft r)).map fun _ => ()
  else none

def tableRow? (t : Text) : Option SummaryEntry := do
  let (count, r) ← Numeral.digits? (Text.trimLeft t)
  let u ← Text.afterBlanks? r
  let (file, line) ← fileAndLine? (r.takeWhile isBlank) u
  some ⟨file, line, count⟩

/-- The words between the number of errors and the file in the sentence about a single file. -/
def sameFileWords : List String := ["in", "the", "same", "file,", "starting"]

/-- The sentence that stands in place of the table when all errors are in one file. -/
def sameFile? (t : Text) : Option SummaryEntry := do
  let r ← ("Found".toList.isPrefixOf? t).bind Text.afterBlanks?
  let (count, r) ← Numeral.digits? r
  let r ← Text.afterBlanks? r
  let r ← "error".toList.isPrefixOf? r
  let r ← Text.afterBlanks? ((['s'].isPrefixOf? r).getD r)
  let r ← sameFileWords.foldlM (fun r w => (w.toList.isPrefixOf? r).bind Text.afterBlanks?) r
  let r ← "at:".toList.isPrefixOf? r
  let u ← Text.afterBlanks? r
  let (file, line) ← fileAndLine? (r.takeWhile isBlank) u
  some ⟨file, line, count⟩

def summaryEntries (lines : List Text) : List SummaryEntry :=
  let table := (lines.dropWhile fun t => (firstMatch? tableHeader? t).isNone).drop 1
  table.filterMap tableRow? ++ lines.filterMap fun t => firstMatch? sameFile? (Text.trim t)

/-- The diagnostics of the entries, one for each file that is not in `seen`, and what is reported
    of them up to the first number that has too many digits. -/
def summaryDiagnostics (root : Option Text) (seen : List Text) :
    List SummaryEntry → Except NumeralError (List Diagnostic) × List LogRecord
  | [] => (.ok [], [])
  | e :: es =>
    let numbers := do
      let line ← Numeral.ofDigits e.line
      let count ← Numeral.ofDigits e.count
      return (line, count)
    match numbers with
    | .error x => (.error x, [])
    | .ok (line, count) =>
      let file := portable root e.file
      if file ∈ seen then summaryDiagnostics root seen es
      else
        let d : Diagnostic := {
          file, line, column := 1, code := genericCode, category := .other, tier := .summary
          message := (s!"Issue reported in compiler summary without position details " ++
            s!"({count} errors)").toList }
        let (ds, log) := summaryDiagnostics root (file :: seen) es
        (ds.map (d :: ·),
          ⟨.debug, .compilerOutput,
            s!"Added file from summary: {String.ofList file} ({count} errors)"⟩ :: log)

/-! ### Paths in the text -/

def isDirectoryChar (c : Char) : Bool := isWord c || c == '@' || c == '.' || c == '-'

def isFileChar (c : Char) : Bool := isWord c || c == '.' || c == '-'

/-- A character after which no path starts. -/
def isPathChar (c : Char) : Bool :=
  isWord c || c == '@' || c == '.' || c == '/' || c == '\\' || c == ':' || c == '-'

def isSlash (c : Char) : Bool := c == '/' || c == '\\'

/-- A path may end in front of the text: no word follows, nor a further suffix. -/
def endsPath : Text → Bool
  | '.' :: c :: _ => !isWord c
  | c :: _ => !isWord c
  | [] => true

/-- The suffix `.ts` or `.tsx` at the front, where a path may end behind it. -/
def sourceSuffix? (t : Text) : Option Text :=
  [".tsx".toList, ".ts".toList].find? fun s => ((s.isPrefixOf? t).map endsPath).getD false

/-- The longest file name at the front that ends in a suffix of a source file.  At least one
    character stands in front of the suffix. -/
def sourceName? : Text → Option Text
  | [] => none
  | c :: r =>
    if isFileChar c then
      ((sourceName? r).map (c :: ·)) <|> (sourceSuffix? r).map (c :: ·)
    else none

def directory? (t : Text) : Option (Text × Text) :=
  match t.takeWhile isDirectoryChar, t.dropWhile isDirectoryChar with
  | d@(_ :: _), c :: r => if isSlash c then some (d ++ [c], r) else none
  | _, _ => none

theorem length_of_directory? {t d r : Text} (h : directory? t = some (d, r)) :
    r.length < t.length := by
  unfold directory? at h
  split at h
  · next hd hr =>
    split at h
    · cases h
      have := (List.dropWhile_suffix (l := t) isDirectoryChar).length_le
      simp only [hr, List.length_cons] at this
      omega
    · simp at h
  · simp at h

/-- The file name at the end of the longest chain of directories that has one. -/
def relativePath? (t : Text) : Option Text :=
  match _ : directory? t with
  | some (d, r) => ((relativePath? r).map (d ++ ·)) <|> sourceName? t
  | none => sourceName? t
termination_by t.length
decreasing_by exact length_of_directory? ‹_›

def sourcePath? (t : Text) : Option Text :=
  let drive := match t with
    | c :: ':' :: _ => if isAsciiLetter c then [c, ':'] else []
    | _ => []
  let r := t.drop drive.length
  let slash := (r.take 1).filter isSlash
  (relativePath? (r.drop slash.length)).map fun p => drive ++ slash ++ p

/-- The paths of source files in a text, from left to right, where `previous` is the character in
    front of the text and the next `skip` characters belong to a path that has been found. -/
def sourcePaths (previous : Option Char) (skip : Nat) : Text → List Text
  | [] => []
  | c :: r =>
    match skip with
    | k + 1 => sourcePaths (some c) k r
    | 0 =>
      match if previous.any isPathChar then none else sourcePath? (c :: r) with
      | some p => p :: sourcePaths (some c) (p.length - 1) r
      | none => sourcePaths (some c) 0 r

/-- A piece of the paths that are never reported. -/
def ignoredPiece : Text := "node_modules/".toList

/-- The diagnostics of the paths in a text, one for each file. -/
def scanDiagnostics (root : Option Text) (t : Text) : List Diagnostic :=
  let files := ((sourcePaths none 0 t).map (portable root)).filter fun f =>
    !f.isEmpty && !Text.occursIn ignoredPiece f
  files.eraseDups.map fun file => {
    file, line := 1, column := 1, code := genericCode, category := .other, tier := .scan
    message := "TypeScript issue detected without specific error information".toList }

end ImportRepair
