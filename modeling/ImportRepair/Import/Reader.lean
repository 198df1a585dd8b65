import ImportRepair.Import.Pieces
import ImportRepair.Text.LineEdits
import ImportRepair.Text.Search

/-!
# Reading an import line

`Statement.ofLine?` recognises four shapes of lines, each on a single line:

* `import X from 'm'`
* `import * as X from 'm'`
* `import { a, type b, c as d } from 'm'`
* `const { a, b: c } = require('m')`

together with a default name in front of the second and the third, a clause of
types only (`import type`), and a whole `require`.  Every other line is left
alone: to miss a statement is harmless, to misread one is not.
-/

namespace ImportRepair

/-! ### Bindings -/

/-- `a` or `a as b`. -/
def plainItem? (typeOnly : Bool) (t : Text) : Option Binding := do
  let (n, r) ← name? t
  if r.isEmpty then
    some { localName := n, imported := some n, typeOnly }
  else
    let r ← Text.afterBlanks? r
    let r ← afterWord? "as".toList r
    let l ← onlyName? r
    some { localName := l, imported := some n, typeOnly }

/-- One item between the braces of a clause.  The word `type` marks a type if a whole item
    follows it, and is a name otherwise. -/
def namedItem? (typeOnly : Bool) (t : Text) : Option Binding :=
  ((afterWord? "type".toList t).bind (plainItem? true)) <|> plainItem? typeOnly t

/-- The end of a clause: nothing, a namespace alias or named bindings. -/
def clauseGroup? (typeOnly : Bool) : Text → Option (List Binding)
  | [] => some []
  | '*' :: r => do
    let r ← afterWord? "as".toList (Text.trimLeft r)
    let n ← onlyName? r
    some [{ localName := n, kind := .namespaceAlias, typeOnly }]
  | t => do
    match ← braces? t with
    | (body, []) => (Text.items body).mapM (namedItem? typeOnly)
    | _ => none

/-- The bindings of the clause between `import` and `from`. -/
def clause? (typeOnly : Bool) (t : Text) : Option (List Binding) :=
  match name? t with
  | none => if t.isEmpty then none else clauseGroup? typeOnly t
  | some (n, r) =>
    let first : Binding := { localName := n, kind := .defaultName, typeOnly }
    match Text.trimLeft r with
    | [] => some [first]
    | ',' :: r => (clauseGroup? typeOnly (Text.trimLeft r)).map (first :: ·)
    | _ => none

/-- `a` or `a: b`. -/
def destructuredItem? (t : Text) : Option Binding := do
  let (n, r) ← name? t
  match Text.trimLeft r with
  | [] => if r.isEmpty then some { localName := n, imported := some n } else none
  | ':' :: r =>
    let l ← onlyName? (Text.trimLeft r)
    some { localName := l, imported := some n }
  | _ => none

/-! ### Clauses -/

/-- What follows a clause: the module specifier and the end of the line. -/
structure Origin where
  quote : Quote
  specifier : Text
  closing : Closing
deriving DecidableEq, Repr

/-- `from 'm'` and the end of the line. -/
def origin? (t : Text) : Option Origin := do
  let r ← afterWord? "from".toList t
  let (q, m, r) ← specifier? r
  let c ← closing? r
  some ⟨q, m, c⟩

/-- The shortest nonempty clause on one line that white space and an origin follow. -/
def shortestClause? (t : Text) : Option (Text × Origin) :=
  splitShortest? (fun r => (Text.afterBlanks? r).bind origin?) t

/-- What stands between `import` and the end of the line. -/
structure Head where
  typeOnly : Bool
  clause : Text
  origin : Origin
deriving DecidableEq, Repr

/-- White space that can be cut into three pieces, the middle one on a single line. -/
def splitsInThree (gap : Text) : Bool := (gap.drop 1).dropLast.any (· != '\n')

/-- Reads what follows the word `import`.  The word `type` marks a clause of types if a clause
    follows it, and is a default name otherwise.  If only wide white space stands between `type`
    and `from`, that white space counts as an empty clause, and the line is not recognised. -/
def head? (t : Text) : Option Head := do
  let r ← Text.afterBlanks? t
  let untyped := (shortestClause? r).map fun p => (⟨false, p.1, p.2⟩ : Head)
  match "type".toList.isPrefixOf? r with
  | none => untyped
  | some g =>
    match Text.afterBlanks? g with
    | none => untyped
    | some u =>
      match shortestClause? u with
      | some (c, o) => some ⟨true, c, o⟩
      | none =>
        if splitsInThree (g.takeWhile isBlank) && (origin? u).isSome then none else untyped

/-! ### Lines -/

/-- An `import` line, given what precedes and what follows that word. -/
def importLine? (raw indent t : Text) (line : Int) : Option Statement := do
  let h ← head? t
  let bindings ← clause? h.typeOnly h.clause
  some {
    specifier := h.origin.specifier, bindings, line, raw, form := .es h.typeOnly
    quote := h.origin.quote, semicolon := h.origin.closing.semicolon, indent
    trailing := h.origin.closing.trailing }

def keyword? (t : Text) : Option (Keyword × Text) :=
  [Keyword.constKeyword, .letKeyword, .varKeyword].findSome? fun k =>
    (k.text.isPrefixOf? t).map fun r => (k, r)

/-- The target of a `require` declaration: one name, or names between braces. -/
def target? (t : Text) : Option (Option (List Binding) × Text) :=
  match name? t with
  | some (n, r) => some (some [{ localName := n, kind := .wholeRequire }], r)
  | none => (braces? t).map fun p => ((Text.items p.1).mapM destructuredItem?, p.2)

/-- What follows the character `c`, with white space around it skipped. -/
def afterMark? (c : Char) (t : Text) : Option Text :=
  match Text.trimLeft t with
  | d :: r => if d = c then some (Text.trimLeft r) else none
  | [] => none

/-- A `require` line, given its indentation and what follows. -/
def requireLine? (raw indent t : Text) (line : Int) : Option Statement := do
  let (k, r) ← keyword? t
  let r ← Text.afterBlanks? r
  let (bindings, r) ← target? r
  let r ← afterMark? '=' r
  let r ← "require(".toList.isPrefixOf? r
  let (quote, specifier, r) ← specifier? (Text.trimLeft r)
  let r ← afterMark? ')' r
  let c ← closing? r
  let bindings ← bindings
  some {
    specifier, bindings, line, raw, form := .commonJs k, quote
    semicolon := c.semicolon, indent, trailing := c.trailing }

/-- The line without final carriage returns, and without a byte order mark if it is the first
    line. -/
def bareLine (t : Text) (line : Int) : Text :=
  let u := Text.dropEndWhile (· == '\r') t
  if line = 1 then Text.dropMark u else u

/-- The statement on a line, if the line is one. -/
def Statement.ofLine? (t : Text) (line : Int) : Option Statement :=
  let raw := bareLine t line
  let indent := raw.takeWhile isBlank
  let body := raw.dropWhile isBlank
  match "import".toList.isPrefixOf? body with
  | some r => importLine? raw indent r line
  | none => requireLine? raw indent body line

end ImportRepair
