import ImportRepair.Import.Printer
import ImportRepair.Import.Table
import ImportRepair.Log

/-!
# Merging duplicate imports

The statements of one module that share their style and their type flag are
merged into one: the first of them is written again with the union of all their
bindings, and the others are deleted.

One statement has room for one default name (or one whole `require`) and for
one namespace alias.  Where the statements disagree, the first name wins, and
the others are recorded as an `Ambiguity`.  Statements stay as they are when no
single statement can hold the union, or when they carry different comments.
-/

namespace ImportRepair

/-! ### The union of bindings -/

/-- The kinds of names of which a statement holds one. -/
inductive UniqueKind where
  | defaultName
  | namespaceAlias
  | wholeRequire
deriving DecidableEq, Repr

def UniqueKind.name : UniqueKind → String
  | defaultName => "default"
  | namespaceAlias => "namespace"
  | wholeRequire => "require"

/-- Distinct names for which a statement has one place: the first is kept, the others are not. -/
structure Ambiguity where
  specifier : Text
  kind : UniqueKind
  kept : Text
  dropped : List Text
deriving DecidableEq, Repr

def Ambiguity.message (a : Ambiguity) : String :=
  let names := ", ".intercalate ((a.kept :: a.dropped).map String.ofList)
  s!"Multiple {a.kind.name} imports for '{String.ofList a.specifier}': {names}. " ++
    s!"Using {String.ofList a.kept}"

def ambiguityLog (as : List Ambiguity) : List LogRecord :=
  as.map fun a => ⟨.warning, .merge, a.message⟩

/-- The ambiguity of a list of names, if there is one. -/
def ambiguity? (specifier : Text) (kind : UniqueKind) (names : List Text) : Option Ambiguity :=
  match names.eraseDups with
  | kept :: d :: ds => some ⟨specifier, kind, kept, d :: ds⟩
  | _ => none

/-- The binding that represents a local name: the first value, or else the first type. -/
def representative? (bs : List Binding) (localName : Text) : Option Binding :=
  let same := bs.filter (·.localName == localName)
  (same.find? fun b => !b.typeOnly) <|> same.head?

/-- The named bindings of some statements, one for each local name, in the order of the names. -/
def namedUnion (statements : List Statement) : List Binding :=
  let bs := statements.flatMap Statement.named
  let names := (bs.map (·.localName)).eraseDups.mergeSort Text.le
  names.filterMap (representative? bs)

/-- The bindings of a merged statement and the ambiguities that were settled on the way. -/
structure Union where
  bindings : List Binding
  ambiguities : List Ambiguity
deriving DecidableEq, Repr

/-- The union of the bindings of statements that share module, style and type flag with `first`,
    unless no single statement can hold it. -/
def union? (specifier : Text) (first : Statement) (others : List Statement) : Option Union :=
  let statements := first :: others
  let named := namedUnion statements
  let names := statements.filterMap fun s => s.default?.map (·.localName)
  match first.form with
  | .commonJs _ =>
    match names with
    | [] => some ⟨named, []⟩
    | n :: _ =>
      if named.isEmpty then
        some ⟨[{ localName := n, kind := .wholeRequire }],
          (ambiguity? specifier .wholeRequire names).toList⟩
      else none
  | .es typeOnly =>
    let aliases := statements.filterMap fun s => s.namespace?.map (·.localName)
    if !aliases.isEmpty && !named.isEmpty then none
    else if typeOnly && !names.isEmpty && !(named.isEmpty && aliases.isEmpty) then none
    else
      let one (kind : BindingKind) (ns : List Text) : List Binding :=
        ns.head?.toList.map fun n => { localName := n, kind, typeOnly }
      some ⟨one .defaultName names ++ one .namespaceAlias aliases ++ named,
        (ambiguity? specifier .defaultName names).toList ++
          (ambiguity? specifier .namespaceAlias aliases).toList⟩

/-! ### Groups of statements -/

/-- Two or more statements of one module that share their style and their type flag. -/
structure DuplicateGroup where
  specifier : Text
  key : MergeKey
  first : Statement
  second : Statement
  rest : List Statement
deriving DecidableEq, Repr

/-- The duplicate group of some statements, if there are at least two of them. -/
def DuplicateGroup.of? (specifier : Text) (key : MergeKey) : List Statement → Option DuplicateGroup
  | first :: second :: rest => some ⟨specifier, key, first, second, rest⟩
  | _ => none

def ImportTable.duplicateGroups (table : ImportTable) : List DuplicateGroup :=
  table.byModule.flatMap fun m =>
    (mergeGroups m.2).filterMap fun g => DuplicateGroup.of? m.1 g.1 g.2

/-- What becomes of a group. -/
inductive Verdict where
  /-- No single statement holds the union. -/
  | inexpressible
  /-- The statements carry different comments. -/
  | commented (ambiguities : List Ambiguity)
  /-- The first statement takes over all bindings. -/
  | merged (line : Text) (ambiguities : List Ambiguity)
deriving DecidableEq, Repr

namespace DuplicateGroup

variable (g : DuplicateGroup)

def later : List Statement := g.second :: g.rest

def statements : List Statement := g.first :: g.later

/-- The distinct comments of the group. -/
def comments : List Text :=
  ((g.statements.filter fun s => !s.trailing.isEmpty).map fun s => Text.trim s.trailing).eraseDups

/-- The first statement with the first comment of the group. -/
def template : Statement :=
  if g.first.trailing.isEmpty then
    match g.statements.find? fun s => !s.trailing.isEmpty with
    | some s => { g.first with trailing := s.trailing }
    | none => g.first
  else g.first

/-- What becomes of the group. -/
def verdict : Verdict :=
  match union? g.specifier g.first g.later with
  | none => .inexpressible
  | some u =>
    if 1 < g.comments.length then .commented u.ambiguities
    else .merged (g.template.render u.bindings) u.ambiguities

def isMerged : Bool :=
  match g.verdict with
  | .merged _ _ => true
  | _ => false

/-- The new line of the first statement, if it changes. -/
def replacement? : Option (Int × Text) :=
  match g.verdict with
  | .merged line _ => if line = g.first.raw then none else some (g.first.line, line)
  | _ => none

/-- The lines that are deleted, each with the line that takes over its bindings. -/
def redirects : List (Int × Int) :=
  if g.isMerged then g.later.map fun s => (s.line, g.first.line) else []

def settled : List Ambiguity :=
  match g.verdict with
  | .merged _ as => as
  | _ => []

def log : List LogRecord :=
  let n := g.statements.length
  let module := String.ofList g.specifier
  match g.verdict with
  | .inexpressible =>
    [⟨.info, .merge, s!"Skipping merge of {n} imports for '{module}': " ++
      "bindings cannot be combined into one statement"⟩]
  | .commented as =>
    ambiguityLog as ++ [⟨.info, .merge, s!"Skipping merge of {n} imports for '{module}': " ++
      "they carry different trailing comments"⟩]
  | .merged _ as =>
    let kind := g.key.style.name ++ if g.key.typeOnly then " type" else ""
    ambiguityLog as ++ [⟨.debug, .merge,
      s!"Merging {n} {kind} imports for '{module}' into line {g.first.line}"⟩]

end DuplicateGroup

/-! ### The merge of a table -/

/-- A planned merge: edits of lines that are not yet applied to a text. -/
structure MergePlan where
  /-- The lines that change. -/
  replacements : List (Int × Text) := []
  /-- The lines that are deleted, each with the line that takes over its bindings. -/
  redirects : List (Int × Int) := []
  modules : List Text := []
  ambiguities : List Ambiguity := []
deriving DecidableEq, Repr

namespace MergePlan

variable (p : MergePlan)

def deletions : List Int := p.redirects.map (·.1)

def deletionCount : Nat := p.redirects.length

def edits : LineEdits := ⟨p.replacements, p.deletions⟩

def changes : Bool := !p.replacements.isEmpty || !p.redirects.isEmpty

def apply (t : Text) : Text := if p.changes then p.edits.apply t else t

/-- The line of the merged text where a line of the text before the merge ends up. -/
def lineAfter (line : Int) : Int :=
  let target := (p.redirects.lookup line).getD line
  target - (p.deletions.countP fun d => decide (d < target) : Nat)

end MergePlan

/-- The merge of all duplicate groups of a table. -/
def ImportTable.merge (table : ImportTable) : MergePlan :=
  let groups := table.duplicateGroups
  { replacements := groups.filterMap (·.replacement?)
    redirects := groups.flatMap (·.redirects)
    modules := (groups.filter (·.isMerged)).map (·.specifier)
    ambiguities := groups.flatMap (·.settled) }

def ImportTable.mergeLog (table : ImportTable) : List LogRecord :=
  table.duplicateGroups.flatMap (·.log)

/-- The text with its duplicate imports merged. -/
def mergeImports (t : Text) : Text := (ImportTable.ofText t).merge.apply t

end ImportRepair
