import ImportRepair.Import.Basic

/-!
# Writing an import line

A statement is written in the layout of another one, its template: with the
indentation, quotation marks, semicolon and comment of that line.  Bindings are
written in the order in which they are given.
-/

namespace ImportRepair

namespace Binding

variable (b : Binding)

/-- The name of the export, where it differs from the local name. -/
def renamed? : Option Text :=
  b.imported.filter fun n => !n.isEmpty && n != b.localName

def text : Text :=
  match b.kind with
  | .named =>
    (if b.typeOnly then "type ".toList else []) ++
      (match b.renamed? with
        | some n => n ++ " as ".toList ++ b.localName
        | none => b.localName)
  | _ => b.localName

def destructured : Text :=
  match b.renamed? with
  | some n => n ++ ": ".toList ++ b.localName
  | none => b.localName

end Binding

def braced (ts : List Text) : Text :=
  '\x7b' :: ' ' :: ([',', ' '].intercalate ts ++ [' ', '\x7d'])

def clauseText (typeOnly : Bool) (bs : List Binding) : Text :=
  let named := bs.filter (·.kind = .named)
  let names := (bs.filter (·.kind = .defaultName)).map (·.localName)
  let aliases := (bs.filter (·.kind = .namespaceAlias)).map fun b => "* as ".toList ++ b.localName
  let items := named.map fun b => { b with typeOnly := b.typeOnly && !typeOnly : Binding }.text
  [',', ' '].intercalate (names ++ aliases ++ if named.isEmpty then [] else [braced items])

def targetText (bs : List Binding) : Text :=
  match bs.find? (·.kind = .wholeRequire) with
  | some b => b.localName
  | none => braced (bs.map (·.destructured))

namespace Statement

variable (s : Statement)

def quotedSpecifier : Text := s.quote.char :: (s.specifier ++ [s.quote.char])

def closingText : Text := (if s.semicolon then [';'] else []) ++ s.trailing

/-- The line that binds `bs` in the layout of `s`. -/
def render (bs : List Binding) : Text :=
  match s.form with
  | .es typeOnly =>
    s.indent ++ "import ".toList ++ (if typeOnly then "type ".toList else []) ++
      clauseText typeOnly bs ++ " from ".toList ++ s.quotedSpecifier ++ s.closingText
  | .commonJs keyword =>
    s.indent ++ keyword.text ++ [' '] ++ targetText bs ++ " = require(".toList ++
      s.quotedSpecifier ++ [')'] ++ s.closingText

end Statement

end ImportRepair
