import ImportRepair.Text.Basic

/-!
# Import statements

A statement is one line of a TypeScript or JavaScript file that binds names of
another module: an `import ... from` clause or a `require` call.  Besides the
names it keeps the layout of the line, so that the line can be written again
with other names and nothing else changed.
-/

namespace ImportRepair

/-- What a binding stands for in the module that it comes from. -/
inductive BindingKind where
  | defaultName
  /-- The whole module, under a namespace alias. -/
  | namespaceAlias
  | named
  /-- The whole value of a `require` call. -/
  | wholeRequire
deriving DecidableEq, Repr

/-- One name that a statement binds.  A named binding records the name of the export as well. -/
structure Binding where
  localName : Text
  imported : Option Text := none
  kind : BindingKind := .named
  typeOnly : Bool := false
deriving DecidableEq, Repr

/-- The word that declares the names of a `require` call. -/
inductive Keyword where
  | constKeyword
  | letKeyword
  | varKeyword
deriving DecidableEq, Repr

def Keyword.text : Keyword → Text
  | constKeyword => "const".toList
  | letKeyword => "let".toList
  | varKeyword => "var".toList

/-- The two module systems. -/
inductive Style where
  | es
  | commonJs
deriving DecidableEq, Repr

def Style.name : Style → String
  | es => "es"
  | commonJs => "commonjs"

/-- The form of a statement: an `import`, of types only or not, or a declaration by `require`. -/
inductive Form where
  | es (typeOnly : Bool)
  | commonJs (keyword : Keyword)
deriving DecidableEq, Repr

namespace Form

def style : Form → Style
  | es _ => .es
  | commonJs _ => .commonJs

/-- The whole clause imports types only. -/
def typeOnly : Form → Bool
  | es b => b
  | commonJs _ => false

end Form

/-- The quotation mark around a module specifier. -/
inductive Quote where
  | single
  | double
deriving DecidableEq, Repr

namespace Quote

def char : Quote → Char
  | single => '\''
  | double => '"'

def ofChar? (c : Char) : Option Quote :=
  if c = '\'' then some single else if c = '"' then some double else none

end Quote

/-- One import statement, with the line that it stands on and the layout of that line. -/
structure Statement where
  /-- The module that the names come from. -/
  specifier : Text
  bindings : List Binding
  /-- The number of the line, counted from 1. -/
  line : Int
  /-- The line itself, without a byte order mark and final carriage returns. -/
  raw : Text
  form : Form
  quote : Quote
  semicolon : Bool
  indent : Text
  /-- The comment at the end of the line, with the white space before it. -/
  trailing : Text
deriving DecidableEq, Repr

/-- What two statements must share to be merged. -/
structure MergeKey where
  style : Style
  typeOnly : Bool
deriving DecidableEq, Repr

namespace Statement

variable (s : Statement)

/-- The key by which the statements of one module are grouped. -/
def mergeKey : MergeKey := ⟨s.form.style, s.form.typeOnly⟩

/-- The first default binding or whole `require`. -/
def default? : Option Binding :=
  s.bindings.find? fun b => b.kind = .defaultName || b.kind = .wholeRequire

def namespace? : Option Binding := s.bindings.find? (·.kind = .namespaceAlias)

def named : List Binding := s.bindings.filter (·.kind = .named)

def boundNames : List Text := s.bindings.map (·.localName)

end Statement

end ImportRepair
