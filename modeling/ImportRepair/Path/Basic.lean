import ImportRepair.Text.Basic

/-!
# Paths

A path is a sequence of names below a root, or below no root if it is relative.
Empty names and single dots are dropped when a path is read; two dots are kept
until the path is resolved.  Resolution goes by the names only, as on a host
without links.
-/

namespace ImportRepair

/-- What a path starts from. -/
inductive PathRoot where
  | relative
  | slash
  /-- Exactly two slashes, which are not the same as one. -/
  | doubleSlash
deriving DecidableEq, Repr

def PathRoot.text : PathRoot → Text
  | relative => []
  | slash => ['/']
  | doubleSlash => ['/', '/']

structure Path where
  root : PathRoot
  names : List Text
deriving DecidableEq, Repr

namespace Path

def rootOf (t : Text) : PathRoot :=
  match (t.takeWhile (· == '/')).length with
  | 0 => .relative
  | 2 => .doubleSlash
  | _ => .slash

/-- A name that stays in a path. -/
def isName (n : Text) : Bool := !n.isEmpty && n != ['.']

def ofText (t : Text) : Path := ⟨rootOf t, (t.splitOn '/').filter isName⟩

variable (p : Path)

def text : Text :=
  if p.root = .relative && p.names.isEmpty then ['.']
  else p.root.text ++ ['/'].intercalate p.names

/-- The path starts from a root. -/
def isAbsolute : Bool := p.root != .relative

/-- The parts of a path: its root, if it has one, and its names. -/
def parts : List Text := if p.isAbsolute then p.root.text :: p.names else p.names

def join (q : Path) : Path := if q.isAbsolute then q else ⟨p.root, p.names ++ q.names⟩

/-- The path without its last name. -/
def parent : Path := ⟨p.root, p.names.dropLast⟩

/-- The suffix of a name, from its last dot on.  A dot at either end begins none. -/
def suffixOf (name : Text) : Text :=
  let after := (name.reverse.takeWhile (· != '.')).reverse
  let before := name.take (name.length - after.length - 1)
  if '.' ∈ name && !before.isEmpty && !after.isEmpty then '.' :: after else []

def suffix : Text := suffixOf (p.names.getLast?.getD [])

/-- A name of the path holds the character NUL, which no name of a file can. -/
def holdsNul : Bool := p.names.any (·.contains '\x00')

/-! ### Resolution -/

/-- Names below `stack`, which is in reverse order, where two dots lead one level up. -/
def climb (stack : List Text) : List Text → List Text
  | [] => stack.reverse
  | n :: ns => if n = ['.', '.'] then climb stack.tail ns else climb (n :: stack) ns

/-- The absolute path without two dots that the path stands for in a working directory, where no
    name is that of a link. -/
def resolve (workingDirectory : Path) : Path := ⟨.slash, climb [] (workingDirectory.join p).names⟩

/-- The path, or one that it lies below, is `q`. -/
def isWithin (q : Path) : Bool := p.root = q.root && q.names.isPrefixOf p.names

end Path

end ImportRepair
