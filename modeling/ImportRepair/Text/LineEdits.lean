import ImportRepair.Text.Basic

/-!
# Edits of whole lines

Edits replace and delete lines by their numbers, counted from 1.  A line that
ended in a carriage return keeps it when it is replaced, and a text that began
with a byte order mark goes on beginning with one as long as a line is left.
-/

namespace ImportRepair

def byteOrderMark : Char := '\uFEFF'

namespace Text

/-- Drops a byte order mark at the front. -/
def dropMark : Text → Text
  | [] => []
  | c :: r => if c = byteOrderMark then r else c :: r

def hasMark (t : Text) : Bool := t.head? == some byteOrderMark

def endsInReturn (t : Text) : Bool := t.getLast? == some '\r'

def numberedLines (t : Text) : List (Int × Text) :=
  ((lines t).zipIdx 1).map fun p => ((p.2 : Int), p.1)

end Text

/-- Replacements and deletions of whole lines. -/
structure LineEdits where
  /-- New lines by line number; the first entry for a number counts. -/
  replacements : List (Int × Text) := []
  deletions : List Int := []
deriving DecidableEq, Repr

namespace LineEdits

/-- The line `new` with the carriage return of the line `old`. -/
def keepReturn (old new : Text) : Text :=
  if Text.endsInReturn old && !Text.endsInReturn new then new ++ ['\r'] else new

def line? (e : LineEdits) (n : Int) (t : Text) : Option Text :=
  if n ∈ e.deletions then none
  else match e.replacements.lookup n with
    | some new => some (keepReturn t new)
    | none => some t

def linesAfter (e : LineEdits) (t : Text) : List Text :=
  (Text.numberedLines t).filterMap fun p => e.line? p.1 p.2

/-- The first line with a byte order mark. -/
def markFirst : List Text → List Text
  | [] => []
  | l :: ls => (if Text.hasMark l then l else byteOrderMark :: l) :: ls

/-- The text after the edits. -/
def apply (e : LineEdits) (t : Text) : Text :=
  Text.unlines (if Text.hasMark t then markFirst (e.linesAfter t) else e.linesAfter t)

end LineEdits

end ImportRepair
