import ImportRepair.Diff.Segments

/-!
# Unified diffs

A unified diff shows the changes between two texts in hunks: the changed lines
together with up to three unchanged lines on either side.  The lines keep their
line ends; a text that does not end in a line end runs into what follows it.
-/

namespace ImportRepair.Diff

/-! ### Lines -/

/-- A character that ends a line: a line or paragraph separator, a vertical tab, a form feed or an
    information separator, besides the line feed and the carriage return. -/
def isLineEnd (c : Char) : Bool :=
  let n := c.toNat
  (decide (0x0A ≤ n) && decide (n ≤ 0x0D)) || (decide (0x1C ≤ n) && decide (n ≤ 0x1E)) ||
    n == 0x85 || n == 0x2028 || n == 0x2029

def linesWithEnds : Text → List Text
  | [] => []
  | '\r' :: '\n' :: r => ['\r', '\n'] :: linesWithEnds r
  | c :: r =>
    if isLineEnd c then [c] :: linesWithEnds r
    else match linesWithEnds r with
      | [] => [[c]]
      | l :: ls => (c :: l) :: ls

/-! ### Hunks -/

/-- How many unchanged lines are shown on either side of a change. -/
def contextLines : Nat := 3

/-- A part of a comparison, with the number of lines that both lists have in front of it. -/
structure Hunk where
  oldStart : Nat
  newStart : Nat
  segments : List Segment
deriving DecidableEq, Repr

namespace Hunk

variable (h : Hunk)

def old : List Text := h.segments.flatMap Segment.old

def new : List Text := h.segments.flatMap Segment.new

def push (s : Segment) : Hunk := { h with segments := h.segments ++ [s] }

/-- The hunk that begins in the last lines of a common run behind this one. -/
def next (ls : List Text) : Hunk :=
  let hidden := ls.length - contextLines
  ⟨h.oldStart + h.old.length + hidden, h.newStart + h.new.length + hidden, [.same (ls.drop hidden)]⟩

end Hunk

/-- The hunks of the segments that follow the hunk `h`, and `h` itself. -/
def hunksFrom (h : Hunk) : List Segment → List Hunk
  | [] => [h]
  | [.same ls] => [h.push (.same (ls.take contextLines))]
  | .same ls :: rest =>
    if 2 * contextLines < ls.length then
      h.push (.same (ls.take contextLines)) :: hunksFrom (h.next ls) rest
    else hunksFrom (h.push (.same ls)) rest
  | s :: rest => hunksFrom (h.push s) rest

def hunks : List Segment → List Hunk
  | [] => []
  | [.same _] => []
  | .same ls :: rest => hunksFrom (Hunk.next ⟨0, 0, []⟩ ls) rest
  | ss => hunksFrom ⟨0, 0, []⟩ ss

/-! ### Text -/

/-- The place of some lines in a list, as the header of a hunk gives it. -/
def rangeText (start count : Nat) : String :=
  if count = 1 then s!"{start + 1}"
  else if count = 0 then s!"{start},0"
  else s!"{start + 1},{count}"

def Hunk.header (h : Hunk) : Text :=
  (s!"@@ -{rangeText h.oldStart h.old.length} +{rangeText h.newStart h.new.length} @@\n").toList

def Segment.text : Segment → Text
  | .same ls => ls.flatMap (' ' :: ·)
  | .change old new => old.flatMap ('-' :: ·) ++ new.flatMap ('+' :: ·)

def Hunk.text (h : Hunk) : Text := h.header ++ h.segments.flatMap Segment.text

def unified (label before after : Text) : Text :=
  match hunks (segments (linesWithEnds before) (linesWithEnds after)) with
  | [] => []
  | hs =>
    "--- a/".toList ++ label ++ "\n+++ b/".toList ++ label ++ ['\n'] ++ hs.flatMap Hunk.text

end ImportRepair.Diff
