/-!
# Text as a list of characters

Every reader of this library takes its input apart from the front, so a text
is a list of code points.  A position is then a number of code points, and a
piece of a line is literally a sublist of it.
-/

namespace ImportRepair

/-- Text: a sequence of Unicode code points. -/
abbrev Text := List Char

namespace Text

/-! ### Lines -/

/-- The lines of a text, which line feeds separate.  There is at least one. -/
def lines (t : Text) : List Text := t.splitOn '\n'

def unlines (ls : List Text) : Text := ['\n'].intercalate ls

theorem lines_ne_nil (t : Text) : lines t ≠ [] := by simp [lines]

theorem unlines_lines (t : Text) : unlines (lines t) = t := by
  simp [lines, unlines, List.intercalate_splitOn]

/-- The text with line feeds for all line ends. -/
def unifyLineEnds : Text → Text
  | [] => []
  | '\r' :: '\n' :: r => '\n' :: unifyLineEnds r
  | c :: r => (if c = '\r' then '\n' else c) :: unifyLineEnds r

/-! ### Trimming -/

/-- Drops the longest suffix of characters in `p`. -/
def dropEndWhile (p : Char → Bool) (t : Text) : Text := (t.reverse.dropWhile p).reverse

/-! ### Pieces -/

/-- Every occurrence of the character `c` replaced by `d`. -/
def replaceChar (c d : Char) (t : Text) : Text := t.map fun x => if x = c then d else x

/-- The piece occurs somewhere in a text. -/
def occursIn (piece : Text) : Text → Bool
  | [] => piece.isEmpty
  | c :: r => piece.isPrefixOf (c :: r) || occursIn piece r

theorem occursIn_iff {piece t : Text} : occursIn piece t = true ↔ piece <:+: t := by
  induction t with
  | nil => simp [occursIn]
  | cons c r ih => simp [occursIn, ih, List.infix_cons_iff]

/-! ### Order -/

/-- The order of texts by their code points; a text stands in front of its continuations. -/
def le : Text → Text → Bool
  | [], _ => true
  | _ :: _, [] => false
  | c :: t, d :: u => if c = d then le t u else decide (c.toNat < d.toNat)

end Text

end ImportRepair
