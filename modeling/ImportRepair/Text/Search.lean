import ImportRepair.Text.Basic

/-!
# Searching a text

The readers of lines look for the first place where a piece of a known shape
starts.  The shape is given by a function that reads such a piece from the
front of a text.
-/

namespace ImportRepair

variable {α : Type}

/-- The shortest nonempty prefix on one line after which `p` succeeds, with what `p` returns. -/
def splitShortest? (p : Text → Option α) : Text → Option (Text × α)
  | [] => none
  | c :: r =>
    if c = '\n' then none
    else match p r with
      | some a => some ([c], a)
      | none => (splitShortest? p r).map fun q => (c :: q.1, q.2)

/-- What `p` returns at the first place where it succeeds. -/
def firstMatch? (p : Text → Option α) : Text → Option α
  | [] => p []
  | c :: r =>
    match p (c :: r) with
    | some a => some a
    | none => firstMatch? p r

end ImportRepair
