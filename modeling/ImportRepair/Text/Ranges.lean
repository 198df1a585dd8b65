/-!
# Character classes as ranges of code points

The classes of characters that the readers of this library distinguish are
data of a standard: white space, the letters and digits of identifiers, the
characters that print.  Each is a list of inclusive ranges of code points, and
membership is a search through that list.
-/

namespace ImportRepair

/-- Inclusive ranges of code points. -/
abbrev Ranges := List (Nat × Nat)

def Ranges.covers (r : Ranges) (n : Nat) : Bool :=
  r.any fun p => decide (p.1 ≤ n) && decide (n ≤ p.2)

theorem Ranges.covers_iff {r : Ranges} {n : Nat} :
    r.covers n = true ↔ ∃ p ∈ r, p.1 ≤ n ∧ n ≤ p.2 := by
  simp [Ranges.covers]

end ImportRepair
