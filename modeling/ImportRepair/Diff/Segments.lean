import ImportRepair.Grouping
import ImportRepair.Text.Basic

/-!
# Comparing two lists of lines

Two lists of lines are compared by their longest common run: what stands before
it in both lists is compared in the same way, and so is what stands behind it.
In a long list, lines that occur very often start no common run, but a run that
has been found is extended over them.
-/

namespace ImportRepair.Diff

/-- A piece of a comparison. -/
inductive Segment where
  /-- Lines that both lists have. -/
  | same (lines : List Text)
  /-- Lines of the old list in place of which the new list has others. -/
  | change (old new : List Text)
deriving DecidableEq, Repr

namespace Segment

def old : Segment → List Text
  | same ls => ls
  | change ls _ => ls

def new : Segment → List Text
  | same ls => ls
  | change _ ls => ls

end Segment

/-! ### Common runs -/

/-- A common run: where it starts in both lists, and how many lines it has. -/
structure Run where
  old : Nat
  new : Nat
  size : Nat
deriving DecidableEq, Repr

/-- The lengths of the common runs that end in the line `x` and at each line of `b`, where `before`
    has those that end one line earlier in the old list. -/
def runLengths (seeds : Text → Bool) (x : Text) (b : List Text) (before : List Nat) : List Nat :=
  if seeds x then List.zipWith (fun y n => if y = x then n + 1 else 0) b (0 :: before)
  else b.map fun _ => 0

/-- The longer of the run `best` and the longest run that ends in old line `i` and at new line `j`
    or later.  Of runs of one length the earliest counts. -/
def longerRun (best : Run) (i j : Nat) : List Nat → Run
  | [] => best
  | n :: ns => longerRun (if best.size < n then ⟨i + 1 - n, j + 1 - n, n⟩ else best) i (j + 1) ns

/-- The longest run of lines in `seeds`, where `best` is the longest run that ends before old line
    `i`. -/
def longestRun (seeds : Text → Bool) (b : List Text) (best : Run) (i : Nat) (before : List Nat) :
    List Text → Run
  | [] => best
  | x :: a =>
    let lengths := runLengths seeds x b before
    longestRun seeds b (longerRun best i 0 lengths) (i + 1) lengths a

/-- The number of lines that two lists have in common at their front. -/
def commonFront : List Text → List Text → Nat
  | x :: a, y :: b => if x = y then commonFront a b + 1 else 0
  | _, _ => 0

def Run.extend (r : Run) (a b : List Text) : Run :=
  let k := commonFront (a.take r.old).reverse (b.take r.new).reverse
  let n := commonFront (a.drop (r.old + r.size)) (b.drop (r.new + r.size))
  ⟨r.old - k, r.new - k, k + r.size + n⟩

def commonRun (seeds : Text → Bool) (a b : List Text) : Run :=
  (longestRun seeds b ⟨0, 0, 0⟩ 0 (b.map fun _ => 0) a).extend a b

/-! ### Segments -/

/-- The segments of two lists of lines, where adjacent runs are not joined yet. -/
def rawSegments (seeds : Text → Bool) (a b : List Text) : List Segment :=
  match commonRun seeds a b with
  | ⟨i, j, n⟩ =>
    if _ : 0 < n ∧ i + n ≤ a.length then
      rawSegments seeds (a.take i) (b.take j) ++ .same ((a.drop i).take n) ::
        rawSegments seeds (a.drop (i + n)) (b.drop (j + n))
    else if a.isEmpty && b.isEmpty then []
    else [.change a b]
termination_by a.length
decreasing_by
  all_goals simp only [List.length_take, List.length_drop]; omega

/-- The segments with adjacent common runs joined. -/
def joinRuns : List Segment → List Segment
  | [] => []
  | .same ls :: rest =>
    match joinRuns rest with
    | .same ms :: rest => .same (ls ++ ms) :: rest
    | rest => .same ls :: rest
  | s :: rest => s :: joinRuns rest

def longList : Nat := 200

/-- The lines at which a common run may start: all of them, or in a long list those that are at
    most one in a hundred, and one more. -/
def isSeed (b : List Text) (x : Text) : Bool :=
  decide (b.length < longList) || decide (b.count x ≤ b.length / 100 + 1)

def segments (a b : List Text) : List Segment := joinRuns (rawSegments (isSeed b) a b)

end ImportRepair.Diff
