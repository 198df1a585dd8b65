/-!
# Grouping by a key

Import statements are grouped by module, diagnostics by file, evidence by line.
In each case the groups come in the order in which their keys first occur, and
a group keeps the order of its members.
-/

namespace ImportRepair

variable {α κ : Type} [BEq κ]

/-- The groups of a list: each key that occurs, in the order of first occurrence, with the members
    that have it. -/
def groupBy (key : α → κ) (l : List α) : List (κ × List α) :=
  (l.map key).eraseDups.map fun k => (k, l.filter fun a => key a == k)

/-- How often each key occurs, in the order of first occurrence. -/
def countBy (key : α → κ) (l : List α) : List (κ × Nat) :=
  (groupBy key l).map fun g => (g.1, g.2.length)

@[simp] theorem map_fst_groupBy (key : α → κ) (l : List α) :
    (groupBy key l).map (·.1) = (l.map key).eraseDups := by
  simp [groupBy, Function.comp_def]

theorem mem_of_mem_groupBy [LawfulBEq κ] {key : α → κ} {l : List α} {g : κ × List α} {a : α}
    (hg : g ∈ groupBy key l) (ha : a ∈ g.2) : a ∈ l ∧ key a = g.1 := by
  obtain ⟨k, -, rfl⟩ := List.mem_map.1 hg
  simpa using ha

end ImportRepair
