import ImportRepair.Fix.Certified
import ImportRepair.Proofs.Import.Removal
import ImportRepair.Proofs.Merge.Table

/-!
# Evidence after a merge

A record of evidence follows the line that it names: to the line that takes
over the bindings of a deleted line, and up by the number of lines that are
deleted before it.  A record without a name follows as one record for each name
of its statement, so on a line with a statement every record of the merged text
names a binding.
-/

namespace ImportRepair

open Text

variable {t l u x : Text} {table : ImportTable} {plan : MergePlan} {evidence : List Evidence}
variable {e : Evidence} {s : Statement} {n m : Int}

/-! ### The plan of a fix -/

/-- What a plan keeps to, whether it merges the duplicate imports of a text or does nothing. -/
structure MergePlan.IsFor (plan : MergePlan) (t : Text) : Prop where
  byLine : plan.edits.IsByLine
  nodup : plan.deletions.Nodup
  first : ∀ n ∈ plan.deletions, 2 ≤ n
  /-- Lines without a statement stay as they are. -/
  untouched : ∀ n l, (ImportTable.ofText t).onLine? n = none → plan.edits.line? n l = some l
  /-- A deleted line goes to one line, which stays. -/
  redirect : ∀ n m, (n, m) ∈ plan.redirects → plan.redirects.lookup n = some m ∧ m ∉ plan.deletions

theorem isFor_merge (t : Text) : (ImportTable.ofText t).merge.IsFor t where
  byLine := isByLine_merge t
  nodup := ImportTable.nodup_deletions (isSorted_ofText t)
  first := fun _ hn => two_le_of_mem_deletions hn
  untouched := by
    intro n l hnone
    refine ImportTable.line?_merge_of_not_merged fun s hs hline => ?_
    rw [onLine?_eq_some_iff.2 ⟨hs, hline⟩] at hnone
    cases hnone
  redirect := by
    intro n m hmem
    have hsorted := isSorted_ofText t
    obtain ⟨g, hg, -, rfl, s, hs, rfl⟩ := ImportTable.mem_redirects_iff.1 hmem
    refine ⟨lookup_eq_some_of_mem hmem fun m hm => ?_,
      ImportTable.first_not_mem_deletions hsorted hg⟩
    obtain ⟨h, hh, -, rfl, r, hr, hline⟩ := ImportTable.mem_redirects_iff.1 hm
    have hsg := ImportTable.mem_statements_of_later hs
    have hrh := ImportTable.mem_statements_of_later hr
    have hrs := hsorted.eq_of_line_eq (ImportTable.mem_of_mem_statements hh hrh).1
      (ImportTable.mem_of_mem_statements hg hsg).1 hline
    rw [ImportTable.eq_of_mem_statements hh hg hrh (hrs ▸ hsg)]

theorem isFor_nil (t : Text) : ({} : MergePlan).IsFor t where
  byLine := by simp [LineEdits.IsByLine, MergePlan.edits]
  nodup := List.nodup_nil
  first := by simp [MergePlan.deletions]
  untouched := fun _ _ _ => rfl
  redirect := by simp

theorem isFor_mergePlan (flags : FixFlags) (t : Text) :
    (flags.mergePlan (ImportTable.ofText t)).IsFor t := by
  unfold FixFlags.mergePlan
  split
  · exact isFor_merge t
  · exact isFor_nil t

theorem text_mergedFix (flags : FixFlags) (t : Text) :
    (mergedFix flags t).text = (flags.mergePlan (ImportTable.ofText t)).edits.apply t := by
  rw [← MergePlan.apply_eq]
  unfold mergedFix MergePlan.apply
  simp only
  split <;> rfl

theorem text_certifiedFix (mergeDuplicates : Bool) (evidence : List Evidence) (t : Text) :
    (certifiedFix ⟨mergeDuplicates, true⟩ evidence t).text =
      dropUnused (moveEvidence (ImportTable.ofText t)
        (FixFlags.mergePlan ⟨mergeDuplicates, true⟩ (ImportTable.ofText t)) evidence)
        ((FixFlags.mergePlan ⟨mergeDuplicates, true⟩ (ImportTable.ofText t)).edits.apply t) := by
  rw [← text_mergedFix]
  rfl

namespace MergePlan.IsFor

theorem not_mem_deletions (h : plan.IsFor t) (hn : (ImportTable.ofText t).onLine? n = none) :
    n ∉ plan.deletions := by
  exact LineEdits.not_mem_of_line?_eq_some (h.untouched n [] hn)

theorem target_not_mem (h : plan.IsFor t) (n : Int) : plan.target n ∉ plan.deletions := by
  unfold target
  cases hlookup : plan.redirects.lookup n with
  | some m =>
    obtain ⟨a, b, hab, -⟩ := List.lookup_eq_some_iff.1 hlookup
    exact (h.redirect n m (by simp [hab])).2
  | none =>
    intro hmem
    obtain ⟨⟨k, m⟩, hp, rfl⟩ := List.mem_map.1 hmem
    rw [(h.redirect k m hp).1] at hlookup
    cases hlookup

/-- The lines that end up where a line stays. -/
theorem lineAfter_eq_iff (h : plan.IsFor t) (hm : m ∉ plan.deletions) :
    plan.lineAfter n = plan.lineAfter m ↔ n = m ∨ (n, m) ∈ plan.redirects := by
  have htarget : plan.target n = m ↔ n = m ∨ (n, m) ∈ plan.redirects := by
    constructor
    · intro heq
      unfold target at heq
      cases hlookup : plan.redirects.lookup n with
      | some k =>
        obtain ⟨a, b, hab, -⟩ := List.lookup_eq_some_iff.1 hlookup
        rw [hlookup, Option.getD_some] at heq
        exact Or.inr (by simp [hab, heq])
      | none =>
        rw [hlookup, Option.getD_none] at heq
        exact Or.inl heq
    · rintro (rfl | hmem)
      · exact target_of_not_mem hm
      · rw [target, (h.redirect n m hmem).1, Option.getD_some]
  rw [lineAfter_eq, lineAfter_eq, target_of_not_mem hm, ← htarget]
  exact LineEdits.newNumber_inj h.nodup (h.target_not_mem n) hm

theorem lineAfter_of_not_mem (hn : n ∉ plan.deletions) :
    plan.lineAfter n = plan.edits.newNumber n := by
  rw [lineAfter_eq, target_of_not_mem hn]

/-- The statement on a line that stays. -/
theorem onLine?_lineAfter (h : plan.IsFor t) (hl : (n, l) ∈ numberedLines t)
    (hu : plan.edits.line? n l = some u) :
    (ImportTable.ofText (plan.edits.apply t)).onLine? (plan.lineAfter n) =
      Statement.ofLine? u (plan.lineAfter n) := by
  have hn : n ∉ plan.deletions := LineEdits.not_mem_of_line?_eq_some hu
  rw [lineAfter_of_not_mem hn]
  exact onLine?_apply h.byLine h.nodup (fun d hd => by have hle := h.first d hd; omega) hl hu

/-- Where there was no statement there is none after the merge. -/
theorem onLine?_eq_none (h : plan.IsFor t) (hn : (ImportTable.ofText t).onLine? n = none) :
    (ImportTable.ofText (plan.edits.apply t)).onLine? (plan.lineAfter n) = none := by
  have hmem := h.not_mem_deletions hn
  rw [lineAfter_of_not_mem hmem, Option.eq_none_iff_forall_ne_some]
  intro s hs
  obtain ⟨hst, hline⟩ := onLine?_eq_some_iff.1 hs
  rw [ofText_apply h.byLine h.nodup fun d hd => by have hle := h.first d hd; omega] at hst
  obtain ⟨⟨k, l⟩, hl, hread⟩ := List.mem_filterMap.1 hst
  obtain ⟨u, hu, hread⟩ := Option.bind_eq_some_iff.1 hread
  have hk : k ∉ plan.deletions := LineEdits.not_mem_of_line?_eq_some hu
  have hnumber := (Statement.ofLine?_line hread).symm.trans hline
  obtain rfl := (LineEdits.newNumber_inj h.nodup hk hmem).1 hnumber
  -- the line is the same as before, and so is what is read from it
  rw [h.untouched k l hn] at hu
  cases hu
  have hpos : 1 ≤ k := one_le_of_mem_numberedLines hl
  rw [Statement.ofLine?_move (LineEdits.newNumber_eq_one_iff h.nodup h.first hpos).symm,
    ← onLine?_of_mem_numberedLines hl, hn] at hread
  cases hread

end MergePlan.IsFor

/-! ### Certified names -/

/-- The names that a record certifies as unused: without a name, those of the statement on its
    line. -/
def Evidence.certified (table : ImportTable) (e : Evidence) : List Text :=
  match e.name, table.onLine? e.line with
  | some n, _ => [n]
  | none, some s => s.boundNames
  | none, none => []

theorem mem_move_iff {r : Evidence} : r ∈ e.move table plan ↔
    ∃ name, r = { e with line := plan.lineAfter e.line, name } ∧
      ((∃ y ∈ e.certified table, name = some y) ∨
        name = none ∧ e.name = none ∧ table.onLine? e.line = none) := by
  unfold Evidence.move Evidence.certified
  cases hname : e.name with
  | some y => simp
  | none =>
    cases table.onLine? e.line with
    | none => simp
    | some s => simp [eq_comm, and_comm]

theorem some_mem_namesAt_iff : some x ∈ namesAt (moveEvidence table plan evidence) n ↔
    ∃ e ∈ evidence, plan.lineAfter e.line = n ∧ x ∈ e.certified table := by
  simp only [mem_namesAt_iff, moveEvidence, List.mem_flatMap, mem_move_iff]
  constructor
  · rintro ⟨r, ⟨e, he, name, rfl, h⟩, hline, hname⟩
    rcases h with ⟨y, hy, rfl⟩ | ⟨rfl, -⟩
    · exact ⟨e, he, hline, Option.some.inj hname ▸ hy⟩
    · cases hname
  · rintro ⟨e, he, hline, hx⟩
    exact ⟨_, ⟨e, he, some x, rfl, Or.inl ⟨x, hx, rfl⟩⟩, hline, rfl⟩

/-- A record without a name never stays one on a line with a statement. -/
theorem none_not_mem_namesAt (evidence : List Evidence) (h : plan.IsFor t)
    (hs : (ImportTable.ofText (plan.edits.apply t)).onLine? n = some s) :
    none ∉ namesAt (moveEvidence (ImportTable.ofText t) plan evidence) n := by
  simp only [mem_namesAt_iff, moveEvidence, List.mem_flatMap, mem_move_iff]
  rintro ⟨r, ⟨e, -, name, rfl, hname⟩, rfl, rfl⟩
  rcases hname with ⟨y, -, hy⟩ | ⟨-, -, hnone⟩
  · cases hy
  · rw [h.onLine?_eq_none hnone] at hs
    cases hs

theorem mem_removedNames_iff (h : plan.IsFor t)
    (hs : (ImportTable.ofText (plan.edits.apply t)).onLine? n = some s) :
    x ∈ s.removedNames (namesAt (moveEvidence (ImportTable.ofText t) plan evidence) n) ↔
      ∃ e ∈ evidence, plan.lineAfter e.line = n ∧ x ∈ e.certified (ImportTable.ofText t) := by
  have hnone := none_not_mem_namesAt evidence h hs
  rw [Statement.removedNames, if_neg (by simpa using hnone), List.reduceOption_mem_iff,
    some_mem_namesAt_iff]

end ImportRepair
