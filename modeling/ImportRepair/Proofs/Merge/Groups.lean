import ImportRepair.Import.Merge
import ImportRepair.Proofs.Grouping
import ImportRepair.Proofs.Import.Table

/-!
# Duplicate groups and the edits of a merge

The statements of a table fall into classes by module, style and type flag, and
a class with two or more statements is a duplicate group.  Groups share no
statement and a table no line, so the edits that a merge makes for one group do
not touch the lines of any other.
-/

namespace ImportRepair

open Text

/-! ### Classes of statements -/

namespace ImportTable

variable {table : ImportTable} {s r : Statement} {g h : DuplicateGroup}

/-- The statements of a module that share their style and their type flag. -/
def ofClass (table : ImportTable) (specifier : Text) (key : MergeKey) : List Statement :=
  table.filter fun s => s.specifier == specifier && s.mergeKey == key

theorem mem_ofClass_iff {specifier : Text} {key : MergeKey} :
    s ∈ table.ofClass specifier key ↔ s ∈ table ∧ s.specifier = specifier ∧ s.mergeKey = key := by
  simp [ofClass]

/-- The statements stand on different lines, in their order. -/
def IsSorted (table : ImportTable) : Prop := table.Pairwise fun s r => s.line < r.line

theorem IsSorted.eq_of_line_eq (h : table.IsSorted) (hs : s ∈ table) (hr : r ∈ table)
    (hline : s.line = r.line) : s = r := by
  induction table with
  | nil => simp at hs
  | cons a table ih =>
    obtain ⟨hlt, h⟩ := List.pairwise_cons.1 h
    rcases List.mem_cons.1 hs with hsa | hs <;> rcases List.mem_cons.1 hr with hra | hr
    · rw [hsa, hra]
    · have hne := hlt r hr
      rw [← hsa] at hne
      omega
    · have hne := hlt s hs
      rw [← hra] at hne
      omega
    · exact ih h hs hr

end ImportTable

theorem isSorted_ofText (t : Text) : (ImportTable.ofText t).IsSorted := pairwise_line_ofText t

/-! ### Groups -/

theorem DuplicateGroup.of?_eq_some_iff {specifier : Text} {key : MergeKey} {ss : List Statement}
    {g : DuplicateGroup} : DuplicateGroup.of? specifier key ss = some g ↔
      g.specifier = specifier ∧ g.key = key ∧ g.statements = ss := by
  obtain ⟨m, k, a, b, l⟩ := g
  unfold DuplicateGroup.of?
  split
  · simp only [Option.some.injEq, DuplicateGroup.mk.injEq, DuplicateGroup.statements,
      DuplicateGroup.later, List.cons.injEq, eq_comm]
  · next hshort =>
    simp only [reduceCtorEq, DuplicateGroup.statements, DuplicateGroup.later, false_iff]
    rintro ⟨-, -, hss⟩
    exact hshort a b l hss.symm

namespace ImportTable

variable {table : ImportTable} {s r : Statement} {g h : DuplicateGroup}

/-- **The duplicate groups are the classes with two or more statements.** -/
theorem mem_duplicateGroups_iff :
    g ∈ table.duplicateGroups ↔ table.ofClass g.specifier g.key = g.statements := by
  have hclass : ∀ m k, (table.filter fun s => s.specifier == m).filter (fun s => s.mergeKey == k) =
      table.ofClass m k := by
    intro m k
    rw [List.filter_filter]
    exact List.filter_congr fun s _ => Bool.and_comm ..
  simp only [duplicateGroups, byModule, mergeGroups, List.mem_flatMap, List.mem_filterMap,
    mem_groupBy_iff, DuplicateGroup.of?_eq_some_iff]
  constructor
  · rintro ⟨m, ⟨-, hm⟩, k, ⟨-, hk⟩, hspecifier, hkey, hstatements⟩
    rw [hstatements, hk, hm, hclass, hspecifier, hkey]
  · intro h
    have hfirst : g.first ∈ table.ofClass g.specifier g.key := by
      rw [h]
      simp [DuplicateGroup.statements]
    obtain ⟨hmem, hspecifier, hkey⟩ := mem_ofClass_iff.1 hfirst
    refine ⟨(g.specifier, table.filter fun s => s.specifier == g.specifier), ⟨?_, rfl⟩,
      (g.key, g.statements), ⟨?_, ?_⟩, rfl, rfl, rfl⟩
    · exact List.ne_nil_of_mem (a := g.first) (by simp [hmem, hspecifier])
    · simp [DuplicateGroup.statements]
    · rw [hclass, h]

theorem pairwise_duplicateGroups (table : ImportTable) :
    table.duplicateGroups.Pairwise fun g h => ¬(g.specifier = h.specifier ∧ g.key = h.key) := by
  unfold duplicateGroups
  rw [List.pairwise_flatMap]
  constructor
  · intro m _
    rw [List.pairwise_filterMap]
    refine (pairwise_groupBy Statement.mergeKey m.2).imp fun {k k'} hne g hg h hh hsame => hne ?_
    obtain ⟨-, hkey, -⟩ := DuplicateGroup.of?_eq_some_iff.1 hg
    obtain ⟨-, hkey', -⟩ := DuplicateGroup.of?_eq_some_iff.1 hh
    rw [← hkey, ← hkey', hsame.2]
  · refine (pairwise_groupBy Statement.specifier table).imp fun {m m'} hne g hg h hh hsame => hne ?_
    obtain ⟨k, -, hg⟩ := List.mem_filterMap.1 hg
    obtain ⟨k', -, hh⟩ := List.mem_filterMap.1 hh
    obtain ⟨hspecifier, -, -⟩ := DuplicateGroup.of?_eq_some_iff.1 hg
    obtain ⟨hspecifier', -, -⟩ := DuplicateGroup.of?_eq_some_iff.1 hh
    rw [← hspecifier, ← hspecifier', hsame.1]

theorem mem_of_mem_statements (hg : g ∈ table.duplicateGroups) (hs : s ∈ g.statements) :
    s ∈ table ∧ s.specifier = g.specifier ∧ s.mergeKey = g.key := by
  rw [← mem_duplicateGroups_iff.1 hg] at hs
  exact mem_ofClass_iff.1 hs

/-- A class that shares a statement with a group is that group. -/
theorem statements_of_mem_ofClass {specifier : Text} {key : MergeKey}
    (hg : g ∈ table.duplicateGroups) (hs : s ∈ table.ofClass specifier key)
    (hsg : s ∈ g.statements) :
    g.specifier = specifier ∧ g.key = key ∧ table.ofClass specifier key = g.statements := by
  obtain ⟨-, hspecifier, hkey⟩ := mem_ofClass_iff.1 hs
  obtain ⟨-, hspecifier', hkey'⟩ := mem_of_mem_statements hg hsg
  have hm : g.specifier = specifier := hspecifier'.symm.trans hspecifier
  have hk : g.key = key := hkey'.symm.trans hkey
  exact ⟨hm, hk, by rw [← hm, ← hk, mem_duplicateGroups_iff.1 hg]⟩

/-- Two groups that share a statement are the same. -/
theorem eq_of_mem_statements (hg : g ∈ table.duplicateGroups) (hh : h ∈ table.duplicateGroups)
    (hs : s ∈ g.statements) (hs' : s ∈ h.statements) : g = h := by
  obtain ⟨-, hspecifier, hkey⟩ := mem_of_mem_statements hg hs
  obtain ⟨-, hspecifier', hkey'⟩ := mem_of_mem_statements hh hs'
  have hm : g.specifier = h.specifier := hspecifier.symm.trans hspecifier'
  have hk : g.key = h.key := hkey.symm.trans hkey'
  have hstatements : g.statements = h.statements := by
    rw [← mem_duplicateGroups_iff.1 hg, ← mem_duplicateGroups_iff.1 hh, hm, hk]
  obtain ⟨m, k, a, b, l⟩ := g
  obtain ⟨m', k', a', b', l'⟩ := h
  simp only [DuplicateGroup.statements, DuplicateGroup.later, List.cons.injEq] at hstatements
  obtain ⟨rfl, rfl, rfl⟩ := hstatements
  cases hm
  cases hk
  rfl

/-- The first statement of a group stands before all others. -/
theorem first_line_lt (hsorted : table.IsSorted) (hg : g ∈ table.duplicateGroups)
    (hs : s ∈ g.later) : g.first.line < s.line := by
  have hclass : g.statements.Pairwise fun s r => s.line < r.line := by
    rw [← mem_duplicateGroups_iff.1 hg]
    exact hsorted.sublist List.filter_sublist
  exact (List.pairwise_cons.1 hclass).1 s hs

theorem mem_statements_of_later (hs : s ∈ g.later) : s ∈ g.statements := List.mem_cons_of_mem _ hs

theorem first_mem_statements (g : DuplicateGroup) : g.first ∈ g.statements := List.mem_cons_self

/-- The group of a statement, if it is not alone in its class. -/
def groupOf? (table : ImportTable) (s : Statement) : Option DuplicateGroup :=
  DuplicateGroup.of? s.specifier s.mergeKey (table.ofClass s.specifier s.mergeKey)

theorem groupOf?_eq_some_iff (hs : s ∈ table) :
    table.groupOf? s = some g ↔ g ∈ table.duplicateGroups ∧ s ∈ g.statements := by
  unfold groupOf?
  rw [DuplicateGroup.of?_eq_some_iff, mem_duplicateGroups_iff]
  constructor
  · rintro ⟨hspecifier, hkey, hstatements⟩
    rw [hspecifier, hkey, hstatements]
    exact ⟨rfl, mem_ofClass_iff.2 ⟨hs, rfl, rfl⟩⟩
  · rintro ⟨hg, hmem⟩
    obtain ⟨-, hspecifier, hkey⟩ := mem_of_mem_statements (mem_duplicateGroups_iff.2 hg) hmem
    rw [hspecifier, hkey]
    exact ⟨rfl, rfl, hg.symm⟩

end ImportTable

/-! ### The edits of a merge -/

namespace DuplicateGroup

/-- The line that takes over the bindings of the group. -/
def mergedLine? (g : DuplicateGroup) : Option Text :=
  match g.verdict with
  | .merged line _ => some line
  | _ => none

theorem isMerged_iff {g : DuplicateGroup} :
    g.isMerged = true ↔ ∃ line, g.mergedLine? = some line := by
  unfold isMerged mergedLine?
  cases g.verdict <;> simp

theorem replacement?_eq (g : DuplicateGroup) : g.replacement? = g.mergedLine?.bind fun line =>
    if line = g.first.raw then none else some (g.first.line, line) := by
  unfold replacement? mergedLine?
  cases g.verdict <;> rfl

theorem replacement?_eq_some_iff {g : DuplicateGroup} {p : Int × Text} :
    g.replacement? = some p ↔
      p.1 = g.first.line ∧ p.2 ≠ g.first.raw ∧ g.mergedLine? = some p.2 := by
  obtain ⟨n, new⟩ := p
  rw [replacement?_eq, Option.bind_eq_some_iff]
  constructor
  · rintro ⟨line, hline, h⟩
    split at h
    · simp at h
    · next hraw =>
      cases h
      exact ⟨rfl, hraw, hline⟩
  · rintro ⟨rfl, hraw, hline⟩
    exact ⟨new, hline, if_neg hraw⟩

end DuplicateGroup

namespace ImportTable

variable {table : ImportTable} {s r : Statement} {g h : DuplicateGroup} {n m : Int} {l new : Text}

theorem mem_redirects_iff : (n, m) ∈ table.merge.redirects ↔
    ∃ g ∈ table.duplicateGroups, g.isMerged = true ∧ m = g.first.line ∧
      ∃ s ∈ g.later, s.line = n := by
  simp only [merge, List.mem_flatMap, DuplicateGroup.redirects]
  refine exists_congr fun g => and_congr_right fun _ => ?_
  split
  · next hmerged =>
    simp only [hmerged, List.mem_map, Prod.mk.injEq, true_and]
    constructor
    · rintro ⟨s, hs, hn, hm⟩
      exact ⟨hm.symm, s, hs, hn⟩
    · rintro ⟨hm, s, hs, hn⟩
      exact ⟨s, hs, hn, hm.symm⟩
  · next hmerged => simp [hmerged]

theorem mem_deletions_iff : n ∈ table.merge.deletions ↔
    ∃ g ∈ table.duplicateGroups, g.isMerged = true ∧ ∃ s ∈ g.later, s.line = n := by
  simp only [MergePlan.deletions, List.mem_map, Prod.exists, exists_and_right, exists_eq_right,
    mem_redirects_iff]
  constructor
  · rintro ⟨m, g, hg, hmerged, -, hs⟩
    exact ⟨g, hg, hmerged, hs⟩
  · rintro ⟨g, hg, hmerged, hs⟩
    exact ⟨g.first.line, g, hg, hmerged, rfl, hs⟩

/-- No line is deleted twice. -/
theorem nodup_deletions (hsorted : table.IsSorted) : table.merge.deletions.Nodup := by
  have hlines : table.merge.deletions =
      table.duplicateGroups.flatMap fun g => g.redirects.map (·.1) := by
    simp [MergePlan.deletions, merge, List.map_flatMap]
  have hmem : ∀ {g : DuplicateGroup} {n}, n ∈ g.redirects.map (·.1) →
      ∃ s ∈ g.later, s.line = n := by
    intro g n hn
    unfold DuplicateGroup.redirects at hn
    split at hn
    · simpa [Function.comp_def] using hn
    · simp at hn
  rw [hlines, List.nodup_flatMap]
  constructor
  · intro g hg
    have hclass : g.statements.Pairwise fun s r => s.line < r.line := by
      rw [← mem_duplicateGroups_iff.1 hg]
      exact hsorted.sublist List.filter_sublist
    unfold DuplicateGroup.redirects
    split
    · rw [List.map_map, List.nodup_iff_pairwise_ne, List.pairwise_map]
      exact (List.pairwise_cons.1 hclass).2.imp fun {_ _} hlt => Int.ne_of_lt hlt
    · simp
  · refine (pairwise_duplicateGroups table).imp_of_mem fun {g h} hg hh hne => ?_
    intro n hn hn'
    obtain ⟨s, hs, rfl⟩ := hmem hn
    obtain ⟨r, hr, hline⟩ := hmem hn'
    obtain ⟨hst, hspecifier, hkey⟩ := mem_of_mem_statements hg (mem_statements_of_later hs)
    obtain ⟨hrt, hspecifier', hkey'⟩ := mem_of_mem_statements hh (mem_statements_of_later hr)
    obtain rfl := hsorted.eq_of_line_eq hrt hst hline
    exact hne ⟨hspecifier.symm.trans hspecifier', hkey.symm.trans hkey'⟩

/-- A line that is deleted holds a later statement of its group. -/
theorem not_mem_deletions (hsorted : table.IsSorted) (hs : s ∈ table)
    (h : ∀ g ∈ table.duplicateGroups, g.isMerged = true → s ∉ g.later) :
    s.line ∉ table.merge.deletions := by
  intro hmem
  obtain ⟨g, hg, hmerged, r, hr, hline⟩ := mem_deletions_iff.1 hmem
  obtain ⟨hrt, -, -⟩ := mem_of_mem_statements hg (mem_statements_of_later hr)
  obtain rfl := hsorted.eq_of_line_eq hrt hs hline
  exact h g hg hmerged hr

theorem first_not_mem_later (hsorted : table.IsSorted) (hg : g ∈ table.duplicateGroups)
    (hh : h ∈ table.duplicateGroups) : g.first ∉ h.later := by
  intro hmem
  obtain rfl := eq_of_mem_statements hg hh (first_mem_statements g) (mem_statements_of_later hmem)
  exact absurd (first_line_lt hsorted hg hmem) (Int.lt_irrefl _)

theorem first_not_mem_deletions (hsorted : table.IsSorted) (hg : g ∈ table.duplicateGroups) :
    g.first.line ∉ table.merge.deletions :=
  not_mem_deletions hsorted (mem_of_mem_statements hg (first_mem_statements g)).1
    fun _ hh _ => first_not_mem_later hsorted hg hh

/-- Later statements of merged groups lose their lines. -/
theorem line?_merge_later (hg : g ∈ table.duplicateGroups) (hmerged : g.isMerged = true)
    (hs : s ∈ g.later) : table.merge.edits.line? s.line l = none := by
  have hmem : s.line ∈ table.merge.edits.deletions :=
    mem_deletions_iff.2 ⟨g, hg, hmerged, s, hs, rfl⟩
  rw [LineEdits.line?, if_pos hmem]

theorem mem_replacements_iff : (n, new) ∈ table.merge.replacements ↔
    ∃ g ∈ table.duplicateGroups, n = g.first.line ∧ new ≠ g.first.raw ∧
      g.mergedLine? = some new := by
  simp only [merge, List.mem_filterMap, DuplicateGroup.replacement?_eq_some_iff]

/-- The first statement of a merged group gets the new line. -/
theorem line?_merge_first (hsorted : table.IsSorted) (hg : g ∈ table.duplicateGroups)
    (hline : g.mergedLine? = some new) : table.merge.edits.line? g.first.line l =
      some (if new = g.first.raw then l else LineEdits.keepReturn l new) := by
  have hmem : g.first.line ∉ table.merge.edits.deletions := first_not_mem_deletions hsorted hg
  have hsame : ∀ {h new'}, h ∈ table.duplicateGroups → g.first.line = h.first.line →
      h.mergedLine? = some new' → h = g ∧ new' = new := by
    intro h new' hh hfirst hline'
    obtain ⟨hgt, -, -⟩ := mem_of_mem_statements hg (first_mem_statements g)
    obtain ⟨hht, -, -⟩ := mem_of_mem_statements hh (first_mem_statements h)
    have heq := hsorted.eq_of_line_eq hgt hht hfirst
    obtain rfl := eq_of_mem_statements hh hg (heq ▸ first_mem_statements h) (first_mem_statements g)
    exact ⟨rfl, Option.some.inj (hline'.symm.trans hline)⟩
  rw [LineEdits.line?, if_neg hmem]
  by_cases hraw : new = g.first.raw
  · have hnone : table.merge.edits.replacements.lookup g.first.line = none := by
      refine lookup_eq_none_of_not_mem fun new' hnew => ?_
      obtain ⟨h, hh, hfirst, hne, hline'⟩ := mem_replacements_iff.1 hnew
      obtain ⟨rfl, rfl⟩ := hsame hh hfirst hline'
      exact hne hraw
    rw [hnone, if_pos hraw]
  · have hsome : table.merge.edits.replacements.lookup g.first.line = some new := by
      refine lookup_eq_some_of_mem (mem_replacements_iff.2 ⟨g, hg, rfl, hraw, hline⟩) ?_
      intro new' hnew
      obtain ⟨h, hh, hfirst, -, hline'⟩ := mem_replacements_iff.1 hnew
      exact (hsame hh hfirst hline').2
    rw [hsome, if_neg hraw]

/-- Every other line stays as it is. -/
theorem line?_merge_of_not_merged
    (h : ∀ s ∈ table, s.line = n → ∀ g ∈ table.duplicateGroups, g.isMerged = true →
      s ∉ g.statements) : table.merge.edits.line? n l = some l := by
  have hmem : n ∉ table.merge.edits.deletions := by
    intro hmem
    obtain ⟨g, hg, hmerged, s, hs, hline⟩ := mem_deletions_iff.1 hmem
    have hs := mem_statements_of_later hs
    exact h s (mem_of_mem_statements hg hs).1 hline g hg hmerged hs
  have hnone : table.merge.edits.replacements.lookup n = none := by
    refine lookup_eq_none_of_not_mem fun new hnew => ?_
    obtain ⟨g, hg, hfirst, -, hline⟩ := mem_replacements_iff.1 hnew
    have hs := first_mem_statements g
    exact h g.first (mem_of_mem_statements hg hs).1 hfirst.symm g hg
      (DuplicateGroup.isMerged_iff.2 ⟨new, hline⟩) hs
  rw [LineEdits.line?, if_neg hmem, hnone]

end ImportTable

end ImportRepair
