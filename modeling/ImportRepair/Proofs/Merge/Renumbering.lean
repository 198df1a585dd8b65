import ImportRepair.Proofs.Fix.Evidence

/-!
# Where the lines of a merged text stand

A merge tells for every line of a text where it ends up.  The lines that it
keeps move up in their order and fill the merged text; each holds what it held
before, or the new line of its group.  A deleted line ends up on the first line
of its own group, which is kept.
-/

namespace ImportRepair

open Text

variable {t t' l u new : Text} {plan : MergePlan} {s : Statement} {k m n : Int}

/-- The line that is written over another one: it takes over a byte order mark and a carriage
    return. -/
def writtenOver (l new : Text) : Text :=
  (if l.hasMark then [byteOrderMark] else []) ++ new ++ if l.endsInReturn then ['\r'] else []

/-- What a plan says of the lines of `t` holds of the lines of `t'`. -/
structure MergePlan.Renumbers (plan : MergePlan) (t t' : Text) : Prop where
  length : (lines t').length + plan.deletionCount = (lines t).length
  lt : ∀ m n, m ∉ plan.deletions → n ∉ plan.deletions → m < n →
    plan.lineAfter m < plan.lineAfter n
  onto : ∀ n : Int, (∃ k : Int, 1 ≤ k ∧ k ≤ (lines t).length ∧ k ∉ plan.deletions ∧
    plan.lineAfter k = n) ↔ 1 ≤ n ∧ n ≤ (lines t).length - plan.deletionCount
  kept : ∀ k l, (k, l) ∈ numberedLines t → k ∉ plan.deletions →
    (∀ new, (k, new) ∉ plan.replacements) → (plan.lineAfter k, l) ∈ numberedLines t'
  replaced : ∀ k l new, (k, l) ∈ numberedLines t → (k, new) ∈ plan.replacements →
    k ∉ plan.deletions ∧ (plan.lineAfter k, writtenOver l new) ∈ numberedLines t'
  deleted : ∀ k ∈ plan.deletions, ∃ s ∈ ImportTable.ofText t, s.line = k ∧
    ∃ first others, (ImportTable.ofText t).ofClass s.specifier s.mergeKey = first :: others ∧
      s ∈ others ∧ first.line ∉ plan.deletions ∧ plan.lineAfter k = plan.lineAfter first.line

/-! ### The lines that are kept -/

/-- A line that is not deleted stands under its new number. -/
theorem MergePlan.IsFor.mem_numberedLines_apply (h : plan.IsFor t) (hl : (k, l) ∈ numberedLines t)
    (hu : plan.edits.markedLine? k l = some u) :
    (plan.lineAfter k, u) ∈ numberedLines (plan.edits.apply t) := by
  have hk : k ∉ plan.deletions := LineEdits.not_mem_of_markedLine?_eq_some hu
  rw [MergePlan.IsFor.lineAfter_of_not_mem hk]
  exact (LineEdits.mem_numberedLines_apply_iff h.first h.byLine h.nodup).2 ⟨k, l, hl, hu, rfl⟩

/-- The lines that are kept fill the edited text. -/
theorem MergePlan.IsFor.exists_lineAfter_iff (h : plan.IsFor t) :
    (∃ k : Int, 1 ≤ k ∧ k ≤ (lines t).length ∧ k ∉ plan.deletions ∧ plan.lineAfter k = n) ↔
      1 ≤ n ∧ n ≤ (lines (plan.edits.apply t)).length := by
  rw [← exists_mem_numberedLines_iff]
  constructor
  · rintro ⟨k, hone, hlast, hk, rfl⟩
    obtain ⟨l, hl⟩ := exists_mem_numberedLines_iff.2 ⟨hone, hlast⟩
    obtain ⟨u, hu⟩ := LineEdits.exists_markedLine?_iff (e := plan.edits) (l := l).2 hk
    exact ⟨u, h.mem_numberedLines_apply hl hu⟩
  · rintro ⟨u, hu⟩
    obtain ⟨k, l, hl, hmarked, rfl⟩ :=
      (LineEdits.mem_numberedLines_apply_iff h.first h.byLine h.nodup).1 hu
    have hk : k ∉ plan.deletions := LineEdits.not_mem_of_markedLine?_eq_some hmarked
    obtain ⟨hone, hlast⟩ := exists_mem_numberedLines_iff.1 ⟨l, hl⟩
    exact ⟨k, hone, hlast, hk, MergePlan.IsFor.lineAfter_of_not_mem hk⟩

theorem MergePlan.IsFor.lineAfter_lt (h : plan.IsFor t) (hm : m ∉ plan.deletions)
    (hn : n ∉ plan.deletions) (hlt : m < n) : plan.lineAfter m < plan.lineAfter n := by
  rw [MergePlan.IsFor.lineAfter_of_not_mem hm, MergePlan.IsFor.lineAfter_of_not_mem hn]
  exact LineEdits.newNumber_lt h.nodup hlt hm

/-! ### The lines of a merge -/

/-- The deleted lines are lines of the text. -/
theorem le_of_mem_deletions (h : n ∈ (ImportTable.ofText t).merge.deletions) :
    n ≤ (lines t).length := by
  obtain ⟨g, hg, -, s, hs, rfl⟩ := ImportTable.mem_deletions_iff.1 h
  have hmem := (ImportTable.mem_of_mem_statements hg (ImportTable.mem_statements_of_later hs)).1
  obtain ⟨l, hl, -⟩ := mem_ofText_iff.1 hmem
  exact (exists_mem_numberedLines_iff.1 ⟨l, hl⟩).2

/-- A line for which nothing is written stays as it is. -/
theorem line?_of_not_mem_replacements (hk : k ∉ plan.deletions)
    (hnone : ∀ new, (k, new) ∉ plan.replacements) : plan.edits.line? k l = some l := by
  have hmem : k ∉ plan.edits.deletions := hk
  have hlookup : plan.edits.replacements.lookup k = none := lookup_eq_none_of_not_mem hnone
  rw [LineEdits.line?, if_neg hmem, hlookup]

theorem hasMark_writtenBehind (hnew : IsBare new) :
    (new ++ if l.endsInReturn then ['\r'] else []).hasMark = false := by
  cases new with
  | nil => cases l.endsInReturn <;> rfl
  | cons c new => exact hnew.mark

/-- What is read from a line that is written over another one. -/
theorem bareLine_writtenOver (hnew : IsBare new) (hmark : l.hasMark = true → k = 1) :
    bareLine (writtenOver l new) k = new := by
  have hbehind : ∀ m, bareLine (new ++ if l.endsInReturn then ['\r'] else []) m = new := by
    intro m
    split
    · exact bareLine_return hnew
    · rw [List.append_nil]
      exact bareLine_of_isBare hnew
  rw [writtenOver, List.append_assoc]
  cases hl : l.hasMark with
  | false => exact hbehind k
  | true =>
    have hmarked := bareLine_mark (new ++ if l.endsInReturn then ['\r'] else [])
    rw [hasMark_writtenBehind hnew] at hmarked
    rw [hmark hl]
    exact hmarked.trans (hbehind 1)

/-- What is written over a recognised line. -/
theorem markedLine?_eq_writtenOver (hs : Statement.ofLine? l k = some s) (hnew : IsBare new)
    (hline : plan.edits.line? k l = some (LineEdits.keepReturn l new)) :
    plan.edits.markedLine? k l = some (writtenOver l new) := by
  have hbare : new.endsInReturn = false := by
    rw [endsInReturn, beq_eq_false_iff_ne]
    intro hlast
    have hreturn := hnew.last '\r' hlast
    simp at hreturn
  have hreturn : LineEdits.keepReturn l new = new ++ if l.endsInReturn then ['\r'] else [] := by
    rw [LineEdits.keepReturn, hbare]
    cases l.endsInReturn <;> simp
  have hmark := hasMark_writtenBehind (l := l) hnew
  rw [LineEdits.markedLine?, hline, Option.map_some, hreturn, writtenOver]
  rcases Statement.mark_of_ofLine? hs with rfl | hl
  · cases l.hasMark <;> simp [hmark]
  · simp [hl]

/-- The new line of a group is written over its first line. -/
theorem markedLine?_merge_of_replaced (hl : (k, l) ∈ numberedLines t)
    (h : (k, new) ∈ (ImportTable.ofText t).merge.replacements) :
    (ImportTable.ofText t).merge.edits.markedLine? k l = some (writtenOver l new) := by
  obtain ⟨g, hg, rfl, hraw, hnew⟩ := ImportTable.mem_replacements_iff.1 h
  have hfirst := (ImportTable.mem_of_mem_statements hg (ImportTable.first_mem_statements g)).1
  have hread : Statement.ofLine? l g.first.line = some g.first := by
    rw [← onLine?_of_mem_numberedLines hl]
    exact onLine?_eq_some_iff.2 ⟨hfirst, rfl⟩
  refine markedLine?_eq_writtenOver hread (isBare_mergedLine hg hnew).1 ?_
  rw [ImportTable.line?_merge_first (isSorted_ofText t) hg hnew, if_neg hraw]

/-- **A merge puts every line where it says.** -/
theorem renumbers_mergeImports (t : Text) :
    (ImportTable.ofText t).merge.Renumbers t (mergeImports t) := by
  have hfor := isFor_merge t
  have hlength := LineEdits.length_lines_apply hfor.first hfor.byLine hfor.nodup
    fun d hd => le_of_mem_deletions hd
  have hcount : (ImportTable.ofText t).merge.edits.deletions.length =
      (ImportTable.ofText t).merge.deletionCount := List.length_map ..
  rw [hcount] at hlength
  rw [mergeImports, MergePlan.apply_eq]
  constructor
  case length => exact hlength
  case lt => exact fun m n hm hn hlt => hfor.lineAfter_lt hm hn hlt
  case onto =>
    intro n
    rw [hfor.exists_lineAfter_iff]
    omega
  case kept =>
    intro k l hl hk hnone
    have hline := line?_of_not_mem_replacements (l := l) hk hnone
    exact hfor.mem_numberedLines_apply hl (LineEdits.markedLine?_of_line?_eq hline)
  case replaced =>
    intro k l new hl hnew
    have hline := markedLine?_merge_of_replaced hl hnew
    exact ⟨LineEdits.not_mem_of_markedLine?_eq_some hline, hfor.mem_numberedLines_apply hl hline⟩
  case deleted =>
    intro k hk
    obtain ⟨g, hg, hmerged, s, hs, rfl⟩ := ImportTable.mem_deletions_iff.1 hk
    obtain ⟨hmem, hspecifier, hkey⟩ :=
      ImportTable.mem_of_mem_statements hg (ImportTable.mem_statements_of_later hs)
    have hclass : (ImportTable.ofText t).ofClass s.specifier s.mergeKey = g.first :: g.later := by
      rw [hspecifier, hkey]
      exact ImportTable.mem_duplicateGroups_iff.1 hg
    have hfirst := ImportTable.first_not_mem_deletions (isSorted_ofText t) hg
    have hredirect : (s.line, g.first.line) ∈ (ImportTable.ofText t).merge.redirects :=
      ImportTable.mem_redirects_iff.2 ⟨g, hg, hmerged, rfl, s, hs, rfl⟩
    exact ⟨s, hmem, rfl, g.first, g.later, hclass, hs, hfirst,
      (hfor.lineAfter_eq_iff hfirst).2 (Or.inr hredirect)⟩

end ImportRepair
