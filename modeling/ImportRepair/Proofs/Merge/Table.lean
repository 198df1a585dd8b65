import ImportRepair.Proofs.Merge.Groups
import ImportRepair.Proofs.Merge.Union

/-!
# The table of a merged text

Merging a text merges its table: the table that is read from the merged text
holds the statements of the table before, moved up, with one statement in the
place of the first for each group that was merged.
-/

namespace ImportRepair

open Text

variable {t : Text} {n m : Int}

/-! ### The template of a group -/

/-- A text without white space at its end is trimmed by trimming it at its front. -/
theorem trim_eq_trimLeft {u : Text} (h : ∀ c ∈ u.getLast?, isBlank c = false) :
    u.trim = u.trimLeft := by
  obtain ⟨w, -, hsplit⟩ := exists_trimLeft u
  refine dropEndWhile_of_getLast? fun c hc => h c ?_
  rw [hsplit, List.getLast?_append, Option.mem_def.1 hc]
  rfl

theorem IsComment.trim_eq {u : Text} (h : IsComment u) : u.trim = u.trimLeft :=
  trim_eq_trimLeft h.last

theorem IsComment.trimLeft_ne_nil {u : Text} (h : IsComment u) (hne : u ≠ []) :
    u.trimLeft ≠ [] := by
  rcases h with rfl | ⟨g, r, hg, rfl, -, -⟩
  · exact absurd rfl hne
  · have hread : Text.trimLeft (g ++ '/' :: '/' :: r) = '/' :: '/' :: r :=
      trimLeft_run hg (stops_cons.2 (by decide))
    rw [hread]
    simp

/-- The distinct comments of some statements. -/
def commentsOf (ss : List Statement) : List Text :=
  ((ss.filter fun s => !s.trailing.isEmpty).map fun s => trim s.trailing).eraseDups

theorem mem_commentsOf_iff {ss : List Statement} {c : Text} :
    c ∈ commentsOf ss ↔ ∃ s ∈ ss, s.trailing ≠ [] ∧ s.trailing.trim = c := by
  simp [commentsOf, List.mem_eraseDups, and_assoc]

theorem nodup_commentsOf (ss : List Statement) : (commentsOf ss).Nodup := nodup_eraseDups _

/-- There is one comment at most if any two are the same. -/
theorem length_commentsOf_le_one_iff {ss : List Statement} : (commentsOf ss).length ≤ 1 ↔
    ∀ c ∈ commentsOf ss, ∀ d ∈ commentsOf ss, c = d := by
  have hnodup := nodup_commentsOf ss
  match hc : commentsOf ss with
  | [] => simp
  | [c] => simp
  | c :: d :: l =>
    rw [hc] at hnodup
    constructor
    · simp
    · intro h
      have hcd : c = d := h c (by simp) d (by simp)
      simp [hcd] at hnodup

namespace DuplicateGroup

variable {g : DuplicateGroup}

theorem comments_eq (g : DuplicateGroup) : g.comments = commentsOf g.statements := rfl

/-- The template is the first statement with a comment of the group, if it has one. -/
theorem template_cases (g : DuplicateGroup) : ∃ s ∈ g.statements,
    g.template = { g.first with trailing := s.trailing } ∧
      (s.trailing = [] → ∀ r ∈ g.statements, r.trailing = []) := by
  have hfirst : g.first ∈ g.statements := List.mem_cons_self
  unfold template
  split
  · next hempty =>
    split
    · next s hs =>
      refine ⟨s, List.mem_of_find?_eq_some hs, rfl, fun hnil => ?_⟩
      simpa [hnil] using List.find?_some hs
    · next hnone =>
      refine ⟨g.first, hfirst, rfl, fun _ r hr => ?_⟩
      simpa using List.find?_eq_none.1 hnone r hr
  · next hne => exact ⟨g.first, hfirst, rfl, fun hnil => absurd hnil (by simpa using hne)⟩

theorem template_eq (g : DuplicateGroup) :
    g.template = { g.first with trailing := g.template.trailing } := by
  obtain ⟨s, -, htemplate, -⟩ := g.template_cases
  rw [htemplate]

@[simp] theorem template_form (g : DuplicateGroup) : g.template.form = g.first.form := by
  rw [template_eq]

/-- The comment of the template is the one comment of the group. -/
theorem trim_template_trailing (h : g.comments.length ≤ 1) :
    g.template.trailing.trim = g.comments.headD [] := by
  obtain ⟨s, hs, htemplate, hnone⟩ := g.template_cases
  rw [htemplate]
  by_cases hne : s.trailing = []
  · have hnil : g.comments = [] := by
      rw [comments_eq, List.eq_nil_iff_forall_not_mem]
      intro c hc
      obtain ⟨r, hr, hne', -⟩ := mem_commentsOf_iff.1 hc
      exact hne' (hnone hne r hr)
    rw [hnil, hne]
    rfl
  · have hmem : s.trailing.trim ∈ g.comments := mem_commentsOf_iff.2 ⟨s, hs, hne, rfl⟩
    obtain ⟨c, cs, hc⟩ := List.exists_cons_of_ne_nil (List.ne_nil_of_mem hmem)
    rw [comments_eq] at h
    have hsame := length_commentsOf_le_one_iff.1 h _ hmem c (by rw [← comments_eq, hc]; simp)
    rw [hc]
    exact hsame

/-- The layout of a group of recognised statements can be written. -/
theorem isWritable_template (h : ∀ s ∈ g.statements, s.IsWritable) : g.template.IsWritable := by
  obtain ⟨s, hs, htemplate, -⟩ := g.template_cases
  have hfirst := h g.first List.mem_cons_self
  rw [htemplate]
  exact ⟨hfirst.specifier_ne, hfirst.specifier_chars, hfirst.indent, (h s hs).comment⟩

theorem layoutIn_template {p : Char → Bool} (h : ∀ s ∈ g.statements, s.LayoutIn p) :
    g.template.LayoutIn p := by
  obtain ⟨s, hs, htemplate, -⟩ := g.template_cases
  have hfirst := h g.first List.mem_cons_self
  rw [htemplate]
  exact ⟨hfirst.indent, hfirst.specifier, (h s hs).trailing⟩

theorem isOnOneLine_template (h : ∀ s ∈ g.statements, s.IsOnOneLine) : g.template.IsOnOneLine :=
  Statement.isOnOneLine_iff.2
    (g.layoutIn_template fun s hs => Statement.isOnOneLine_iff.1 (h s hs))

/-- **When a group is merged**, and what is written for it. -/
theorem mergedLine?_eq_some_iff {new : Text} : g.mergedLine? = some new ↔
    ∃ u, union? g.specifier g.first g.later = some u ∧ g.comments.length ≤ 1 ∧
      new = g.template.render u.bindings := by
  unfold mergedLine? verdict
  cases hu : union? g.specifier g.first g.later with
  | none => simp
  | some u =>
    simp only [Option.some.injEq, exists_eq_left']
    by_cases hc : 1 < g.comments.length
    · have hnle : ¬ g.comments.length ≤ 1 := by omega
      simp [hc, hnle]
    · have hle : g.comments.length ≤ 1 := by omega
      simp [hc, hle, eq_comm]

end DuplicateGroup

/-! ### Groups of a text -/

section

variable {g : DuplicateGroup}

theorem isRead_of_mem_statements (hg : g ∈ (ImportTable.ofText t).duplicateGroups) {s : Statement}
    (hs : s ∈ g.statements) : s.IsRead ∧ s.IsOnOneLine :=
  have hmem := (ImportTable.mem_of_mem_statements hg hs).1
  ⟨isRead_of_mem_ofText hmem, (isOnOneLine_of_mem_ofText hmem).2⟩

theorem isClass_statements (hg : g ∈ (ImportTable.ofText t).duplicateGroups) :
    IsClass g.first (g.first :: g.later) := by
  intro s hs
  have hkey := (ImportTable.mem_of_mem_statements hg hs).2.2
  have hkey' := (ImportTable.mem_of_mem_statements hg (ImportTable.first_mem_statements g)).2.2
  exact ⟨hkey.trans hkey'.symm, (isRead_of_mem_statements hg hs).1.admits⟩

theorem isWritable_template_of_mem (hg : g ∈ (ImportTable.ofText t).duplicateGroups) :
    g.template.IsWritable ∧ g.template.IsOnOneLine :=
  ⟨g.isWritable_template fun _ hs => (isRead_of_mem_statements hg hs).1.writable,
    g.isOnOneLine_template fun _ hs => (isRead_of_mem_statements hg hs).2⟩

/-- What is written for a group is one line without mark and carriage return. -/
theorem isBare_mergedLine {new : Text} (hg : g ∈ (ImportTable.ofText t).duplicateGroups)
    (hnew : g.mergedLine? = some new) : IsBare new ∧ '\n' ∉ new := by
  obtain ⟨u, hu, -, rfl⟩ := DuplicateGroup.mergedLine?_eq_some_iff.1 hnew
  obtain ⟨hwritable, hline⟩ := isWritable_template_of_mem hg
  have hadmits : g.template.form.Admits u.bindings := by
    rw [DuplicateGroup.template_form]
    exact admits_union (isClass_statements hg) hu
  exact ⟨Statement.isBare_render hwritable _, Statement.not_mem_render hline hadmits⟩

end

theorem isByLine_merge (t : Text) : (ImportTable.ofText t).merge.edits.IsByLine := by
  rintro ⟨n, new⟩ hp
  obtain ⟨g, hg, -, -, hline⟩ := ImportTable.mem_replacements_iff.1 hp
  exact (isBare_mergedLine hg hline).2

/-- A merge never deletes the first line. -/
theorem two_le_of_mem_deletions (h : n ∈ (ImportTable.ofText t).merge.edits.deletions) : 2 ≤ n := by
  obtain ⟨g, hg, -, s, hs, rfl⟩ := ImportTable.mem_deletions_iff.1 h
  have hlt := ImportTable.first_line_lt (isSorted_ofText t) hg hs
  have hfirst := one_le_line_of_mem_ofText
    (ImportTable.mem_of_mem_statements hg (ImportTable.first_mem_statements g)).1
  omega

/-! ### The merged text -/

/-- A plan without effect leaves no edits. -/
theorem MergePlan.apply_eq (p : MergePlan) (t : Text) : p.apply t = p.edits.apply t := by
  unfold MergePlan.apply
  split
  · rfl
  · next h =>
    have hedits : p.edits = ⟨[], []⟩ := by
      simp only [MergePlan.changes, Bool.or_eq_true, Bool.not_eq_true', List.isEmpty_eq_false_iff,
        not_or, not_not] at h
      simp [MergePlan.edits, MergePlan.deletions, h.1, h.2]
    rw [hedits, LineEdits.apply_nil]

/-- The line that a line ends up on, before deleted lines are taken out. -/
def MergePlan.target (p : MergePlan) (n : Int) : Int := (p.redirects.lookup n).getD n

theorem MergePlan.lineAfter_eq (p : MergePlan) (n : Int) :
    p.lineAfter n = p.edits.newNumber (p.target n) := rfl

theorem MergePlan.target_of_not_mem {p : MergePlan} (h : n ∉ p.deletions) : p.target n = n := by
  have hnone : p.redirects.lookup n = none := by
    refine lookup_eq_none_of_not_mem fun m hm => h ?_
    exact List.mem_map.2 ⟨(n, m), hm, rfl⟩
  rw [MergePlan.target, hnone, Option.getD_none]

/-- A recognised line is recognised on other lines, as long as none of the two is the first. -/
theorem Statement.ofLine?_move {l : Text} (h : n = 1 ↔ m = 1) :
    Statement.ofLine? l m = (Statement.ofLine? l n).map fun s => { s with line := m } := by
  have hbare : bareLine l m = bareLine l n := by simp only [bareLine, h]
  rw [Statement.ofLine?_eq, Statement.ofLine?_eq, hbare, Statement.ofBare?_move _ n]

namespace ImportTable

/-- The statement on the line that it has after the merge of its table. -/
def moved (table : ImportTable) (s : Statement) : Statement :=
  { s with line := table.merge.lineAfter s.line }

/-- What is left of a statement after the merge of its table.  The first statement of a merged
    group becomes what is read from the line that is written for the group. -/
def afterMerge? (table : ImportTable) (s : Statement) : Option Statement :=
  match table.groupOf? s with
  | none => some (table.moved s)
  | some g =>
    match g.mergedLine? with
    | none => some (table.moved s)
    | some new =>
      if s = g.first then Statement.ofBare? new (table.merge.lineAfter s.line) else none

variable {table : ImportTable} {s : Statement} {g : DuplicateGroup} {new : Text}

/-- A statement stays as it is, or it is the first or a later statement of one merged group. -/
theorem merged_cases (table : ImportTable) (s : Statement) :
    (∀ g ∈ table.duplicateGroups, g.isMerged = true → s ∉ g.statements) ∨
    ∃ g ∈ table.duplicateGroups, ∃ new, g.mergedLine? = some new ∧ (s = g.first ∨ s ∈ g.later) := by
  by_cases h : ∃ g ∈ table.duplicateGroups, g.isMerged = true ∧ s ∈ g.statements
  · obtain ⟨g, hg, hmerged, hs⟩ := h
    obtain ⟨new, hnew⟩ := DuplicateGroup.isMerged_iff.1 hmerged
    exact Or.inr ⟨g, hg, new, hnew, List.mem_cons.1 hs⟩
  · exact Or.inl fun g hg hmerged hs => h ⟨g, hg, hmerged, hs⟩

theorem afterMerge?_of_not_merged (hs : s ∈ table)
    (h : ∀ g ∈ table.duplicateGroups, g.isMerged = true → s ∉ g.statements) :
    table.afterMerge? s = some (table.moved s) := by
  unfold afterMerge?
  cases hgroup : table.groupOf? s with
  | none => rfl
  | some g =>
    obtain ⟨hg, hsg⟩ := (groupOf?_eq_some_iff hs).1 hgroup
    cases hnew : g.mergedLine? with
    | none => simp only [hnew]
    | some new => exact absurd hsg (h g hg (DuplicateGroup.isMerged_iff.2 ⟨new, hnew⟩))

theorem afterMerge?_first (hg : g ∈ table.duplicateGroups) (hnew : g.mergedLine? = some new) :
    table.afterMerge? g.first = Statement.ofBare? new (table.merge.lineAfter g.first.line) := by
  have hfirst := first_mem_statements g
  have hgroup := (groupOf?_eq_some_iff (mem_of_mem_statements hg hfirst).1).2 ⟨hg, hfirst⟩
  simp only [afterMerge?, hgroup, hnew, if_true]

theorem afterMerge?_later (hsorted : table.IsSorted) (hg : g ∈ table.duplicateGroups)
    (hnew : g.mergedLine? = some new) (hs : s ∈ g.later) : table.afterMerge? s = none := by
  have hsg := mem_statements_of_later hs
  have hgroup := (groupOf?_eq_some_iff (mem_of_mem_statements hg hsg).1).2 ⟨hg, hsg⟩
  have hne : s ≠ g.first := by
    rintro rfl
    exact first_not_mem_later hsorted hg hg hs
  simp only [afterMerge?, hgroup, hnew, if_neg hne]

/-- A statement that is not deleted moves up with its line. -/
theorem lineAfter_of_not_later (hsorted : table.IsSorted) (hs : s ∈ table)
    (h : ∀ g ∈ table.duplicateGroups, g.isMerged = true → s ∉ g.later) :
    table.merge.lineAfter s.line = table.merge.edits.newNumber s.line := by
  rw [MergePlan.lineAfter_eq, MergePlan.target_of_not_mem (not_mem_deletions hsorted hs h)]

end ImportTable

/-- A line that stays is read as before. -/
theorem ofLine?_newNumber_merge {n : Int} {l : Text} (hn : 1 ≤ n) :
    Statement.ofLine? l ((ImportTable.ofText t).merge.edits.newNumber n) =
      (Statement.ofLine? l n).map fun s =>
        { s with line := (ImportTable.ofText t).merge.edits.newNumber n } := by
  have hnodup := ImportTable.nodup_deletions (isSorted_ofText t)
  exact Statement.ofLine?_move
    (LineEdits.newNumber_eq_one_iff hnodup (fun d hd => two_le_of_mem_deletions hd) hn).symm

/-- What is read after the merge from the line of a statement. -/
theorem bind_line?_merge {s : Statement} {l : Text} (hmem : s ∈ ImportTable.ofText t)
    (hn : 1 ≤ s.line) (hs : Statement.ofLine? l s.line = some s) :
    (((ImportTable.ofText t).merge.edits.line? s.line l).bind fun u =>
        Statement.ofLine? u ((ImportTable.ofText t).merge.edits.newNumber s.line)) =
      (ImportTable.ofText t).afterMerge? s := by
  have hsorted := isSorted_ofText t
  have hmove := ofLine?_newNumber_merge (t := t) (l := l) hn
  rcases ImportTable.merged_cases (ImportTable.ofText t) s with
    hnot | ⟨g, hg, new, hnew, rfl | hlater⟩
  · have hkept : (ImportTable.ofText t).merge.edits.line? s.line l = some l := by
      refine ImportTable.line?_merge_of_not_merged fun r hr hline => ?_
      rw [eq_of_line_eq hr hmem hline]
      exact hnot
    have hafter := ImportTable.lineAfter_of_not_later hsorted hmem fun g hg hmerged hlater =>
      hnot g hg hmerged (ImportTable.mem_statements_of_later hlater)
    rw [ImportTable.afterMerge?_of_not_merged hmem hnot, hkept, Option.bind_some, hmove, hs,
      Option.map_some, ImportTable.moved, hafter]
  · have hafter := ImportTable.lineAfter_of_not_later hsorted hmem fun h hh _ =>
      ImportTable.first_not_mem_later hsorted hg hh
    rw [ImportTable.afterMerge?_first hg hnew, ImportTable.line?_merge_first hsorted hg hnew,
      Option.bind_some, hafter]
    split
    · next hraw =>
      have hread : Statement.ofBare? new g.first.line = some g.first := by
        rw [hraw, Statement.ofLine?_raw hs]
        exact hs
      rw [hmove, hs, Statement.ofBare?_move _ g.first.line, hread]
    · rw [Statement.ofLine?_eq, bareLine_keepReturn (isBare_mergedLine hg hnew).1]
  · have hmerged : g.isMerged = true := DuplicateGroup.isMerged_iff.2 ⟨new, hnew⟩
    rw [ImportTable.afterMerge?_later hsorted hg hnew hlater,
      ImportTable.line?_merge_later hg hmerged hlater, Option.bind_none]

/-- **The table of a merged text.** -/
theorem ofText_mergeImports (t : Text) : ImportTable.ofText (mergeImports t) =
    (ImportTable.ofText t).filterMap (ImportTable.ofText t).afterMerge? := by
  have hdeletions : ∀ d ∈ (ImportTable.ofText t).merge.edits.deletions, 1 ≤ d := by
    intro d hd
    have hle := two_le_of_mem_deletions hd
    omega
  have htable : (ImportTable.ofText t).filterMap (ImportTable.ofText t).afterMerge? =
      (numberedLines t).filterMap fun p =>
        (Statement.ofLine? p.2 p.1).bind (ImportTable.ofText t).afterMerge? := by
    conv_lhs => rw [ofText_eq t, List.filterMap_filterMap, ← ofText_eq t]
  rw [mergeImports, MergePlan.apply_eq, htable, ofText_apply (isByLine_merge t)
    (ImportTable.nodup_deletions (isSorted_ofText t)) hdeletions]
  refine List.filterMap_congr fun p hp => ?_
  obtain ⟨n, l⟩ := p
  have hn : 1 ≤ n := one_le_of_mem_numberedLines hp
  have hon := onLine?_of_mem_numberedLines hp
  cases hs : Statement.ofLine? l n with
  | none =>
    have hkept : (ImportTable.ofText t).merge.edits.line? n l = some l := by
      refine ImportTable.line?_merge_of_not_merged fun s hmem hline => ?_
      have honLine := onLine?_eq_some_iff.2 ⟨hmem, hline⟩
      rw [hon, hs] at honLine
      cases honLine
    simp only [hkept, Option.bind_some, ofLine?_newNumber_merge hn, hs, Option.map_none,
      Option.bind_none]
  | some s =>
    obtain ⟨hmem, rfl⟩ := onLine?_eq_some_iff.1 (hon.trans hs)
    rw [Option.bind_some]
    exact bind_line?_merge hmem hn hs

/-- What is left of a class that no statement of another class joins. -/
theorem ofClass_mergeImports_eq_filter {specifier : Text} {key : MergeKey}
    (h : ∀ s ∈ ImportTable.ofText t, ∀ r, (ImportTable.ofText t).afterMerge? s = some r →
      r.specifier = specifier → r.mergeKey = key → s.specifier = specifier ∧ s.mergeKey = key) :
    (ImportTable.ofText (mergeImports t)).ofClass specifier key =
      (((ImportTable.ofText t).ofClass specifier key).filterMap
        (ImportTable.ofText t).afterMerge?).filter fun r =>
          r.specifier == specifier && r.mergeKey == key := by
  rw [ofText_mergeImports]
  simp only [ImportTable.ofClass, List.filter_filterMap, List.filterMap_filter]
  refine List.filterMap_congr fun s hs => ?_
  cases hr : (ImportTable.ofText t).afterMerge? s with
  | none => simp
  | some r =>
    by_cases hrclass : r.specifier = specifier ∧ r.mergeKey = key
    · have hsclass := h s hs r hr hrclass.1 hrclass.2
      simp [hsclass]
    · have hfalse : (r.specifier == specifier && r.mergeKey == key) = false :=
        by simpa using hrclass
      by_cases hsclass : s.specifier = specifier ∧ s.mergeKey = key
      · simp [Option.filter, hsclass, hfalse]
      · simpa [hsclass] using hrclass

end ImportRepair
