import ImportRepair.Proofs.Merge.Table

/-!
# Merging a text refines merging its table

Where every statement binds a name and no default name is `type`, the merged
text is read as the merge of the table: class by class, the statements stay
where their class is not merged, and are one statement with the union of their
bindings where it is.
-/

namespace ImportRepair

open Text

variable {t : Text} {g : DuplicateGroup} {u : Union} {new : Text}

/-! ### The statement that takes over a group -/

/-- The statement that is written for a group, on a line. -/
def DuplicateGroup.takeover (g : DuplicateGroup) (u : Union) (n : Int) : Statement :=
  { g.first with
    bindings := u.bindings
    line := n
    raw := g.template.render u.bindings
    trailing := g.template.readTrailing }

theorem DuplicateGroup.rewritten_template (g : DuplicateGroup) (u : Union) (n : Int) :
    g.template.rewritten g.first.form u.bindings u.bindings n = g.takeover u n := by
  unfold Statement.rewritten DuplicateGroup.takeover
  have htemplate := g.template_eq
  generalize g.template.render u.bindings = raw
  generalize g.template.readTrailing = trailing
  rw [htemplate]

/-- The first statement of a merged group takes over the bindings of the group, unless its line is
    one of those that are not read back. -/
theorem afterMerge?_takeover (hg : g ∈ (ImportTable.ofText t).duplicateGroups)
    (hu : union? g.specifier g.first g.later = some u) (hc : g.comments.length ≤ 1)
    (hne : u.bindings = [] → g.first.form.style ≠ .es)
    (htype : g.first.form = .es false → u.bindings ≠ [defaultOf false "type".toList]) :
    (ImportTable.ofText t).afterMerge? g.first =
      some (g.takeover u ((ImportTable.ofText t).merge.lineAfter g.first.line)) := by
  have hnew : g.mergedLine? = some (g.template.render u.bindings) :=
    DuplicateGroup.mergedLine?_eq_some_iff.2 ⟨u, hu, hc, rfl⟩
  have hadmits := admits_union (isClass_statements hg) hu
  have hform := g.template_form
  rw [ImportTable.afterMerge?_first hg hnew,
    Statement.ofBare?_render (isWritable_template_of_mem hg).1
    (hform ▸ hadmits) (hform ▸ hne) (hform ▸ htype), hform, g.rewritten_template]

/-- A comment is read back up to the white space in front of it. -/
theorem Statement.trimLeft_readTrailing (s : Statement) :
    s.readTrailing.trimLeft = s.trailing.trimLeft := by
  unfold readTrailing
  split
  · rfl
  · exact dropWhile_of_stops stops_trimLeft

/-! ### Tables without exceptions -/

/-- Every statement binds a name, and no default name is `type`. -/
structure IsPlainTable (table : ImportTable) : Prop where
  binds : ∀ s ∈ table, s.bindings ≠ []
  noType : ∀ s ∈ table, ∀ b ∈ s.bindings, b.kind = .defaultName → b.localName ≠ "type".toList

theorem IsPlainTable.union (h : IsPlainTable (ImportTable.ofText t))
    (hg : g ∈ (ImportTable.ofText t).duplicateGroups)
    (hu : union? g.specifier g.first g.later = some u) :
    u.bindings ≠ [] ∧
      ∀ b ∈ u.bindings, b.kind = .defaultName → b.localName ≠ "type".toList := by
  have hclass := isClass_statements hg
  have hmem : ∀ s ∈ g.first :: g.later, s ∈ ImportTable.ofText t :=
    fun s hs => (ImportTable.mem_of_mem_statements hg hs).1
  constructor
  · intro hnil
    exact h.binds g.first (hmem _ (by simp))
      ((union_bindings_eq_nil_iff hclass hu).1 hnil _ (by simp))
  · intro b hb hkind hname
    obtain ⟨s, hs, b', hb', hkind', hname'⟩ := mem_defaultNames_of_union hclass hu hb hkind
    exact h.noType s (hmem s hs) b' hb' hkind' (hname'.trans hname)

theorem IsPlainTable.afterMerge?_first (h : IsPlainTable (ImportTable.ofText t))
    (hg : g ∈ (ImportTable.ofText t).duplicateGroups)
    (hu : union? g.specifier g.first g.later = some u) (hc : g.comments.length ≤ 1) :
    (ImportTable.ofText t).afterMerge? g.first =
      some (g.takeover u ((ImportTable.ofText t).merge.lineAfter g.first.line)) := by
  obtain ⟨hne, hname⟩ := h.union hg hu
  refine afterMerge?_takeover hg hu hc (fun hnil => absurd hnil hne) fun _ htype => ?_
  exact hname (defaultOf false "type".toList) (by simp [htype]) rfl rfl

/-- What is left of a statement has its class, and the line where the statement ends up. -/
theorem IsPlainTable.class_of_afterMerge? (h : IsPlainTable (ImportTable.ofText t))
    {s r : Statement}
    (hs : s ∈ ImportTable.ofText t) (hr : (ImportTable.ofText t).afterMerge? s = some r) :
    r.specifier = s.specifier ∧ r.mergeKey = s.mergeKey ∧
      r.line = (ImportTable.ofText t).merge.lineAfter s.line := by
  rcases ImportTable.merged_cases (ImportTable.ofText t) s with
    hnot | ⟨g, hg, new, hnew, rfl | hlater⟩
  · rw [ImportTable.afterMerge?_of_not_merged hs hnot] at hr
    cases hr
    exact ⟨rfl, rfl, rfl⟩
  · obtain ⟨u, hu, hc, rfl⟩ := DuplicateGroup.mergedLine?_eq_some_iff.1 hnew
    rw [h.afterMerge?_first hg hu hc] at hr
    cases hr
    exact ⟨rfl, rfl, rfl⟩
  · rw [ImportTable.afterMerge?_later (isSorted_ofText t) hg hnew hlater] at hr
    cases hr

/-- A merge makes no exceptions. -/
theorem IsPlainTable.merged (h : IsPlainTable (ImportTable.ofText t)) :
    IsPlainTable (ImportTable.ofText (mergeImports t)) := by
  have hplain : ∀ r ∈ ImportTable.ofText (mergeImports t), r.bindings ≠ [] ∧
      ∀ b ∈ r.bindings, b.kind = .defaultName → b.localName ≠ "type".toList := by
    intro r hr
    rw [ofText_mergeImports, List.mem_filterMap] at hr
    obtain ⟨s, hs, hr⟩ := hr
    rcases ImportTable.merged_cases (ImportTable.ofText t) s with
      hnot | ⟨g, hg, new, hnew, rfl | hlater⟩
    · rw [ImportTable.afterMerge?_of_not_merged hs hnot] at hr
      cases hr
      exact ⟨h.binds s hs, h.noType s hs⟩
    · obtain ⟨u, hu, hc, rfl⟩ := DuplicateGroup.mergedLine?_eq_some_iff.1 hnew
      rw [h.afterMerge?_first hg hu hc] at hr
      cases hr
      exact h.union hg hu
    · rw [ImportTable.afterMerge?_later (isSorted_ofText t) hg hnew hlater] at hr
      cases hr
  exact ⟨fun r hr => (hplain r hr).1, fun r hr => (hplain r hr).2⟩

theorem IsPlainTable.ofClass_mergeImports (h : IsPlainTable (ImportTable.ofText t))
    (specifier : Text) (key : MergeKey) :
    (ImportTable.ofText (mergeImports t)).ofClass specifier key =
      ((ImportTable.ofText t).ofClass specifier key).filterMap
        (ImportTable.ofText t).afterMerge? := by
  rw [ofClass_mergeImports_eq_filter fun s hs r hr hspecifier hkey => ?_, List.filter_eq_self]
  · intro r hr
    obtain ⟨s, hs, hr⟩ := List.mem_filterMap.1 hr
    obtain ⟨hs, hspecifier, hkey⟩ := ImportTable.mem_ofClass_iff.1 hs
    obtain ⟨hspecifier', hkey', -⟩ := h.class_of_afterMerge? hs hr
    simp [hspecifier', hkey', hspecifier, hkey]
  · obtain ⟨hspecifier', hkey', -⟩ := h.class_of_afterMerge? hs hr
    exact ⟨hspecifier'.symm.trans hspecifier, hkey'.symm.trans hkey⟩

/-! ### Classes -/

/-- What a merge makes of the statements of one class. -/
inductive ClassMerge (plan : MergePlan) (specifier : Text) : List Statement → List Statement → Prop
  /-- The class is no group. -/
  | few {ss : List Statement} (h : ss.length ≤ 1) :
      ClassMerge plan specifier ss (ss.map fun s => { s with line := plan.lineAfter s.line })
  /-- No single statement holds the union. -/
  | inexpressible {first : Statement} {others : List Statement}
      (h : union? specifier first others = none) :
      ClassMerge plan specifier (first :: others)
        ((first :: others).map fun s => { s with line := plan.lineAfter s.line })
  /-- The statements carry different comments. -/
  | commented {ss : List Statement} (h : 1 < (commentsOf ss).length) :
      ClassMerge plan specifier ss (ss.map fun s => { s with line := plan.lineAfter s.line })
  /-- The first statement takes over all bindings, in its own layout and with the one comment. -/
  | merged {first second : Statement} {rest : List Statement} {u : Union} {raw trailing : Text}
      (hu : union? specifier first (second :: rest) = some u)
      (hc : (commentsOf (first :: second :: rest)).length ≤ 1)
      (htrailing : trailing.trimLeft = (commentsOf (first :: second :: rest)).headD []) :
      ClassMerge plan specifier (first :: second :: rest)
        [{ first with bindings := u.bindings, line := plan.lineAfter first.line, raw, trailing }]

/-- Statements stay where no group that is merged holds one of them. -/
theorem filterMap_afterMerge?_eq_map {table : ImportTable} {ss : List Statement}
    (hmem : ∀ s ∈ ss, s ∈ table)
    (h : ∀ s ∈ ss, ∀ g ∈ table.duplicateGroups, s ∈ g.statements → g.isMerged = false) :
    ss.filterMap table.afterMerge? = ss.map table.moved := by
  rw [← List.filterMap_eq_map]
  refine List.filterMap_congr fun s hs => ?_
  refine ImportTable.afterMerge?_of_not_merged (hmem s hs) fun g hg hmerged hsg => ?_
  rw [h s hs g hg hsg] at hmerged
  cases hmerged

/-- The statements of a group that is not merged stay. -/
theorem filterMap_afterMerge?_statements {table : ImportTable} (hg : g ∈ table.duplicateGroups)
    (hnone : g.mergedLine? = none) :
    g.statements.filterMap table.afterMerge? = g.statements.map table.moved := by
  refine filterMap_afterMerge?_eq_map (fun s hs => (ImportTable.mem_of_mem_statements hg hs).1) ?_
  intro s hs g' hg' hs'
  obtain rfl := ImportTable.eq_of_mem_statements hg hg' hs hs'
  rw [Bool.eq_false_iff]
  intro hmerged
  obtain ⟨new, hnew⟩ := DuplicateGroup.isMerged_iff.1 hmerged
  rw [hnone] at hnew
  cases hnew

/-- Nothing is left of the later statements of a group that is merged. -/
theorem filterMap_afterMerge?_later (hg : g ∈ (ImportTable.ofText t).duplicateGroups)
    (hnew : g.mergedLine? = some new) :
    g.later.filterMap (ImportTable.ofText t).afterMerge? = [] := by
  rw [List.filterMap_eq_nil_iff]
  intro s hs
  exact ImportTable.afterMerge?_later (isSorted_ofText t) hg hnew hs

theorem IsPlainTable.classMerge_statements (h : IsPlainTable (ImportTable.ofText t))
    (hg : g ∈ (ImportTable.ofText t).duplicateGroups) :
    ClassMerge (ImportTable.ofText t).merge g.specifier g.statements
      (g.statements.filterMap (ImportTable.ofText t).afterMerge?) := by
  cases hu : union? g.specifier g.first g.later with
  | none =>
    have hnone : g.mergedLine? = none := by
      rw [Option.eq_none_iff_forall_ne_some]
      intro new hnew
      obtain ⟨u, hu', -⟩ := DuplicateGroup.mergedLine?_eq_some_iff.1 hnew
      rw [hu] at hu'
      cases hu'
    rw [filterMap_afterMerge?_statements hg hnone]
    exact .inexpressible hu
  | some u =>
    by_cases hc : g.comments.length ≤ 1
    · have hnew := DuplicateGroup.mergedLine?_eq_some_iff.2 ⟨u, hu, hc, rfl⟩
      have htrailing : g.template.readTrailing.trimLeft = g.comments.headD [] := by
        have hcomment := (isWritable_template_of_mem hg).1.comment
        rw [Statement.trimLeft_readTrailing, ← hcomment.trim_eq,
          DuplicateGroup.trim_template_trailing hc]
      have hstatements : g.statements = g.first :: g.later := rfl
      rw [hstatements, List.filterMap_cons, filterMap_afterMerge?_later hg hnew,
        h.afterMerge?_first hg hu hc]
      exact .merged hu hc htrailing
    · have hnone : g.mergedLine? = none := by
        rw [Option.eq_none_iff_forall_ne_some]
        intro new hnew
        obtain ⟨-, -, hc', -⟩ := DuplicateGroup.mergedLine?_eq_some_iff.1 hnew
        exact hc hc'
      rw [filterMap_afterMerge?_statements hg hnone]
      exact .commented (Nat.lt_of_not_le hc)

theorem classMerge_of_isPlainTable (h : IsPlainTable (ImportTable.ofText t)) (specifier : Text)
    (key : MergeKey) :
    ClassMerge (ImportTable.ofText t).merge specifier
      ((ImportTable.ofText t).ofClass specifier key)
      ((ImportTable.ofText (mergeImports t)).ofClass specifier key) := by
  rw [h.ofClass_mergeImports]
  by_cases hgroup : ∃ g ∈ (ImportTable.ofText t).duplicateGroups,
      g.specifier = specifier ∧ g.key = key
  · obtain ⟨g, hg, rfl, rfl⟩ := hgroup
    rw [ImportTable.mem_duplicateGroups_iff.1 hg]
    exact h.classMerge_statements hg
  · have hfew : ((ImportTable.ofText t).ofClass specifier key).length ≤ 1 := by
      rcases hss : (ImportTable.ofText t).ofClass specifier key with _ | ⟨first, _ | ⟨second, rest⟩⟩
      · simp
      · simp
      · exact absurd ⟨⟨specifier, key, first, second, rest⟩,
          ImportTable.mem_duplicateGroups_iff.2 hss, rfl, rfl⟩ hgroup
    rw [filterMap_afterMerge?_eq_map fun s hs => (ImportTable.mem_ofClass_iff.1 hs).1]
    · exact .few hfew
    · intro s hs g hg hsg
      obtain ⟨hspecifier, hkey, -⟩ := ImportTable.statements_of_mem_ofClass hg hs hsg
      exact absurd ⟨g, hg, hspecifier, hkey⟩ hgroup

/-- Nothing is left of a statement where its line is deleted. -/
theorem IsPlainTable.afterMerge?_eq_none_iff (h : IsPlainTable (ImportTable.ofText t))
    {s : Statement} (hs : s ∈ ImportTable.ofText t) :
    (ImportTable.ofText t).afterMerge? s = none ↔
      s.line ∈ (ImportTable.ofText t).merge.deletions := by
  have hsorted := isSorted_ofText t
  rcases ImportTable.merged_cases (ImportTable.ofText t) s with
    hnot | ⟨g, hg, new, hnew, rfl | hlater⟩
  · have hkept := ImportTable.not_mem_deletions hsorted hs fun g hg hmerged hlater =>
      hnot g hg hmerged (ImportTable.mem_statements_of_later hlater)
    simp [ImportTable.afterMerge?_of_not_merged hs hnot, hkept]
  · have hkept := ImportTable.first_not_mem_deletions hsorted hg
    obtain ⟨u, hu, hc, rfl⟩ := DuplicateGroup.mergedLine?_eq_some_iff.1 hnew
    simp [h.afterMerge?_first hg hu hc, hkept]
  · have hmerged : g.isMerged = true := DuplicateGroup.isMerged_iff.2 ⟨new, hnew⟩
    have hdeleted := ImportTable.mem_deletions_iff.2 ⟨g, hg, hmerged, s, hlater, rfl⟩
    simp [ImportTable.afterMerge?_later hsorted hg hnew hlater, hdeleted]

/-- The statements of the merged text stand in the places of those that are not deleted. -/
theorem IsPlainTable.lines_mergeImports (h : IsPlainTable (ImportTable.ofText t)) :
    (ImportTable.ofText (mergeImports t)).map (·.line) =
      ((ImportTable.ofText t).filter fun s => s.line ∉ (ImportTable.ofText t).merge.deletions).map
        fun s => (ImportTable.ofText t).merge.lineAfter s.line := by
  rw [ofText_mergeImports, List.map_filterMap, ← List.filterMap_eq_map', List.filterMap_filter]
  refine List.filterMap_congr fun s hs => ?_
  cases hr : (ImportTable.ofText t).afterMerge? s with
  | none => simp [(h.afterMerge?_eq_none_iff hs).1 hr]
  | some r =>
    have hkept : s.line ∉ (ImportTable.ofText t).merge.deletions := by
      intro hmem
      rw [(h.afterMerge?_eq_none_iff hs).2 hmem] at hr
      cases hr
    simp [hkept, (h.class_of_afterMerge? hs hr).2.2]

/-- **Merging a text refines merging its table.**  Each class of the merged text is the merge of
    the class before, and the statements keep their places. -/
theorem mergeImports_refines_table (h : IsPlainTable (ImportTable.ofText t)) :
    (∀ specifier key, ClassMerge (ImportTable.ofText t).merge specifier
      ((ImportTable.ofText t).ofClass specifier key)
      ((ImportTable.ofText (mergeImports t)).ofClass specifier key)) ∧
    (ImportTable.ofText (mergeImports t)).map (·.line) =
      ((ImportTable.ofText t).filter fun s => s.line ∉ (ImportTable.ofText t).merge.deletions).map
        fun s => (ImportTable.ofText t).merge.lineAfter s.line :=
  ⟨classMerge_of_isPlainTable h, h.lines_mergeImports⟩

/-- A comment of another line is taken over, and a class of types stays apart. -/
theorem mergeImports_refines_table_comment :
    let t := ("import { b as c } from 'm';\nconst x = 1;\nimport A, { type from } from 'm'; // k\n" ++
      "import type { d } from 'm';\n").toList
    IsPlainTable (ImportTable.ofText t) ∧
    (∀ specifier key, ClassMerge (ImportTable.ofText t).merge specifier
      ((ImportTable.ofText t).ofClass specifier key)
      ((ImportTable.ofText (mergeImports t)).ofClass specifier key)) ∧
    (ImportTable.ofText (mergeImports t)).map (·.line) =
      ((ImportTable.ofText t).filter fun s => s.line ∉ (ImportTable.ofText t).merge.deletions).map
        fun s => (ImportTable.ofText t).merge.lineAfter s.line := by
  intro t
  have h : IsPlainTable (ImportTable.ofText t) := ⟨by decide +kernel, by decide +kernel⟩
  exact ⟨h, mergeImports_refines_table h⟩

end ImportRepair
