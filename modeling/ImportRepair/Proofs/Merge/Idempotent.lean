import ImportRepair.Proofs.Merge.Refinement

/-!
# Merging twice

A second merge finds nothing to do, with one exception.  Where all type imports
of a module are empty, the line that is written for them is `import type  from`,
which is read as an import of a default name `type`.  It then stands in another
class, and a second merge joins it with the value imports of the module.
-/

namespace ImportRepair

open Text

variable {t : Text} {g h : DuplicateGroup} {u : Union} {s r : Statement} {n : Int}
variable {specifier : Text} {key : MergeKey} {ss : List Statement}

/-! ### Classes that are merged -/

/-- A merge makes one statement of these. -/
def IsJoined (specifier : Text) (ss : List Statement) : Prop :=
  ∃ first second rest u, ss = first :: second :: rest ∧
    union? specifier first (second :: rest) = some u ∧ (commentsOf ss).length ≤ 1

theorem isMerged_iff_isJoined {table : ImportTable} (hg : g ∈ table.duplicateGroups) :
    g.isMerged = true ↔ IsJoined g.specifier (table.ofClass g.specifier g.key) := by
  rw [ImportTable.mem_duplicateGroups_iff.1 hg, DuplicateGroup.isMerged_iff]
  simp only [DuplicateGroup.mergedLine?_eq_some_iff, DuplicateGroup.comments_eq]
  constructor
  · rintro ⟨-, u, hu, hc, -⟩
    exact ⟨g.first, g.second, g.rest, u, rfl, hu, hc⟩
  · rintro ⟨first, second, rest, u, hss, hu, hc⟩
    obtain ⟨rfl, hlater⟩ := List.cons.inj hss
    have hlater : g.later = second :: rest := hlater
    exact ⟨_, u, hlater ▸ hu, hc, rfl⟩

theorem exists_group_of_isJoined {table : ImportTable}
    (h : IsJoined specifier (table.ofClass specifier key)) :
    ∃ g ∈ table.duplicateGroups, g.specifier = specifier ∧ g.key = key ∧ g.isMerged = true := by
  obtain ⟨first, second, rest, u, hss, -⟩ := id h
  have hg : ⟨specifier, key, first, second, rest⟩ ∈ table.duplicateGroups :=
    ImportTable.mem_duplicateGroups_iff.2 hss
  exact ⟨_, hg, rfl, rfl, (isMerged_iff_isJoined hg).2 h⟩

/-- A merge has no effect where no class is merged. -/
theorem merge_without_effect_iff (t : Text) :
    ((ImportTable.ofText t).merge.replacements = [] ∧ (ImportTable.ofText t).merge.redirects = [] ∧
      mergeImports t = t) ↔ ∀ g ∈ (ImportTable.ofText t).duplicateGroups, g.isMerged = false := by
  constructor
  · rintro ⟨-, hredirects, -⟩ g hg
    by_contra hmerged
    rw [Bool.not_eq_false] at hmerged
    have hmem := ImportTable.mem_redirects_iff.2
      ⟨g, hg, hmerged, rfl, g.second, List.mem_cons_self, rfl⟩
    simp [hredirects] at hmem
  · intro h
    have hredirects : (ImportTable.ofText t).merge.redirects = [] := by
      rw [List.eq_nil_iff_forall_not_mem]
      rintro ⟨n, m⟩ hmem
      obtain ⟨g, hg, hmerged, -⟩ := ImportTable.mem_redirects_iff.1 hmem
      simp [h g hg] at hmerged
    have hreplacements : (ImportTable.ofText t).merge.replacements = [] := by
      rw [List.eq_nil_iff_forall_not_mem]
      rintro ⟨n, new⟩ hmem
      obtain ⟨g, hg, -, -, hline⟩ := ImportTable.mem_replacements_iff.1 hmem
      have hmerged := DuplicateGroup.isMerged_iff.2 ⟨new, hline⟩
      simp [h g hg] at hmerged
    refine ⟨hreplacements, hredirects, ?_⟩
    simp [mergeImports, MergePlan.apply, MergePlan.changes, hreplacements, hredirects]

/-! ### Type imports that collapse -/

/-- The type imports of the group bind nothing, and the line that is written for them is read. -/
structure DuplicateGroup.Collapses (g : DuplicateGroup) : Prop where
  types : g.key = ⟨.es, true⟩
  empty : ∀ s ∈ g.statements, s.bindings = []
  comments : g.comments.length ≤ 1
  read : g.template.hidesType = false

/-- The default import `type` that is read from the line of type imports that bind nothing. -/
def DuplicateGroup.collapsed (g : DuplicateGroup) (n : Int) : Statement :=
  g.template.rewritten (.es false) [] [defaultOf false "type".toList] n

/-- The line that is written for the union is read as a statement of the group's class. -/
structure DuplicateGroup.IsReadable (g : DuplicateGroup) (u : Union) : Prop where
  nonempty : u.bindings = [] → g.first.form.style ≠ .es
  shown : g.first.form = .es false → u.bindings = [defaultOf false "type".toList] →
    g.template.hidesType = false

theorem form_of_key {typeOnly : Bool} (hg : g ∈ (ImportTable.ofText t).duplicateGroups) :
    g.key = ⟨.es, typeOnly⟩ ↔ g.first.form = .es typeOnly := by
  rw [← (ImportTable.mem_of_mem_statements hg (ImportTable.first_mem_statements g)).2.2]
  simp only [Statement.mergeKey, MergeKey.mk.injEq]
  cases hform : g.first.form with
  | es b => simp [Form.style, Form.typeOnly]
  | commonJs k => simp [Form.style]

/-- The line that is written for imports that bind nothing is read only if the types collapse. -/
theorem afterMerge?_first_of_nil {typeOnly : Bool}
    (hg : g ∈ (ImportTable.ofText t).duplicateGroups)
    (hu : union? g.specifier g.first g.later = some u) (hc : g.comments.length ≤ 1)
    (hfirst : g.first.form = .es typeOnly) (hbs : u.bindings = []) :
    (g.Collapses ∧ (ImportTable.ofText t).afterMerge? g.first =
      some (g.collapsed ((ImportTable.ofText t).merge.lineAfter g.first.line))) ∨
    (¬ g.Collapses ∧ (ImportTable.ofText t).afterMerge? g.first = none) := by
  have hwritable := (isWritable_template_of_mem hg).1
  have hform := g.template_form.trans hfirst
  have hread := ImportTable.afterMerge?_first hg
    (DuplicateGroup.mergedLine?_eq_some_iff.2 ⟨u, hu, hc, rfl⟩)
  rw [hbs] at hread
  cases typeOnly with
  | false =>
    refine Or.inr ⟨fun hcollapses => ?_, ?_⟩
    · have hkey := (form_of_key hg).1 hcollapses.types
      rw [hfirst] at hkey
      cases hkey
    · rw [hread, Statement.ofBare?_render_no_values hwritable hform]
  | true =>
    rw [Statement.ofBare?_render_no_types hwritable hform] at hread
    cases hhides : g.template.hidesType with
    | true =>
      refine Or.inr ⟨fun hcollapses => ?_, by rw [hread, hhides, if_pos rfl]⟩
      simp [hcollapses.read] at hhides
    | false =>
      have hempty := (union_bindings_eq_nil_iff (isClass_statements hg) hu).1 hbs
      refine Or.inl ⟨⟨(form_of_key hg).2 hfirst, hempty, hc, hhides⟩, ?_⟩
      rw [hread, hhides]
      rfl

/-- The line that is written for a default import `type` is read unless the name is hidden. -/
theorem afterMerge?_first_of_type (hg : g ∈ (ImportTable.ofText t).duplicateGroups)
    (hu : union? g.specifier g.first g.later = some u) (hc : g.comments.length ≤ 1)
    (hfirst : g.first.form = .es false) (hbs : u.bindings = [defaultOf false "type".toList]) :
    (ImportTable.ofText t).afterMerge? g.first = if g.template.hidesType then none else
      some (g.takeover u ((ImportTable.ofText t).merge.lineAfter g.first.line)) := by
  have hwritable := (isWritable_template_of_mem hg).1
  have hform := g.template_form
  have hread := ImportTable.afterMerge?_first hg
    (DuplicateGroup.mergedLine?_eq_some_iff.2 ⟨u, hu, hc, rfl⟩)
  have hrewritten := g.rewritten_template u
  rw [hbs] at hread hrewritten
  rw [hread, Statement.ofBare?_render_type hwritable (hform.trans hfirst), hform, hrewritten]

/-- What is read from the line that is written for a merged group. -/
theorem afterMerge?_first_cases (hg : g ∈ (ImportTable.ofText t).duplicateGroups)
    (hu : union? g.specifier g.first g.later = some u) (hc : g.comments.length ≤ 1) :
    (g.IsReadable u ∧ (ImportTable.ofText t).afterMerge? g.first =
      some (g.takeover u ((ImportTable.ofText t).merge.lineAfter g.first.line))) ∨
    (g.Collapses ∧ (ImportTable.ofText t).afterMerge? g.first =
      some (g.collapsed ((ImportTable.ofText t).merge.lineAfter g.first.line))) ∨
    (¬ g.IsReadable u ∧ ¬ g.Collapses ∧ (ImportTable.ofText t).afterMerge? g.first = none) := by
  by_cases hnil : u.bindings = [] ∧ g.first.form.style = .es
  · obtain ⟨hbs, hstyle⟩ := hnil
    have hunread : ¬ g.IsReadable u := fun h => h.nonempty hbs hstyle
    cases hfirst : g.first.form with
    | commonJs k => simp [hfirst, Form.style] at hstyle
    | es typeOnly =>
      rcases afterMerge?_first_of_nil hg hu hc hfirst hbs with hcollapses | ⟨hnot, hread⟩
      · exact Or.inr (Or.inl hcollapses)
      · exact Or.inr (Or.inr ⟨hunread, hnot, hread⟩)
  have hne : u.bindings = [] → g.first.form.style ≠ .es := fun hbs hstyle => hnil ⟨hbs, hstyle⟩
  by_cases htype : g.first.form = .es false ∧ u.bindings = [defaultOf false "type".toList]
  · obtain ⟨hfirst, hbs⟩ := htype
    have hread := afterMerge?_first_of_type hg hu hc hfirst hbs
    cases hhides : g.template.hidesType with
    | true =>
      refine Or.inr (Or.inr ⟨fun hreadable => ?_, fun hcollapses => ?_, ?_⟩)
      · simp [hreadable.shown hfirst hbs] at hhides
      · simp [hcollapses.read] at hhides
      · rw [hread, hhides, if_pos rfl]
    | false => exact Or.inl ⟨⟨hne, fun _ _ => hhides⟩, by rw [hread, hhides]; rfl⟩
  · have hne' : g.first.form = .es false → u.bindings ≠ [defaultOf false "type".toList] :=
      fun hfirst hbs => htype ⟨hfirst, hbs⟩
    exact Or.inl ⟨⟨hne, fun hfirst hbs => absurd hbs (hne' hfirst)⟩,
      afterMerge?_takeover hg hu hc hne hne'⟩

/-- What is left of a statement has its class, unless it is the first of type imports that
    collapse. -/
theorem class_of_afterMerge? (hs : s ∈ ImportTable.ofText t)
    (hr : (ImportTable.ofText t).afterMerge? s = some r) :
    (r.specifier = s.specifier ∧ r.mergeKey = s.mergeKey) ∨
    ∃ g ∈ (ImportTable.ofText t).duplicateGroups, g.Collapses ∧ s = g.first ∧
      r = g.collapsed ((ImportTable.ofText t).merge.lineAfter g.first.line) := by
  rcases ImportTable.merged_cases (ImportTable.ofText t) s with
    hnot | ⟨g, hg, new, hnew, rfl | hlater⟩
  · rw [ImportTable.afterMerge?_of_not_merged hs hnot] at hr
    cases hr
    exact Or.inl ⟨rfl, rfl⟩
  · obtain ⟨u, hu, hc, -⟩ := DuplicateGroup.mergedLine?_eq_some_iff.1 hnew
    rcases afterMerge?_first_cases hg hu hc with ⟨-, hread⟩ | ⟨hcollapses, hread⟩ | ⟨-, -, hread⟩
    · rw [hread] at hr
      cases hr
      exact Or.inl ⟨rfl, rfl⟩
    · rw [hread] at hr
      cases hr
      exact Or.inr ⟨g, hg, hcollapses, rfl, rfl⟩
    · rw [hread] at hr
      cases hr
  · rw [ImportTable.afterMerge?_later (isSorted_ofText t) hg hnew hlater] at hr
    cases hr

/-! ### Classes of the merged text -/

theorem mem_ofText_mergeImports_iff : r ∈ ImportTable.ofText (mergeImports t) ↔
    ∃ s ∈ ImportTable.ofText t, (ImportTable.ofText t).afterMerge? s = some r := by
  rw [ofText_mergeImports, List.mem_filterMap]

/-- The statements of a class that is not merged stay. -/
theorem afterMerge?_of_not_isJoined
    (h : ¬ IsJoined specifier ((ImportTable.ofText t).ofClass specifier key))
    (hs : s ∈ (ImportTable.ofText t).ofClass specifier key) :
    (ImportTable.ofText t).afterMerge? s = some ((ImportTable.ofText t).moved s) := by
  refine ImportTable.afterMerge?_of_not_merged (ImportTable.mem_ofClass_iff.1 hs).1 ?_
  intro g hg hmerged hsg
  obtain ⟨rfl, rfl, -⟩ := ImportTable.statements_of_mem_ofClass hg hs hsg
  exact h ((isMerged_iff_isJoined hg).1 hmerged)

theorem filterMap_of_not_isJoined
    (h : ¬ IsJoined specifier ((ImportTable.ofText t).ofClass specifier key)) :
    ((ImportTable.ofText t).ofClass specifier key).filterMap (ImportTable.ofText t).afterMerge? =
      ((ImportTable.ofText t).ofClass specifier key).map (ImportTable.ofText t).moved := by
  rw [← List.filterMap_eq_map]
  exact List.filterMap_congr fun s hs => afterMerge?_of_not_isJoined h hs

/-- Of a class that is merged one statement is left at most. -/
theorem length_filterMap_le_one
    (h : IsJoined specifier ((ImportTable.ofText t).ofClass specifier key)) :
    (((ImportTable.ofText t).ofClass specifier key).filterMap
      (ImportTable.ofText t).afterMerge?).length ≤ 1 := by
  obtain ⟨g, hg, rfl, rfl, hmerged⟩ := exists_group_of_isJoined h
  obtain ⟨new, hnew⟩ := DuplicateGroup.isMerged_iff.1 hmerged
  have hstatements : g.statements = g.first :: g.later := rfl
  rw [ImportTable.mem_duplicateGroups_iff.1 hg, hstatements, List.filterMap_cons,
    filterMap_afterMerge?_later hg hnew]
  split <;> simp

/-- That statement is the first one. -/
theorem eq_first_of_isJoined {first : Statement} {others : List Statement}
    (h : IsJoined specifier ((ImportTable.ofText t).ofClass specifier key))
    (hclass : (ImportTable.ofText t).ofClass specifier key = first :: others)
    (hs : s ∈ first :: others) (hr : (ImportTable.ofText t).afterMerge? s = some r) :
    s = first := by
  obtain ⟨g, hg, rfl, rfl, hmerged⟩ := exists_group_of_isJoined h
  have hstatements := (ImportTable.mem_duplicateGroups_iff.1 hg).symm.trans hclass
  obtain ⟨hfirst, hlater⟩ := List.cons.inj hstatements
  obtain ⟨new, hnew⟩ := DuplicateGroup.isMerged_iff.1 hmerged
  rcases List.mem_cons.1 hs with rfl | hs
  · rfl
  · rw [← hlater] at hs
    rw [ImportTable.afterMerge?_later (isSorted_ofText t) hg hnew hs] at hr
    cases hr

theorem union?_map_moved (table : ImportTable) (first : Statement) (others : List Statement) :
    union? specifier (table.moved first) (others.map table.moved) =
      union? specifier first others := by
  have hmap : table.moved first :: others.map table.moved = (first :: others).map table.moved := rfl
  have hdefaults : (fun s => s.default?.map (·.localName)) ∘ table.moved =
      fun s : Statement => s.default?.map (·.localName) := rfl
  have haliases : (fun s => s.namespace?.map (·.localName)) ∘ table.moved =
      fun s : Statement => s.namespace?.map (·.localName) := rfl
  have hnamed : namedUnion ((first :: others).map table.moved) = namedUnion (first :: others) := by
    simp only [namedUnion, List.flatMap_map]
    rfl
  simp only [union?, hmap, hnamed, List.filterMap_map, hdefaults, haliases]
  rfl

theorem isJoined_map_moved (table : ImportTable) (h : IsJoined specifier (ss.map table.moved)) :
    IsJoined specifier ss := by
  obtain ⟨first, second, rest, u, hss, hu, hc⟩ := h
  rcases ss with _ | ⟨a, _ | ⟨b, l⟩⟩
  · simp at hss
  · simp at hss
  · obtain ⟨rfl, htail⟩ := List.cons.inj hss
    have hcomments : commentsOf ((a :: b :: l).map table.moved) = commentsOf (a :: b :: l) := by
      simp only [commentsOf, List.filter_map, List.map_map]
      rfl
    refine ⟨a, b, l, u, rfl, ?_, by rw [← hcomments]; exact hc⟩
    have hrest : second :: rest = (b :: l).map table.moved := htail.symm
    rw [← union?_map_moved table a (b :: l), ← hrest]
    exact hu

/-- A class that no collapsed import joins is not merged again. -/
theorem not_isJoined_of_no_collapse
    (h : ∀ s ∈ ImportTable.ofText t, ∀ r, (ImportTable.ofText t).afterMerge? s = some r →
      r.specifier = specifier → r.mergeKey = key → s.specifier = specifier ∧ s.mergeKey = key) :
    ¬ IsJoined specifier ((ImportTable.ofText (mergeImports t)).ofClass specifier key) := by
  rw [ofClass_mergeImports_eq_filter h]
  by_cases hjoined : IsJoined specifier ((ImportTable.ofText t).ofClass specifier key)
  · rintro ⟨first, second, rest, -, hclass, -⟩
    have hone := length_filterMap_le_one hjoined
    have hle := List.length_filter_le (fun r : Statement => r.specifier == specifier &&
      r.mergeKey == key) (((ImportTable.ofText t).ofClass specifier key).filterMap
        (ImportTable.ofText t).afterMerge?)
    rw [hclass] at hle
    simp only [List.length_cons] at hle
    omega
  · rw [filterMap_of_not_isJoined hjoined, List.filter_eq_self.2]
    · exact fun hagain => hjoined (isJoined_map_moved (ImportTable.ofText t) hagain)
    · intro r hr
      obtain ⟨s, hs, rfl⟩ := List.mem_map.1 hr
      obtain ⟨-, hspecifier, hkey⟩ := ImportTable.mem_ofClass_iff.1 hs
      simp [ImportTable.moved, hspecifier, Statement.mergeKey, ← hkey]

/-! ### Comments of the merged text -/

theorem trim_trimLeft (u : Text) : u.trimLeft.trim = u.trim := by
  have hidem : u.trimLeft.trimLeft = u.trimLeft := dropWhile_of_stops stops_trimLeft
  rw [trim, hidem, trim]

theorem Statement.trim_readTrailing (s : Statement) : s.readTrailing.trim = s.trailing.trim := by
  unfold readTrailing
  split
  · rfl
  · exact trim_trimLeft _

theorem Statement.readTrailing_eq_nil_iff (h : s.IsWritable) :
    s.readTrailing = [] ↔ s.trailing = [] := by
  unfold readTrailing
  split
  · rfl
  · constructor
    · intro hnil
      by_contra hne
      exact h.comment.trimLeft_ne_nil hne hnil
    · intro hnil
      rw [hnil]
      rfl

/-- The comments of a merged group are those of the statement that takes it over. -/
theorem mem_comments_iff_of_template (hg : g ∈ (ImportTable.ofText t).duplicateGroups)
    (hc : g.comments.length ≤ 1) {c : Text} :
    c ∈ g.comments ↔ g.template.readTrailing ≠ [] ∧ g.template.readTrailing.trim = c := by
  obtain ⟨s, hs, htemplate, hnone⟩ := g.template_cases
  have htrailing : g.template.trailing = s.trailing := by rw [htemplate]
  rw [Ne, Statement.readTrailing_eq_nil_iff (isWritable_template_of_mem hg).1,
    Statement.trim_readTrailing, htrailing, DuplicateGroup.comments_eq]
  constructor
  · intro hmem
    have hne : s.trailing ≠ [] := by
      intro hnil
      obtain ⟨r, hr, hne, -⟩ := mem_commentsOf_iff.1 hmem
      exact hne (hnone hnil r hr)
    exact ⟨hne, length_commentsOf_le_one_iff.1 hc _ (mem_commentsOf_iff.2 ⟨s, hs, hne, rfl⟩) _ hmem⟩
  · rintro ⟨hne, rfl⟩
    exact mem_commentsOf_iff.2 ⟨s, hs, hne, rfl⟩

theorem trailing_of_afterMerge?_first (hg : g ∈ (ImportTable.ofText t).duplicateGroups)
    (hmerged : g.isMerged = true) (hr : (ImportTable.ofText t).afterMerge? g.first = some r) :
    g.comments.length ≤ 1 ∧ r.trailing = g.template.readTrailing := by
  obtain ⟨new, hnew⟩ := DuplicateGroup.isMerged_iff.1 hmerged
  obtain ⟨u, hu, hc, -⟩ := DuplicateGroup.mergedLine?_eq_some_iff.1 hnew
  refine ⟨hc, ?_⟩
  rcases afterMerge?_first_cases hg hu hc with ⟨-, hread⟩ | ⟨-, hread⟩ | ⟨-, -, hread⟩
  · rw [hread] at hr
    cases hr
    rfl
  · rw [hread] at hr
    cases hr
    rfl
  · rw [hread] at hr
    cases hr

/-- The comments of a class are those of its statements in the merged text, if one is left. -/
theorem mem_commentsOf_ofClass_iff {c : Text}
    (hsome : ∃ s ∈ (ImportTable.ofText t).ofClass specifier key,
      ∃ r, (ImportTable.ofText t).afterMerge? s = some r) :
    c ∈ commentsOf ((ImportTable.ofText t).ofClass specifier key) ↔
      ∃ s ∈ (ImportTable.ofText t).ofClass specifier key,
        ∃ r, (ImportTable.ofText t).afterMerge? s = some r ∧
          r.trailing ≠ [] ∧ r.trailing.trim = c := by
  by_cases hjoined : IsJoined specifier ((ImportTable.ofText t).ofClass specifier key)
  · obtain ⟨g, hg, rfl, rfl, hmerged⟩ := exists_group_of_isJoined hjoined
    have hclass := ImportTable.mem_duplicateGroups_iff.1 hg
    have hone : ∀ s ∈ g.statements, ∀ r, (ImportTable.ofText t).afterMerge? s = some r →
        g.comments.length ≤ 1 ∧ r.trailing = g.template.readTrailing := by
      intro s hs r hr
      obtain rfl := eq_first_of_isJoined hjoined hclass hs hr
      exact trailing_of_afterMerge?_first hg hmerged hr
    rw [hclass] at hsome ⊢
    obtain ⟨s, hs, r, hr⟩ := hsome
    obtain ⟨hc, htrailing⟩ := hone s hs r hr
    rw [← DuplicateGroup.comments_eq, mem_comments_iff_of_template hg hc]
    constructor
    · rintro ⟨hne, htrim⟩
      exact ⟨s, hs, r, hr, htrailing ▸ hne, htrailing ▸ htrim⟩
    · rintro ⟨s', hs', r', hr', hne, htrim⟩
      rw [(hone s' hs' r' hr').2] at hne htrim
      exact ⟨hne, htrim⟩
  · rw [mem_commentsOf_iff]
    constructor
    · rintro ⟨s, hs, hne, htrim⟩
      exact ⟨s, hs, _, afterMerge?_of_not_isJoined hjoined hs, hne, htrim⟩
    · rintro ⟨s, hs, r, hr, hne, htrim⟩
      rw [afterMerge?_of_not_isJoined hjoined hs] at hr
      cases hr
      exact ⟨s, hs, hne, htrim⟩

/-! ### Unions of value imports -/

/-- No namespace alias meets named bindings. -/
def IsApart (ss : List Statement) : Prop :=
  (∀ s ∈ ss, s.namespace? = none) ∨ ∀ s ∈ ss, s.named = []

theorem exists_union?_iff_isApart (specifier : Text) {first : Statement} {others : List Statement}
    (hform : first.form = .es false) :
    (∃ u, union? specifier first others = some u) ↔ IsApart (first :: others) := by
  simp only [union?_es_eq_some_iff _ hform, exists_and_left, exists_eq, and_true, IsApart,
    ← aliasNames_eq_nil_iff, ← namedUnion_eq_nil_iff]
  exact ⟨fun h => h.apart, fun h => ⟨h, by simp⟩⟩

/-- A statement by itself holds no alias next to named bindings. -/
theorem isApart_of_isAdmitted {typeOnly : Bool} (h : s.IsAdmitted) (hform : s.form = .es typeOnly) :
    s.namespace? = none ∨ s.named = [] := by
  rw [Statement.IsAdmitted, hform] at h
  obtain ⟨defaults, aliases, items, hbs, h⟩ := h
  have hdefault : ∀ b ∈ defaults, b.kind = .defaultName := fun b hb => (h.isDefault b hb).kind_eq
  have halias : ∀ b ∈ aliases, b.kind = .namespaceAlias := fun b hb => (h.isAlias b hb).kind_eq
  have hitem : ∀ b ∈ items, b.kind = .named := fun b hb => (h.isItem b hb).1.2.1
  rcases h.apart with rfl | rfl
  · refine Or.inl ?_
    rw [Statement.namespace?, hbs, List.find?_eq_none]
    intro b hb
    simp only [List.append_nil, List.mem_append] at hb
    rcases hb with hb | hb
    · simp [hdefault b hb]
    · simp [hitem b hb]
  · refine Or.inr ?_
    rw [Statement.named, hbs, List.filter_eq_nil_iff]
    intro b hb
    simp only [List.append_nil, List.mem_append] at hb
    rcases hb with hb | hb
    · simp [hdefault b hb]
    · simp [halias b hb]

theorem form_of_mergeKey_eq {typeOnly : Bool} (h : s.mergeKey = ⟨.es, typeOnly⟩) :
    s.form = .es typeOnly := by
  simp only [Statement.mergeKey, MergeKey.mk.injEq] at h
  cases hform : s.form with
  | es b => rw [hform] at h; exact congrArg Form.es h.2
  | commonJs k => rw [hform] at h; exact absurd h.1 (by simp [Form.style])

/-! ### When a second merge has an effect -/

/-- The type imports of a module collapse into a default import `type`, and the value imports of
    the module, of which one is left in the merged text, can be merged with it. -/
structure Relapses (table : ImportTable) (types : DuplicateGroup) (first : Statement)
    (others : List Statement) (u : Union) : Prop where
  mem : types ∈ table.duplicateGroups
  collapses : types.Collapses
  values : table.ofClass types.specifier ⟨.es, false⟩ = first :: others
  union : union? types.specifier first others = some u
  comments : (commentsOf (types.statements ++ first :: others)).length ≤ 1
  /-- If the value imports are merged themselves, the line that is written for them is read. -/
  read : ∀ g ∈ table.duplicateGroups, g.statements = first :: others → g.IsReadable u

theorem commentsOf_append_sub {rs : List Statement} {c : Text} :
    c ∈ commentsOf (ss ++ rs) ↔ c ∈ commentsOf ss ∨ c ∈ commentsOf rs := by
  simp only [mem_commentsOf_iff, List.mem_append]
  constructor
  · rintro ⟨s, hs | hs, h⟩
    · exact Or.inl ⟨s, hs, h⟩
    · exact Or.inr ⟨s, hs, h⟩
  · rintro (⟨s, hs, h⟩ | ⟨s, hs, h⟩)
    · exact ⟨s, Or.inl hs, h⟩
    · exact ⟨s, Or.inr hs, h⟩

/-- Type imports that collapse leave the default import `type`. -/
theorem DuplicateGroup.Collapses.afterMerge? (h : g.Collapses)
    (hg : g ∈ (ImportTable.ofText t).duplicateGroups) :
    (ImportTable.ofText t).afterMerge? g.first =
      some (g.collapsed ((ImportTable.ofText t).merge.lineAfter g.first.line)) := by
  have hform := (form_of_key hg).1 h.types
  have hnone := ((names_eq_nil_iff fun s hs => (isClass_statements hg s hs).2).2 h.empty).2
  have hexpressible : IsExpressible true (g.first :: g.later) :=
    ⟨Or.inl hnone.1, fun _ => Or.inr hnone⟩
  have hu := (union?_es_eq_some_iff g.specifier hform).2 ⟨hexpressible, rfl⟩
  have hbindings := (union_bindings_eq_nil_iff (isClass_statements hg) hu).2 h.empty
  rcases afterMerge?_first_cases hg hu h.comments with ⟨hreadable, -⟩ | ⟨-, hread⟩ | ⟨-, hnot, -⟩
  · exact absurd (by rw [hform]; rfl) (hreadable.nonempty hbindings)
  · exact hread
  · exact absurd h hnot

/-- Two groups of one module that collapse are the same. -/
theorem eq_of_collapses (hg : g ∈ (ImportTable.ofText t).duplicateGroups)
    (hh : h ∈ (ImportTable.ofText t).duplicateGroups) (hcg : g.Collapses) (hch : h.Collapses)
    (hspecifier : g.specifier = h.specifier) : g = h := by
  have hstatements : g.statements = h.statements := by
    rw [← ImportTable.mem_duplicateGroups_iff.1 hg, ← ImportTable.mem_duplicateGroups_iff.1 hh,
      hspecifier, hcg.types, hch.types]
  exact ImportTable.eq_of_mem_statements hg hh (ImportTable.first_mem_statements g)
    (hstatements ▸ ImportTable.first_mem_statements g)

theorem class_collapsed (hg : g ∈ (ImportTable.ofText t).duplicateGroups) (n : Int) :
    (g.collapsed n).specifier = g.specifier ∧ (g.collapsed n).mergeKey = ⟨.es, false⟩ := by
  have hspecifier := (ImportTable.mem_of_mem_statements hg (ImportTable.first_mem_statements g)).2.1
  have htemplate : g.template.specifier = g.first.specifier := by rw [g.template_eq]
  exact ⟨htemplate.trans hspecifier, rfl⟩

/-- What is left of a value import is one of the same module. -/
theorem class_of_afterMerge?_value (hs : s ∈ (ImportTable.ofText t).ofClass specifier ⟨.es, false⟩)
    (hr : (ImportTable.ofText t).afterMerge? s = some r) :
    r.specifier = specifier ∧ r.mergeKey = ⟨.es, false⟩ := by
  obtain ⟨hst, hspecifier, hkey⟩ := ImportTable.mem_ofClass_iff.1 hs
  rcases class_of_afterMerge? hst hr with ⟨hm, hk⟩ | ⟨h, hh, hch, rfl, rfl⟩
  · exact ⟨hm.trans hspecifier, hk.trans hkey⟩
  · have hkey' := (ImportTable.mem_of_mem_statements hh (ImportTable.first_mem_statements h)).2.2
    rw [hkey, hch.types] at hkey'
    cases hkey'

/-- What is left of the value imports of a module and of its type imports makes up the value
    imports of the merged text. -/
theorem mem_values_iff (hg : g ∈ (ImportTable.ofText t).duplicateGroups)
    (hcollapses : g.Collapses) :
    r ∈ (ImportTable.ofText (mergeImports t)).ofClass g.specifier ⟨.es, false⟩ ↔
      r = g.collapsed ((ImportTable.ofText t).merge.lineAfter g.first.line) ∨
      ∃ s ∈ (ImportTable.ofText t).ofClass g.specifier ⟨.es, false⟩,
        (ImportTable.ofText t).afterMerge? s = some r := by
  rw [ImportTable.mem_ofClass_iff, mem_ofText_mergeImports_iff]
  constructor
  · rintro ⟨⟨s, hs, hr⟩, hspecifier, hkey⟩
    rcases class_of_afterMerge? hs hr with ⟨hm, hk⟩ | ⟨h, hh, hch, rfl, rfl⟩
    · exact Or.inr ⟨s, ImportTable.mem_ofClass_iff.2 ⟨hs, hm ▸ hspecifier, hk ▸ hkey⟩, hr⟩
    · rw [(class_collapsed hh _).1] at hspecifier
      rw [eq_of_collapses hh hg hch hcollapses hspecifier]
      exact Or.inl rfl
  · rintro (rfl | ⟨s, hs, hr⟩)
    · have hfirst := (ImportTable.mem_of_mem_statements hg (ImportTable.first_mem_statements g)).1
      exact ⟨⟨g.first, hfirst, hcollapses.afterMerge? hg⟩, class_collapsed hg _⟩
    · exact ⟨⟨s, (ImportTable.mem_ofClass_iff.1 hs).1, hr⟩, class_of_afterMerge?_value hs hr⟩

/-- The comments of the value imports of the merged text are those of both kinds of imports. -/
theorem mem_comments_values_iff (hg : g ∈ (ImportTable.ofText t).duplicateGroups)
    (hcollapses : g.Collapses)
    (hsome : ∃ s ∈ (ImportTable.ofText t).ofClass g.specifier ⟨.es, false⟩,
      ∃ r, (ImportTable.ofText t).afterMerge? s = some r) {c : Text} :
    c ∈ commentsOf ((ImportTable.ofText (mergeImports t)).ofClass g.specifier ⟨.es, false⟩) ↔
      c ∈ commentsOf (g.statements ++ (ImportTable.ofText t).ofClass g.specifier ⟨.es, false⟩) := by
  rw [commentsOf_append_sub, mem_commentsOf_ofClass_iff hsome, ← DuplicateGroup.comments_eq,
    mem_comments_iff_of_template hg hcollapses.comments, mem_commentsOf_iff]
  simp only [mem_values_iff hg hcollapses]
  constructor
  · rintro ⟨r, rfl | ⟨s, hs, hr⟩, hne, htrim⟩
    · exact Or.inl ⟨hne, htrim⟩
    · exact Or.inr ⟨s, hs, r, hr, hne, htrim⟩
  · rintro (⟨hne, htrim⟩ | ⟨s, hs, r, hr, hne, htrim⟩)
    · exact ⟨_, Or.inl rfl, hne, htrim⟩
    · exact ⟨r, Or.inr ⟨s, hs, hr⟩, hne, htrim⟩

/-- What is left of a statement stands on the line where the statement ends up. -/
theorem line_of_afterMerge? (hs : s ∈ ImportTable.ofText t)
    (hr : (ImportTable.ofText t).afterMerge? s = some r) :
    s.line ∉ (ImportTable.ofText t).merge.deletions ∧
      r.line = (ImportTable.ofText t).merge.lineAfter s.line := by
  have hsorted := isSorted_ofText t
  have hnot : ∀ g ∈ (ImportTable.ofText t).duplicateGroups, g.isMerged = true → s ∉ g.later := by
    intro g hg hmerged hlater
    obtain ⟨new, hnew⟩ := DuplicateGroup.isMerged_iff.1 hmerged
    rw [ImportTable.afterMerge?_later hsorted hg hnew hlater] at hr
    cases hr
  refine ⟨ImportTable.not_mem_deletions hsorted hs hnot, ?_⟩
  rcases ImportTable.merged_cases (ImportTable.ofText t) s with
    hstays | ⟨g, hg, new, hnew, rfl | hlater⟩
  · rw [ImportTable.afterMerge?_of_not_merged hs hstays] at hr
    cases hr
    rfl
  · rw [ImportTable.afterMerge?_first hg hnew] at hr
    exact (Statement.ofBare?_cases hr).2.1
  · exact absurd hlater (hnot g hg (DuplicateGroup.isMerged_iff.2 ⟨new, hnew⟩))

/-- No two statements leave the same. -/
theorem afterMerge?_injective {s' : Statement} (hs : s ∈ ImportTable.ofText t)
    (hs' : s' ∈ ImportTable.ofText t) (hr : (ImportTable.ofText t).afterMerge? s = some r)
    (hr' : (ImportTable.ofText t).afterMerge? s' = some r) : s = s' := by
  have hnodup := ImportTable.nodup_deletions (isSorted_ofText t)
  obtain ⟨hkept, hnumber⟩ := line_of_afterMerge? hs hr
  obtain ⟨hkept', hnumber'⟩ := line_of_afterMerge? hs' hr'
  rw [MergePlan.lineAfter_eq, MergePlan.target_of_not_mem hkept] at hnumber
  rw [MergePlan.lineAfter_eq, MergePlan.target_of_not_mem hkept', hnumber] at hnumber'
  exact eq_of_line_eq hs hs' ((LineEdits.newNumber_inj hnodup hkept hkept').1 hnumber')

theorem form_of_mem_ofClass {table : ImportTable} {typeOnly : Bool}
    (hs : s ∈ table.ofClass specifier ⟨.es, typeOnly⟩) : s.form = .es typeOnly :=
  form_of_mergeKey_eq (ImportTable.mem_ofClass_iff.1 hs).2.2

/-! ### What is left of value imports -/

section Values

variable {first : Statement} {others : List Statement}

/-- The first statement of a class is left if any of them is. -/
theorem exists_afterMerge?_first
    (hclass : (ImportTable.ofText t).ofClass specifier key = first :: others)
    (hs : s ∈ first :: others) (hr : (ImportTable.ofText t).afterMerge? s = some r) :
    ∃ v, (ImportTable.ofText t).afterMerge? first = some v := by
  by_cases hjoined : IsJoined specifier ((ImportTable.ofText t).ofClass specifier key)
  · obtain rfl := eq_first_of_isJoined hjoined hclass hs hr
    exact ⟨r, hr⟩
  · have hfirst : first ∈ (ImportTable.ofText t).ofClass specifier key := by simp [hclass]
    exact ⟨_, afterMerge?_of_not_isJoined hjoined hfirst⟩

/-- The first of value imports with a union is left, unless the line that is written for all of
    them is not read. -/
theorem exists_afterMerge?_first_iff
    (hclass : (ImportTable.ofText t).ofClass specifier ⟨.es, false⟩ = first :: others)
    (hu : union? specifier first others = some u) (hc : (commentsOf (first :: others)).length ≤ 1) :
    (∃ v, (ImportTable.ofText t).afterMerge? first = some v) ↔
      ∀ d ∈ (ImportTable.ofText t).duplicateGroups, d.statements = first :: others →
        d.IsReadable u := by
  have hfirst : first ∈ (ImportTable.ofText t).ofClass specifier ⟨.es, false⟩ := by simp [hclass]
  have hgroup : ∀ d ∈ (ImportTable.ofText t).duplicateGroups, d.statements = first :: others →
      (d.IsReadable u ↔ ∃ v, (ImportTable.ofText t).afterMerge? first = some v) := by
    intro d hd hstatements
    obtain ⟨hdfirst, hdlater⟩ := List.cons.inj hstatements
    obtain ⟨hspecifier, hkey, -⟩ := ImportTable.statements_of_mem_ofClass hd hfirst
      (hdfirst ▸ ImportTable.first_mem_statements d)
    have hu' : union? d.specifier d.first d.later = some u := by
      rw [hspecifier, hdfirst, hdlater, hu]
    have hc' : d.comments.length ≤ 1 := by rwa [DuplicateGroup.comments_eq, hstatements]
    rcases afterMerge?_first_cases hd hu' hc' with ⟨hreadable, hread⟩ | ⟨hcd, -⟩ | ⟨hnot, -, hnone⟩
    · exact iff_of_true hreadable ⟨_, hdfirst ▸ hread⟩
    · rw [hcd.types] at hkey
      cases hkey
    · refine iff_of_false hnot ?_
      rintro ⟨v, hv⟩
      rw [← hdfirst, hnone] at hv
      cases hv
  constructor
  · intro hv d hd hstatements
    exact (hgroup d hd hstatements).2 hv
  · intro h
    by_cases hjoined : IsJoined specifier ((ImportTable.ofText t).ofClass specifier ⟨.es, false⟩)
    · obtain ⟨d, hd, hspecifier, hkey, -⟩ := exists_group_of_isJoined hjoined
      have hstatements : d.statements = first :: others := by
        rw [← ImportTable.mem_duplicateGroups_iff.1 hd, hspecifier, hkey, hclass]
      exact (hgroup d hd hstatements).1 (h d hd hstatements)
    · exact ⟨_, afterMerge?_of_not_isJoined hjoined hfirst⟩

end Values

/-- What is left of value imports is apart as they are. -/
theorem isApart_filterMap_iff (specifier : Text) :
    IsApart (((ImportTable.ofText t).ofClass specifier ⟨.es, false⟩).filterMap
        (ImportTable.ofText t).afterMerge?) ↔
      IsApart ((ImportTable.ofText t).ofClass specifier ⟨.es, false⟩) := by
  by_cases hjoined : IsJoined specifier ((ImportTable.ofText t).ofClass specifier ⟨.es, false⟩)
  · -- both sides hold: the imports have a union, and one statement is left of them at most
    obtain ⟨first, second, rest, u, hclass, hu, -⟩ := id hjoined
    have hform : first.form = .es false := form_of_mem_ofClass (by rw [hclass]; simp)
    have happart : IsApart (first :: second :: rest) :=
      (exists_union?_iff_isApart specifier hform).1 ⟨u, hu⟩
    rw [hclass]
    refine iff_of_true ?_ happart
    rw [← hclass]
    have hone := length_filterMap_le_one hjoined
    rcases hleft : ((ImportTable.ofText t).ofClass specifier ⟨.es, false⟩).filterMap
      (ImportTable.ofText t).afterMerge? with _ | ⟨v, _ | ⟨w, l⟩⟩
    · simp [IsApart]
    · obtain ⟨s, hs, hv⟩ := List.mem_filterMap.1 (hleft ▸ List.mem_singleton_self v)
      have hform := form_of_mergeKey_eq (class_of_afterMerge?_value hs hv).2
      have hmem : v ∈ ImportTable.ofText (mergeImports t) :=
        mem_ofText_mergeImports_iff.2 ⟨s, (ImportTable.mem_ofClass_iff.1 hs).1, hv⟩
      simpa [IsApart] using isApart_of_isAdmitted (isRead_of_mem_ofText hmem).admits hform
    · simp [hleft] at hone
  · rw [filterMap_of_not_isJoined hjoined, IsApart, IsApart,
      List.forall_mem_map, List.forall_mem_map]
    rfl

/-! ### Value imports next to a collapsed import -/

/-- The default import `type` of a collapsed group does not count. -/
theorem isApart_values_iff (hg : g ∈ (ImportTable.ofText t).duplicateGroups)
    (hcollapses : g.Collapses) :
    IsApart ((ImportTable.ofText (mergeImports t)).ofClass g.specifier ⟨.es, false⟩) ↔
      IsApart ((ImportTable.ofText t).ofClass g.specifier ⟨.es, false⟩) := by
  rw [← isApart_filterMap_iff (t := t)]
  simp only [IsApart, mem_values_iff hg hcollapses, List.mem_filterMap, or_imp, forall_and,
    forall_eq]
  exact or_congr (and_iff_right rfl) (and_iff_right rfl)

/-- Next to a collapsed import there is another value import iff one is left. -/
theorem one_lt_length_values_iff (hg : g ∈ (ImportTable.ofText t).duplicateGroups)
    (hcollapses : g.Collapses) :
    1 < ((ImportTable.ofText (mergeImports t)).ofClass g.specifier ⟨.es, false⟩).length ↔
      ∃ s ∈ (ImportTable.ofText t).ofClass g.specifier ⟨.es, false⟩,
        ∃ r, (ImportTable.ofText t).afterMerge? s = some r := by
  constructor
  · intro hlength
    have hsorted : ((ImportTable.ofText (mergeImports t)).ofClass g.specifier ⟨.es, false⟩).Pairwise
        fun s r => s.line < r.line :=
      (isSorted_ofText (mergeImports t)).sublist List.filter_sublist
    rcases hclass : (ImportTable.ofText (mergeImports t)).ofClass g.specifier ⟨.es, false⟩ with
      _ | ⟨a, _ | ⟨b, l⟩⟩
    · simp [hclass] at hlength
    · simp [hclass] at hlength
    · rw [hclass] at hsorted
      have hlt := (List.pairwise_cons.1 hsorted).1 b (by simp)
      have ha := (mem_values_iff (r := a) hg hcollapses).1 (by simp [hclass])
      have hb := (mem_values_iff (r := b) hg hcollapses).1 (by simp [hclass])
      rcases ha with rfl | ⟨s, hs, hr⟩
      · rcases hb with rfl | ⟨s, hs, hr⟩
        · exact absurd hlt (Int.lt_irrefl _)
        · exact ⟨s, hs, b, hr⟩
      · exact ⟨s, hs, a, hr⟩
  · rintro ⟨s, hs, r, hr⟩
    have hne : g.collapsed ((ImportTable.ofText t).merge.lineAfter g.first.line) ≠ r := by
      rintro rfl
      obtain ⟨hgt, -, hkey⟩ :=
        ImportTable.mem_of_mem_statements hg (ImportTable.first_mem_statements g)
      obtain ⟨hst, -, hkey'⟩ := ImportTable.mem_ofClass_iff.1 hs
      have hsame := afterMerge?_injective hgt hst (hcollapses.afterMerge? hg) hr
      rw [hsame, hkey', hcollapses.types] at hkey
      cases hkey
    have hmem := (mem_values_iff hg hcollapses).2 (Or.inl rfl)
    have hmem' := (mem_values_iff hg hcollapses).2 (Or.inr ⟨s, hs, hr⟩)
    rcases hclass : (ImportTable.ofText (mergeImports t)).ofClass g.specifier ⟨.es, false⟩ with
      _ | ⟨a, _ | ⟨b, l⟩⟩
    · simp [hclass] at hmem
    · rw [hclass, List.mem_singleton] at hmem hmem'
      exact absurd (hmem.trans hmem'.symm) hne
    · simp

/-- Value imports are joined iff there are two of them, apart and with one comment. -/
theorem isJoined_iff (specifier : Text) (h : ∀ s ∈ ss, s.form = .es false) :
    IsJoined specifier ss ↔ 1 < ss.length ∧ IsApart ss ∧ (commentsOf ss).length ≤ 1 := by
  constructor
  · rintro ⟨first, second, rest, u, rfl, hu, hc⟩
    exact ⟨by simp, (exists_union?_iff_isApart specifier (h _ (by simp))).1 ⟨u, hu⟩, hc⟩
  · rintro ⟨hlength, hapart, hc⟩
    rcases ss with _ | ⟨first, _ | ⟨second, rest⟩⟩
    · simp at hlength
    · simp at hlength
    · obtain ⟨u, hu⟩ := (exists_union?_iff_isApart specifier (h first (by simp))).2 hapart
      exact ⟨first, second, rest, u, rfl, hu, hc⟩

/-- A second merge joins value imports with a collapsed import iff they relapse. -/
theorem isJoined_values_iff (hg : g ∈ (ImportTable.ofText t).duplicateGroups)
    (hcollapses : g.Collapses) :
    IsJoined g.specifier
        ((ImportTable.ofText (mergeImports t)).ofClass g.specifier ⟨.es, false⟩) ↔
      ∃ first others u, Relapses (ImportTable.ofText t) g first others u := by
  rw [isJoined_iff g.specifier fun s hs => form_of_mem_ofClass hs,
    one_lt_length_values_iff hg hcollapses,
    isApart_values_iff hg hcollapses]
  simp only [length_commentsOf_le_one_iff]
  constructor
  · rintro ⟨hsome, hapart, hc⟩
    simp only [mem_comments_values_iff hg hcollapses hsome] at hc
    obtain ⟨s, hs, r, hr⟩ := hsome
    obtain ⟨first, others, hvalues⟩ := List.exists_cons_of_ne_nil (List.ne_nil_of_mem hs)
    rw [hvalues] at hs hapart hc
    have hform : first.form = .es false := form_of_mem_ofClass (by rw [hvalues]; simp)
    obtain ⟨u, hu⟩ := (exists_union?_iff_isApart g.specifier hform).2 hapart
    have hc' : (commentsOf (first :: others)).length ≤ 1 := length_commentsOf_le_one_iff.2
      fun c hc₁ d hd => hc c (commentsOf_append_sub.2 (Or.inr hc₁)) d
        (commentsOf_append_sub.2 (Or.inr hd))
    refine ⟨first, others, u, hg, hcollapses, hvalues, hu, length_commentsOf_le_one_iff.2 hc, ?_⟩
    exact (exists_afterMerge?_first_iff hvalues hu hc').1 (exists_afterMerge?_first hvalues hs hr)
  · rintro ⟨first, others, u, h⟩
    have hc := length_commentsOf_le_one_iff.1 h.comments
    have hc' : (commentsOf (first :: others)).length ≤ 1 := length_commentsOf_le_one_iff.2
      fun c hc₁ d hd => hc c (commentsOf_append_sub.2 (Or.inr hc₁)) d
        (commentsOf_append_sub.2 (Or.inr hd))
    have hfirst : first ∈ (ImportTable.ofText t).ofClass g.specifier ⟨.es, false⟩ := by
      simp [h.values]
    obtain ⟨v, hv⟩ := (exists_afterMerge?_first_iff h.values h.union hc').2 h.read
    have hsome : ∃ s ∈ (ImportTable.ofText t).ofClass g.specifier ⟨.es, false⟩,
        ∃ r, (ImportTable.ofText t).afterMerge? s = some r := ⟨first, hfirst, v, hv⟩
    refine ⟨hsome, ?_, ?_⟩
    · rw [h.values]
      exact (exists_union?_iff_isApart g.specifier (form_of_mem_ofClass hfirst)).1 ⟨u, h.union⟩
    · simp only [mem_comments_values_iff hg hcollapses hsome, h.values]
      exact hc

/-- **When merging is idempotent.**  A second merge plans nothing and leaves the text as it is,
    unless imports of one module relapse. -/
theorem mergeImports_idempotent_iff (t : Text) :
    ((ImportTable.ofText (mergeImports t)).merge.replacements = [] ∧
      (ImportTable.ofText (mergeImports t)).merge.redirects = [] ∧
      mergeImports (mergeImports t) = mergeImports t) ↔
    ¬ ∃ types first others u, Relapses (ImportTable.ofText t) types first others u := by
  rw [merge_without_effect_iff]
  constructor
  · rintro h ⟨types, first, others, u, hrelapses⟩
    have hjoined := (isJoined_values_iff hrelapses.mem hrelapses.collapses).2
      ⟨first, others, u, hrelapses⟩
    obtain ⟨d, hd, -, -, hmerged⟩ := exists_group_of_isJoined hjoined
    rw [h d hd] at hmerged
    cases hmerged
  · intro h d hd
    by_contra hmerged
    rw [Bool.not_eq_false, isMerged_iff_isJoined hd] at hmerged
    by_cases hcollapse : ∃ g ∈ (ImportTable.ofText t).duplicateGroups, g.Collapses ∧
        g.specifier = d.specifier ∧ d.key = ⟨.es, false⟩
    · obtain ⟨g, hg, hcollapses, hspecifier, hkey⟩ := hcollapse
      rw [← hspecifier, hkey] at hmerged
      exact h ⟨g, (isJoined_values_iff hg hcollapses).1 hmerged⟩
    · refine not_isJoined_of_no_collapse (fun s hs r hr hspecifier hkey => ?_) hmerged
      rcases class_of_afterMerge? hs hr with ⟨hm, hk⟩ | ⟨g, hg, hcollapses, rfl, rfl⟩
      · exact ⟨hm.symm.trans hspecifier, hk.symm.trans hkey⟩
      · obtain ⟨hm, hk⟩ := class_collapsed hg ((ImportTable.ofText t).merge.lineAfter g.first.line)
        exact absurd ⟨g, hg, hcollapses, hm.symm.trans hspecifier, hkey.symm.trans hk⟩ hcollapse

/-- Two empty type imports in front of a value import: the first merge leaves a default import
    `type`, which the second merge joins with the value import. -/
theorem mergeImports_not_idempotent :
    ¬ ∀ t, (ImportTable.ofText (mergeImports t)).merge.replacements = [] ∧
      (ImportTable.ofText (mergeImports t)).merge.redirects = [] ∧
      mergeImports (mergeImports t) = mergeImports t := by
  intro h
  have hagain : mergeImports (mergeImports
      "import type {} from 'm';\nimport type {} from 'm';\nimport X from 'm';\n".toList) ≠
        mergeImports
          "import type {} from 'm';\nimport type {} from 'm';\nimport X from 'm';\n".toList := by
    decide +kernel
  exact hagain (h _).2.2

end ImportRepair
