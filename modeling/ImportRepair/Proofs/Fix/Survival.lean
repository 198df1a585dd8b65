import ImportRepair.Proofs.Fix.Evidence
import ImportRepair.Proofs.Merge.Idempotent

/-!
# Which bindings outlive a fix

A binding outlives a removal on its own line if no name of it reaches the line
and the line is still read.  Evidence names a line and not a statement, so a
merge that puts two statements on one line also puts their evidence together:
there a record against one statement takes a name from the other.
-/

namespace ImportRepair

open Text

variable {t l u x : Text} {evidence : List Evidence} {s r : Statement} {n m : Int}
variable {specifier : Text} {style : Style} {names names' : List Text}

/-- Some statement of the module in this style binds the name. -/
def ImportTable.Binds (table : ImportTable) (specifier : Text) (style : Style) (x : Text) : Prop :=
  ∃ r ∈ table, r.specifier = specifier ∧ r.form.style = style ∧ x ∈ r.boundNames

instance (table : ImportTable) : Decidable (table.Binds specifier style x) :=
  inferInstanceAs (Decidable (∃ r ∈ table, _))

/-! ### One line -/

/-- The statement is read again when names are dropped from it. -/
def Statement.IsShown (s : Statement) (names : List Text) : Prop :=
  (∃ y ∈ s.boundNames, y ∈ names) → ¬ s.IsHidden (s.kept names)

/-- The statement still binds the name when names are dropped from it. -/
structure Statement.Retains (s : Statement) (names : List Text) (x : Text) : Prop where
  bound : x ∈ s.boundNames
  kept : x ∉ names
  shown : s.IsShown names

theorem Statement.isShown_congr (h : ∀ y, y ∈ names ↔ y ∈ names') :
    s.IsShown names ↔ s.IsShown names' := by
  have hkept : s.kept names = s.kept names' := by
    refine List.filter_congr fun b _ => ?_
    rw [Bool.not_inj_iff, Bool.eq_iff_iff, List.contains_iff_mem, List.contains_iff_mem]
    exact h b.localName
  simp only [IsShown, hkept, h]

theorem bindings_ne_nil (h : x ∈ s.boundNames) : s.bindings ≠ [] := by
  obtain ⟨b, hb, -⟩ := List.mem_map.1 h
  exact List.ne_nil_of_mem hb

theorem keepUnlessEmpty_eq_some (h : bindsNothing l = false) :
    keepUnlessEmpty evidence l = some l := by
  unfold keepUnlessEmpty
  split
  · rfl
  · simp [Option.guard, h]

theorem eq_of_keepUnlessEmpty (h : keepUnlessEmpty evidence l = some u) : u = l := by
  unfold keepUnlessEmpty at h
  split at h
  · exact (Option.some.inj h).symm
  · exact (Option.guard_eq_some_iff.1 h).1.symm

/-- A line is read in the same way on every other line, if it has no byte order mark or does not
    leave the first line. -/
theorem Statement.ofLine?_of_mark (hmark : n = 1 ∨ l.hasMark = false) (hm : n = 1 → m = 1) :
    ofLine? l m = (ofLine? l n).map fun s => { s with line := m } := by
  rcases hmark with hn | hmark
  · exact ofLine?_move (by simp [hn, hm hn])
  · have hbare : ∀ k, bareLine l k = l.dropEndWhile (· == '\r') := fun k => by
      rw [bareLine, dropMark_of_hasMark_eq_false (hasMark_dropEndWhile hmark), ite_self]
    rw [ofLine?_eq, ofLine?_eq, hbare, hbare, ofBare?_move _ n]

/-- A statement that retains a name is left with all bindings that are not dropped. -/
theorem Statement.Retains.exists_lineWithout?
    (h : s.Retains (s.removedNames (namesAt evidence n)) x) (hs : ofLine? l n = some s)
    (hl : '\n' ∉ l) (hm : n = 1 → m = 1) :
    ∃ u r, lineWithout? evidence n l = some u ∧ ofLine? u m = some r ∧
      r.specifier = s.specifier ∧ r.form = s.form ∧
      ∀ b ∈ s.bindings, b.localName ∉ s.removedNames (namesAt evidence n) → b ∈ r.bindings := by
  have hne := bindings_ne_nil h.bound
  by_cases hlost : ∃ y ∈ s.boundNames, y ∈ s.removedNames (namesAt evidence n)
  · obtain ⟨new, hnew, hread⟩ := lineWithout?_of_changed hs hl hlost ⟨x, h.bound, h.kept⟩
    simp only [if_neg (h.shown hlost)] at hread
    have hkept : s.kept (s.removedNames (namesAt evidence n)) ≠ [] := by
      obtain ⟨b, hb, hname⟩ := List.mem_map.1 h.bound
      exact List.ne_nil_of_mem (mem_kept_iff.2 ⟨hb, hname ▸ h.kept⟩)
    have hfilled : bindsNothing new = false := bindsNothing_eq_false (hread 1) hkept
    exact ⟨new, _, by rw [hnew]; simp [Option.guard, hfilled], hread m, rfl, rfl,
      fun b hb hnot => mem_kept_iff.2 ⟨hb, hnot⟩⟩
  · have hkept : ∀ y ∈ s.boundNames, y ∉ s.removedNames (namesAt evidence n) := by
      simpa using hlost
    have hread := ofLine?_of_mark (mark_of_ofLine? hs) hm
    rw [hs, Option.map_some] at hread
    refine ⟨l, _, ?_, hread, rfl, rfl, fun b hb _ => hb⟩
    rw [lineWithout?_of_kept hs hl hkept, keepUnlessEmpty_eq_some (bindsNothing_eq_false hs hne)]

/-- A name that is read from what is left of a line was retained on it, or the line is one that
    begins with a byte order mark and has become the first. -/
theorem retains_of_lineWithout? (hu : lineWithout? evidence n l = some u) (hl : '\n' ∉ l)
    (hr : Statement.ofLine? u m = some r) (hx : x ∈ r.boundNames) (hm : n = 1 → m = 1) :
    (∃ s, Statement.ofLine? l n = some s ∧ r.specifier = s.specifier ∧ r.form = s.form ∧
      s.Retains (s.removedNames (namesAt evidence n)) x) ∨
    (m = 1 ∧ n ≠ 1 ∧ u = l ∧ l.hasMark = true) := by
  cases hs : Statement.ofLine? l n with
  | none =>
    rw [lineWithout?_of_none hs] at hu
    obtain rfl := eq_of_keepUnlessEmpty hu
    have hmark : ¬ (n = 1 ∨ u.hasMark = false) := by
      intro hmark
      rw [Statement.ofLine?_of_mark hmark hm, hs] at hr
      cases hr
    rw [not_or, Bool.not_eq_false] at hmark
    refine Or.inr ⟨?_, hmark.1, rfl, hmark.2⟩
    by_contra hm1
    rw [Statement.ofLine?_move (n := n) (m := m) (by simp [hmark.1, hm1]), hs] at hr
    cases hr
  | some s =>
    left
    by_cases hkept : ∀ y ∈ s.boundNames, y ∉ s.removedNames (namesAt evidence n)
    · rw [lineWithout?_of_kept hs hl hkept] at hu
      obtain rfl := eq_of_keepUnlessEmpty hu
      rw [Statement.ofLine?_of_mark (Statement.mark_of_ofLine? hs) hm, hs] at hr
      cases hr
      refine ⟨s, rfl, rfl, rfl, hx, hkept x hx, ?_⟩
      rintro ⟨y, hy, hmem⟩
      exact absurd hmem (hkept y hy)
    have hlost : ∃ y ∈ s.boundNames, y ∈ s.removedNames (namesAt evidence n) := by
      simpa using hkept
    by_cases hall : ∀ y ∈ s.boundNames, y ∈ s.removedNames (namesAt evidence n)
    · obtain ⟨y, hy, -⟩ := hlost
      rw [lineWithout?_of_lost hs hl (bindings_ne_nil hy) hall] at hu
      cases hu
    · obtain ⟨new, hnew, hread⟩ := lineWithout?_of_changed hs hl hlost (by simpa using hall)
      obtain ⟨rfl, -⟩ := Option.guard_eq_some_iff.1 (hnew.symm.trans hu)
      rw [hread] at hr
      split at hr
      · cases hr
      · next hshown =>
        cases hr
        obtain ⟨b, hb, hname⟩ := List.mem_map.1 hx
        obtain ⟨hb, hnot⟩ := Statement.mem_kept_iff.1 hb
        exact ⟨s, rfl, rfl, rfl, List.mem_map.2 ⟨b, hb, hname⟩, hname ▸ hnot, fun _ => hshown⟩

/-! ### A text -/

/-- A line that begins with a byte order mark becomes the first, because all lines in front of it
    go, and is then read as a statement that binds the name. -/
def Uncovers (evidence : List Evidence) (t : Text) (specifier : Text) (style : Style) (x : Text) :
    Prop :=
  ∃ n l r, (n, l) ∈ numberedLines t ∧ n ≠ 1 ∧ l.hasMark = true ∧
    (∀ p ∈ numberedLines t, p.1 < n → lineWithout? evidence p.1 p.2 = none) ∧
    Statement.ofLine? l 1 = some r ∧
    r.specifier = specifier ∧ r.form.style = style ∧ x ∈ r.boundNames

theorem mem_ofText_dropUnused_iff : r ∈ ImportTable.ofText (dropUnused evidence t) ↔
    ∃ pre p post u, numberedLines t = pre ++ p :: post ∧ lineWithout? evidence p.1 p.2 = some u ∧
      Statement.ofLine? u
        (1 + (pre.filterMap fun q => lineWithout? evidence q.1 q.2).length) = some r := by
  rw [ofText_dropUnused, List.mem_filterMap]
  constructor
  · rintro ⟨⟨m, u⟩, hmem, hr⟩
    obtain ⟨pre, p, post, hsplit, hu, rfl⟩ := mem_numberFrom_filterMap_iff.1 hmem
    exact ⟨pre, p, post, u, hsplit, hu, hr⟩
  · rintro ⟨pre, p, post, u, hsplit, hu, hr⟩
    exact ⟨(_, u), mem_numberFrom_filterMap_iff.2 ⟨pre, p, post, hsplit, hu, rfl⟩, hr⟩

/-- A statement that retains a name is found again in the text. -/
theorem Statement.Retains.binds (hs : s ∈ ImportTable.ofText t)
    (h : s.Retains (s.removedNames (namesAt evidence s.line)) x) :
    (ImportTable.ofText (dropUnused evidence t)).Binds s.specifier s.form.style x := by
  obtain ⟨l, hl, hread⟩ := mem_ofText_iff.1 hs
  obtain ⟨pre, post, hsplit⟩ := List.append_of_mem hl
  have hfirst : s.line = 1 →
      (1 + (pre.filterMap fun q => lineWithout? evidence q.1 q.2).length : Int) = 1 := by
    intro hone
    simp [front_eq_nil hsplit hone]
  obtain ⟨u, r, hu, hr, hspecifier, hform, hkept⟩ :=
    h.exists_lineWithout? hread (not_mem_of_mem_numberedLines hl) hfirst
  obtain ⟨b, hb, rfl⟩ := List.mem_map.1 h.bound
  exact ⟨r, mem_ofText_dropUnused_iff.2 ⟨pre, _, post, u, hsplit, hu, hr⟩, hspecifier,
    by rw [hform], List.mem_map_of_mem (hkept b hb h.kept)⟩

/-- A line that is uncovered is no statement where it stands, so nothing is taken from it. -/
theorem Uncovers.binds (h : Uncovers evidence t specifier style x) :
    (ImportTable.ofText (dropUnused evidence t)).Binds specifier style x := by
  obtain ⟨n, l, r, hl, hn, hmark, hnone, hread, hspecifier, hstyle, hx⟩ := h
  obtain ⟨pre, post, hsplit⟩ := List.append_of_mem hl
  have hnil : pre.filterMap (fun q => lineWithout? evidence q.1 q.2) = [] := by
    rw [List.filterMap_eq_nil_iff]
    intro q hq
    obtain ⟨hq, hlt⟩ := (mem_front_iff hsplit).1 hq
    exact hnone q hq hlt
  have hunread : Statement.ofLine? l n = none := by
    rw [Option.eq_none_iff_forall_ne_some]
    intro s hs
    rcases Statement.mark_of_ofLine? hs with h | h
    · exact hn h
    · rw [hmark] at h
      cases h
  have hu : lineWithout? evidence n l = some l := by
    rw [lineWithout?_of_none hunread,
      keepUnlessEmpty_eq_some (bindsNothing_eq_false hread (bindings_ne_nil hx))]
  refine ⟨r, mem_ofText_dropUnused_iff.2 ⟨pre, _, post, l, hsplit, hu, ?_⟩, hspecifier, hstyle, hx⟩
  simpa [hnil] using hread

/-- **Which bindings outlive a removal.** -/
theorem binds_dropUnused_iff :
    (ImportTable.ofText (dropUnused evidence t)).Binds specifier style x ↔
      (∃ s ∈ ImportTable.ofText t, s.specifier = specifier ∧ s.form.style = style ∧
        s.Retains (s.removedNames (namesAt evidence s.line)) x) ∨
      Uncovers evidence t specifier style x := by
  constructor
  · rintro ⟨r, hr, rfl, rfl, hx⟩
    obtain ⟨pre, ⟨n, l⟩, post, u, hsplit, hu, hread⟩ := mem_ofText_dropUnused_iff.1 hr
    have hl : (n, l) ∈ numberedLines t := by rw [hsplit]; simp
    have hfirst : n = 1 →
        (1 + (pre.filterMap fun q => lineWithout? evidence q.1 q.2).length : Int) = 1 := by
      intro hone
      simp [front_eq_nil hsplit hone]
    rcases retains_of_lineWithout? hu (not_mem_of_mem_numberedLines hl) hread hx hfirst with
      ⟨s, hs, hspecifier, hform, hretains⟩ | ⟨hm, hn, rfl, hmark⟩
    · have hline := Statement.ofLine?_line hs
      exact Or.inl ⟨s, mem_ofText_iff.2 ⟨l, hline ▸ hl, hline ▸ hs⟩, hspecifier.symm,
        by rw [hform], hline ▸ hretains⟩
    · have hnil : pre.filterMap (fun q => lineWithout? evidence q.1 q.2) = [] := by
        rw [← List.length_eq_zero_iff]
        omega
      rw [hm] at hread
      refine Or.inr ⟨n, u, r, hl, hn, hmark, fun q hq hlt => ?_, hread, rfl, rfl, hx⟩
      exact List.filterMap_eq_nil_iff.1 hnil q ((mem_front_iff hsplit).2 ⟨hq, hlt⟩)
  · rintro (⟨s, hs, rfl, rfl, hretains⟩ | huncovers)
    · exact hretains.binds hs
    · exact huncovers.binds

/-! ### A merge -/

theorem DuplicateGroup.settled_eq {g : DuplicateGroup} {u : Union}
    (hu : union? g.specifier g.first g.later = some u) (hc : g.comments.length ≤ 1) :
    g.settled = u.ambiguities := by
  have hc : ¬ 1 < g.comments.length := by omega
  simp only [settled, verdict, hu, if_neg hc]

/-- The statement that takes over a group binds the names of the group, but for those that an
    ambiguity drops. -/
theorem bound_of_group {g : DuplicateGroup} {new : Text}
    (hg : g ∈ (ImportTable.ofText t).duplicateGroups) (hnew : g.mergedLine? = some new)
    (hs : s ∈ g.statements) (hx : x ∈ s.boundNames)
    (hsettled : ∀ a ∈ (ImportTable.ofText t).merge.ambiguities, a.specifier = s.specifier →
      x ∉ a.dropped)
    (hr : (ImportTable.ofText t).afterMerge? g.first = some r) :
    r.specifier = s.specifier ∧ r.form.style = s.form.style ∧ x ∈ r.boundNames := by
  obtain ⟨u, hu, hc, -⟩ := DuplicateGroup.mergedLine?_eq_some_iff.1 hnew
  obtain ⟨-, hspecifier, hkey⟩ := ImportTable.mem_of_mem_statements hg hs
  obtain ⟨-, hspecifier', hkey'⟩ :=
    ImportTable.mem_of_mem_statements hg (ImportTable.first_mem_statements g)
  rcases afterMerge?_first_cases hg hu hc with ⟨-, hread⟩ | ⟨hcollapses, -⟩ | ⟨-, -, hread⟩
  · rw [hread] at hr
    cases hr
    refine ⟨hspecifier'.trans hspecifier.symm,
      congrArg MergeKey.style (hkey'.trans hkey.symm), ?_⟩
    rcases mem_boundNames_union (isClass_statements hg) hu hs hx with
      hmem | ⟨a, ha, hmodule, hdropped⟩
    · exact hmem
    · refine absurd hdropped (hsettled a ?_ (hmodule.trans hspecifier.symm))
      exact List.mem_flatMap.2 ⟨g, hg, by rw [DuplicateGroup.settled_eq hu hc]; exact ha⟩
  · exact absurd (hcollapses.empty s hs) (bindings_ne_nil hx)
  · rw [hread] at hr
    cases hr

/-- The statement that a merge leaves where a statement ends up binds the names of that. -/
theorem bound_of_lineAfter (hs : s ∈ ImportTable.ofText t) (hx : x ∈ s.boundNames)
    (hsettled : ∀ a ∈ (ImportTable.ofText t).merge.ambiguities, a.specifier = s.specifier →
      x ∉ a.dropped)
    (hr : r ∈ ImportTable.ofText (mergeImports t))
    (hline : r.line = (ImportTable.ofText t).merge.lineAfter s.line) :
    r.specifier = s.specifier ∧ r.form.style = s.form.style ∧ x ∈ r.boundNames := by
  obtain ⟨s', hs', hr⟩ := mem_ofText_mergeImports_iff.1 hr
  obtain ⟨hkept, hline'⟩ := line_of_afterMerge? hs' hr
  rcases ((isFor_merge t).lineAfter_eq_iff hkept).1 (hline.symm.trans hline') with heq | hredirect
  · obtain rfl := eq_of_line_eq hs' hs heq.symm
    rcases ImportTable.merged_cases (ImportTable.ofText t) s' with
      hnot | ⟨g, hg, new, hnew, rfl | hlater⟩
    · rw [ImportTable.afterMerge?_of_not_merged hs hnot] at hr
      cases hr
      exact ⟨rfl, rfl, hx⟩
    · exact bound_of_group hg hnew (ImportTable.first_mem_statements g) hx hsettled hr
    · rw [ImportTable.afterMerge?_later (isSorted_ofText t) hg hnew hlater] at hr
      cases hr
  · obtain ⟨g, hg, hmerged, hfirst, s'', hs'', heq⟩ := ImportTable.mem_redirects_iff.1 hredirect
    obtain ⟨new, hnew⟩ := DuplicateGroup.isMerged_iff.1 hmerged
    have hsg := ImportTable.mem_statements_of_later hs''
    obtain rfl := eq_of_line_eq (ImportTable.mem_of_mem_statements hg hsg).1 hs heq
    obtain rfl := eq_of_line_eq hs'
      (ImportTable.mem_of_mem_statements hg (ImportTable.first_mem_statements g)).1 hfirst
    exact bound_of_group hg hnew hsg hx hsettled hr

/-! ### A fix -/

/-- The names that evidence certifies on a line of the merged text. -/
def certifiedNames (table : ImportTable) (plan : MergePlan) (evidence : List Evidence) (n : Int) :
    List Text :=
  (evidence.filter fun e => plan.lineAfter e.line == n).flatMap (·.certified table)

theorem mem_certifiedNames_iff {table : ImportTable} {plan : MergePlan} :
    x ∈ certifiedNames table plan evidence n ↔
      ∃ e ∈ evidence, plan.lineAfter e.line = n ∧ x ∈ e.certified table := by
  simp [certifiedNames, and_assoc]

/-- The name outlives a fix on the line of the statement: the statement that the merge leaves there
    is read after the removal, and no record against another statement that the merge puts there
    names it. -/
def OutlivesOnLine (t : Text) (evidence : List Evidence) (s : Statement) (x : Text) : Prop :=
  ∃ r ∈ ImportTable.ofText (mergeImports t),
    r.line = (ImportTable.ofText t).merge.lineAfter s.line ∧
    r.IsShown (certifiedNames (ImportTable.ofText t) (ImportTable.ofText t).merge evidence r.line) ∧
    ∀ e ∈ evidence, e.line ≠ s.line →
      (ImportTable.ofText t).merge.lineAfter e.line =
        (ImportTable.ofText t).merge.lineAfter s.line →
      x ∉ e.certified (ImportTable.ofText t)

/-- The name outlives a fix on another line, in a statement of the same module and style. -/
def OutlivesElsewhere (t : Text) (evidence : List Evidence) (s : Statement) (x : Text) : Prop :=
  ∃ r ∈ ImportTable.ofText (mergeImports t),
    r.line ≠ (ImportTable.ofText t).merge.lineAfter s.line ∧
    r.specifier = s.specifier ∧ r.form.style = s.form.style ∧
    r.Retains
      (certifiedNames (ImportTable.ofText t) (ImportTable.ofText t).merge evidence r.line) x

/-- A fix of both kinds drops the moved evidence from the merged text. -/
theorem text_certifiedFix_both (evidence : List Evidence) (t : Text) :
    (certifiedFix {} evidence t).text = dropUnused
      (moveEvidence (ImportTable.ofText t) (ImportTable.ofText t).merge evidence)
      (mergeImports t) := by
  rw [mergeImports, MergePlan.apply_eq]
  exact text_certifiedFix true evidence t

/-- The names that the moved evidence drops from a statement of the merged text. -/
theorem mem_removedNames_mergeImports_iff (hr : r ∈ ImportTable.ofText (mergeImports t)) :
    x ∈ r.removedNames (namesAt (moveEvidence (ImportTable.ofText t)
      (ImportTable.ofText t).merge evidence) r.line) ↔
    x ∈ certifiedNames (ImportTable.ofText t) (ImportTable.ofText t).merge evidence r.line := by
  have hon := onLine?_eq_some_iff.2 ⟨hr, rfl⟩
  rw [mergeImports, MergePlan.apply_eq] at hon
  rw [mem_removedNames_iff (isFor_merge t) hon, mem_certifiedNames_iff]

/-- **When a fix keeps a binding** that no record against its own statement and no ambiguity takes.
    The merge may put the evidence against another statement on its line; then the binding is lost,
    unless another statement of the module still holds it. -/
theorem certifiedFix_keeps_binding_iff (hs : s ∈ ImportTable.ofText t) (hx : x ∈ s.boundNames)
    (hnamed : ∀ e ∈ evidence, e.line = s.line → e.name ≠ some x)
    (hwhole : ∀ e ∈ evidence, e.line = s.line → e.name ≠ none)
    (hsettled : ∀ a ∈ (ImportTable.ofText t).merge.ambiguities, a.specifier = s.specifier →
      x ∉ a.dropped) :
    (ImportTable.ofText (certifiedFix {} evidence t).text).Binds s.specifier s.form.style x ↔
      OutlivesOnLine t evidence s x ∨ OutlivesElsewhere t evidence s x ∨
      Uncovers (moveEvidence (ImportTable.ofText t) (ImportTable.ofText t).merge evidence)
        (mergeImports t) s.specifier s.form.style x := by
  have hnames : ∀ r ∈ ImportTable.ofText (mergeImports t), ∀ y,
      y ∈ r.removedNames (namesAt (moveEvidence (ImportTable.ofText t)
        (ImportTable.ofText t).merge evidence) r.line) ↔
      y ∈ certifiedNames (ImportTable.ofText t) (ImportTable.ofText t).merge evidence r.line :=
    fun r hr y => mem_removedNames_mergeImports_iff hr
  rw [text_certifiedFix_both, binds_dropUnused_iff, ← or_assoc]
  refine or_congr_left ?_
  constructor
  · rintro ⟨r, hr, hspecifier, hstyle, hretains⟩
    have hkept := (hnames r hr x).not.1 hretains.kept
    have hshown := (Statement.isShown_congr (hnames r hr)).1 hretains.shown
    by_cases hline : r.line = (ImportTable.ofText t).merge.lineAfter s.line
    · refine Or.inl ⟨r, hr, hline, hshown, fun e he _ heq hmem => hkept ?_⟩
      exact mem_certifiedNames_iff.2 ⟨e, he, heq.trans hline.symm, hmem⟩
    · exact Or.inr ⟨r, hr, hline, hspecifier, hstyle, hretains.bound, hkept, hshown⟩
  · rintro (⟨r, hr, hline, hshown, hothers⟩ | ⟨r, hr, -, hspecifier, hstyle, hretains⟩)
    · obtain ⟨hspecifier, hstyle, hbound⟩ := bound_of_lineAfter hs hx hsettled hr hline
      refine ⟨r, hr, hspecifier, hstyle, hbound, (hnames r hr x).not.2 fun hmem => ?_,
        (Statement.isShown_congr (hnames r hr)).2 hshown⟩
      obtain ⟨e, he, heq, hmem⟩ := mem_certifiedNames_iff.1 hmem
      by_cases hown : e.line = s.line
      · -- a record against the statement itself names something else
        cases hname : e.name with
        | none => exact hwhole e he hown hname
        | some y =>
          have hxy : x = y := by simpa [Evidence.certified, hname] using hmem
          exact hnamed e he hown (hxy ▸ hname)
      · exact hothers e he hown (heq.trans hline) hmem
    · exact ⟨r, hr, hspecifier, hstyle, hretains.bound, (hnames r hr x).not.2 hretains.kept,
        (Statement.isShown_congr (hnames r hr)).2 hretains.shown⟩

/-- A record follows its statement to the line of another one and leaves the names of that. -/
theorem certifiedFix_keeps_binding_default :
    let t := "import A from 'x';\nimport { b } from 'x';\n".toList
    let evidence : List Evidence := [{ line := 2, name := none }]
    let s : Statement :=
      { specifier := "x".toList, bindings := [defaultOf false "A".toList], line := 1
        raw := "import A from 'x';".toList, form := .es false, quote := .single, semicolon := true
        indent := [], trailing := [] }
    s ∈ ImportTable.ofText t ∧ "A".toList ∈ s.boundNames ∧
    (∀ e ∈ evidence, e.line = s.line → e.name ≠ some "A".toList) ∧
    (∀ e ∈ evidence, e.line = s.line → e.name ≠ none) ∧
    (∀ a ∈ (ImportTable.ofText t).merge.ambiguities, a.specifier = s.specifier →
      "A".toList ∉ a.dropped) ∧
    ((ImportTable.ofText (certifiedFix {} evidence t).text).Binds
      s.specifier s.form.style "A".toList ↔
      OutlivesOnLine t evidence s "A".toList ∨ OutlivesElsewhere t evidence s "A".toList ∨
      Uncovers (moveEvidence (ImportTable.ofText t) (ImportTable.ofText t).merge evidence)
        (mergeImports t) s.specifier s.form.style "A".toList) := by
  intro t evidence s
  have hs : s ∈ ImportTable.ofText t := by decide +kernel
  have hx : "A".toList ∈ s.boundNames := by decide +kernel
  have hnamed : ∀ e ∈ evidence, e.line = s.line → e.name ≠ some "A".toList := by decide +kernel
  have hwhole : ∀ e ∈ evidence, e.line = s.line → e.name ≠ none := by decide +kernel
  have hsettled : ∀ a ∈ (ImportTable.ofText t).merge.ambiguities, a.specifier = s.specifier →
      "A".toList ∉ a.dropped := by decide +kernel
  exact ⟨hs, hx, hnamed, hwhole, hsettled,
    certifiedFix_keeps_binding_iff hs hx hnamed hwhole hsettled⟩

/-- A record against a repeated import takes the binding of the first import as well. -/
theorem certifiedFix_loses_binding :
    let t := "import { A } from 'x';\nimport { A } from 'x';\n".toList
    let evidence : List Evidence := [{ line := 2, name := some "A".toList }]
    ∃ s ∈ ImportTable.ofText t, "A".toList ∈ s.boundNames ∧
      (∀ e ∈ evidence, e.line = s.line → e.name ≠ some "A".toList ∧ e.name ≠ none) ∧
      (∀ a ∈ (ImportTable.ofText t).merge.ambiguities, "A".toList ∉ a.dropped) ∧
      ¬ (ImportTable.ofText (certifiedFix {} evidence t).text).Binds s.specifier s.form.style
        "A".toList := by
  decide +kernel

end ImportRepair
