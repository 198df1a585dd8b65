import ImportRepair.Proofs.Fix.Survival
import ImportRepair.Proofs.Merge.Renumbering

/-!
# Names that win a merge

Where the statements of a class disagree on a default name, an alias or a whole
module, the merge keeps the first name and reports the others.  It does not look
at evidence: where the name that it keeps is certified unused, the removal takes
that name and nothing is left of the others.  In every other case the fixed text
still binds a name of this kind that is used.
-/

namespace ImportRepair

open Text

variable {t l x w new : Text} {evidence : List Evidence} {s : Statement} {b : Binding} {n m : Int}
variable {specifier : Text} {key : MergeKey} {kind : UniqueKind} {g : DuplicateGroup} {u : Union}

/-! ### Lines up to their comment -/

/-- The line is read as the statement, with or without the comment at its end. -/
def Statement.IsOn (s : Statement) (l : Text) (n : Int) : Prop :=
  ∃ u c, bareLine l n = u ++ c ∧ IsComment c ∧ Statement.ofBare? u n = some s

theorem Statement.isOn_of_ofLine? (h : ofLine? l n = some s) : s.IsOn l n :=
  ⟨bareLine l n, [], (List.append_nil _).symm, isComment_nil, h⟩

/-- A default name `type` that the comment of its line hides is read without the comment. -/
theorem Statement.exists_isOn_wordType (hw : s.IsWritable) (hform : s.form = .es false)
    (hl : bareLine l n = s.render [defaultOf false "type".toList]) :
    ∃ r : Statement, r.IsOn l n ∧ r.specifier = s.specifier ∧ r.form = s.form ∧
      r.bindings = [defaultOf false "type".toList] := by
  obtain ⟨s', hs'⟩ : ∃ s' : Statement, s' = { s with trailing := [] } := ⟨_, rfl⟩
  have hw' : s'.IsWritable := by
    rw [hs']
    exact ⟨hw.specifier_ne, hw.specifier_chars, hw.indent, isComment_nil⟩
  have hform' : s'.form = .es false := by rw [hs', hform]
  have hread := Statement.ofBare?_render_type (n := n) hw' hform'
  rw [Statement.hidesType_eq_false hw' (by rw [hs'])] at hread
  have htext : s.render [defaultOf false "type".toList] =
      s'.render [defaultOf false "type".toList] ++ s.trailing := by
    rw [hs']
    simp [render, hform, closingText, quotedSpecifier]
  refine ⟨_, ⟨_, s.trailing, hl.trans htext, hw.comment, hread⟩, ?_, ?_, rfl⟩
  · rw [hs']
    rfl
  · rw [hs']
    rfl

/-! ### Names that a text holds -/

/-- A line of the text binds the name in this kind, for the module and in the class. -/
def HoldsName (t specifier : Text) (key : MergeKey) (kind : UniqueKind) (x : Text) : Prop :=
  ∃ n l, (n, l) ∈ numberedLines t ∧ ∃ s : Statement, s.IsOn l n ∧
    s.specifier = specifier ∧ s.mergeKey = key ∧ s.BindsAs kind x

theorem mergeKey_of_form_eq {r : Statement} (h : r.form = s.form) : r.mergeKey = s.mergeKey := by
  rw [Statement.mergeKey, Statement.mergeKey, h]

/-- A binding that is not dropped from its statement is still there. -/
theorem holdsName_of_kept (hs : s ∈ ImportTable.ofText t) (hb : b ∈ s.bindings)
    (hkind : b.kind = kind.ofBindings)
    (hkept : b.localName ∉ s.removedNames (namesAt evidence s.line)) :
    HoldsName (dropUnused evidence t) s.specifier s.mergeKey kind b.localName := by
  obtain ⟨l, hl, hread⟩ := mem_ofText_iff.1 hs
  have hline := not_mem_of_mem_numberedLines hl
  have hbound : b.localName ∈ s.boundNames := List.mem_map_of_mem hb
  by_cases hshown : s.IsShown (s.removedNames (namesAt evidence s.line))
  · have hretains : s.Retains (s.removedNames (namesAt evidence s.line)) b.localName :=
      ⟨hbound, hkept, hshown⟩
    obtain ⟨u, -, hu, -⟩ := hretains.exists_lineWithout? hread hline (m := 1) fun _ => rfl
    obtain ⟨m, v, hv, hm, hbare⟩ := exists_mem_numberedLines_dropUnused hl hu
    obtain ⟨u', r, hu', hr, hspecifier, hform, hall⟩ :=
      hretains.exists_lineWithout? hread hline hm
    obtain rfl := Option.some.inj (hu.symm.trans hu')
    have hread' : Statement.ofLine? v m = some r := by
      rw [Statement.ofLine?_eq, hbare]
      exact hr
    exact ⟨m, v, hv, r, Statement.isOn_of_ofLine? hread', hspecifier, mergeKey_of_form_eq hform,
      b, hall b hb hkept, hkind, rfl⟩
  · -- the statement keeps a default name `type` only, which its comment hides
    rw [Statement.IsShown, Classical.not_imp, not_not] at hshown
    obtain ⟨hlost, hhidden⟩ := hshown
    have hw := (Statement.isRead_of_ofLine? hread).writable
    obtain ⟨m, v, hv, -, hbare⟩ :=
      exists_mem_numberedLines_dropUnused hl (lineWithout?_of_isHidden hread hlost hhidden)
    rw [bareLine_keepReturn (Statement.isBare_render hw _)] at hbare
    obtain ⟨r, hr, hspecifier, hform, hbindings⟩ :=
      Statement.exists_isOn_wordType hw hhidden.1 hbare
    have hmem : b ∈ r.bindings := by
      rw [hbindings, ← hhidden.2.1]
      exact Statement.mem_kept_iff.2 ⟨hb, hkept⟩
    exact ⟨m, v, hv, r, hr, hspecifier, mergeKey_of_form_eq hform, b, hmem, hkind, rfl⟩

/-- A default name `type` that is not read stays on its line. -/
theorem holdsName_of_hidden (hl : (n, l) ∈ numberedLines t) (hnone : Statement.ofLine? l n = none)
    (hw : s.IsWritable) (hform : s.form = .es false)
    (hbare : bareLine l n = s.render [defaultOf false "type".toList]) :
    HoldsName (dropUnused evidence t) s.specifier s.mergeKey .defaultName "type".toList := by
  have hu : lineWithout? evidence n l = some l := by
    have hkept := bindsNothing_of_wordType hw hform hbare
    rw [lineWithout?_of_none hnone, keepUnlessEmpty_eq_some hkept]
  obtain ⟨m, v, hv, hm, hsame⟩ := exists_mem_numberedLines_dropUnused hl hu
  have hmark : (bareLine l n).hasMark = false := by
    rw [hbare]
    exact (Statement.isBare_render hw _).mark
  rw [bareLine_move hmark hm, hbare] at hsame
  obtain ⟨r, hr, hspecifier, hform', hbindings⟩ := Statement.exists_isOn_wordType hw hform hsame
  exact ⟨m, v, hv, r, hr, hspecifier, mergeKey_of_form_eq hform', defaultOf false "type".toList,
    by rw [hbindings]; exact List.mem_singleton_self _, rfl, rfl⟩

/-! ### Evidence in a class -/

/-- Some record on a line of the class certifies the name. -/
def IsCertifiedIn (table : ImportTable) (evidence : List Evidence) (specifier : Text)
    (key : MergeKey) (x : Text) : Prop :=
  ∃ s ∈ table.ofClass specifier key, ∃ e ∈ evidence, e.line = s.line ∧ x ∈ e.certified table

/-- Some statement of the class binds the name in this kind, and no record on its line certifies
    it. -/
def IsUsedAs (table : ImportTable) (evidence : List Evidence) (specifier : Text) (key : MergeKey)
    (kind : UniqueKind) (x : Text) : Prop :=
  ∃ s ∈ table.ofClass specifier key, s.BindsAs kind x ∧
    ∀ e ∈ evidence, e.line = s.line → x ∉ e.certified table

instance (table : ImportTable) : Decidable (IsCertifiedIn table evidence specifier key x) :=
  inferInstanceAs (Decidable (∃ s ∈ table.ofClass specifier key, _))

instance (table : ImportTable) : Decidable (IsUsedAs table evidence specifier key kind x) :=
  inferInstanceAs (Decidable (∃ s ∈ table.ofClass specifier key, _))

theorem isAdmitted_of_mem_ofClass
    (hs : s ∈ (ImportTable.ofText t).ofClass specifier key) : s.IsAdmitted :=
  (isRead_of_mem_ofText (ImportTable.mem_ofClass_iff.1 hs).1).admits

/-- Only records on the lines of a group reach the line of its first statement. -/
theorem exists_line_of_mem_certifiedNames_first
    (hg : g ∈ (ImportTable.ofText t).duplicateGroups)
    (h : x ∈ certifiedNames (ImportTable.ofText t) (ImportTable.ofText t).merge evidence
      ((ImportTable.ofText t).merge.lineAfter g.first.line)) :
    IsCertifiedIn (ImportTable.ofText t) evidence g.specifier g.key x := by
  obtain ⟨e, he, hline, hx⟩ := mem_certifiedNames_iff.1 h
  have hkept := ImportTable.first_not_mem_deletions (isSorted_ofText t) hg
  have hclass := ImportTable.mem_duplicateGroups_iff.1 hg
  have hfirst := ImportTable.first_mem_statements g
  rcases ((isFor_merge t).lineAfter_eq_iff hkept).1 hline with heq | hredirect
  · exact ⟨g.first, hclass ▸ hfirst, e, he, heq, hx⟩
  · obtain ⟨g', hg', -, hfirst', s, hs, hs'⟩ := ImportTable.mem_redirects_iff.1 hredirect
    have hsame := eq_of_line_eq
      (ImportTable.mem_of_mem_statements hg hfirst).1
      (ImportTable.mem_of_mem_statements hg' (ImportTable.first_mem_statements g')).1 hfirst'
    obtain rfl := ImportTable.eq_of_mem_statements hg hg' hfirst
      (hsame ▸ ImportTable.first_mem_statements g')
    exact ⟨s, hclass ▸ ImportTable.mem_statements_of_later hs, e, he, hs'.symm, hx⟩

/-- Only records on its own line reach a statement of a class that is not merged. -/
theorem line_of_mem_certifiedNames
    (hjoined : ¬ IsJoined specifier ((ImportTable.ofText t).ofClass specifier key))
    (hs : s ∈ (ImportTable.ofText t).ofClass specifier key)
    (h : x ∈ certifiedNames (ImportTable.ofText t) (ImportTable.ofText t).merge evidence
      ((ImportTable.ofText t).merge.lineAfter s.line)) :
    ∃ e ∈ evidence, e.line = s.line ∧ x ∈ e.certified (ImportTable.ofText t) := by
  have hmem := (ImportTable.mem_ofClass_iff.1 hs).1
  have halone : ∀ g ∈ (ImportTable.ofText t).duplicateGroups, g.isMerged = true →
      s ∉ g.statements := by
    intro g hg hmerged hsg
    obtain ⟨rfl, rfl, -⟩ := ImportTable.statements_of_mem_ofClass hg hs hsg
    exact hjoined ((isMerged_iff_isJoined hg).1 hmerged)
  have hkept := ImportTable.not_mem_deletions (isSorted_ofText t) hmem fun g hg hmerged hlater =>
    halone g hg hmerged (ImportTable.mem_statements_of_later hlater)
  obtain ⟨e, he, hline, hx⟩ := mem_certifiedNames_iff.1 h
  rcases ((isFor_merge t).lineAfter_eq_iff hkept).1 hline with heq | hredirect
  · exact ⟨e, he, heq, hx⟩
  · obtain ⟨g, hg, hmerged, hfirst, -⟩ := ImportTable.mem_redirects_iff.1 hredirect
    have hsame := eq_of_line_eq hmem
      (ImportTable.mem_of_mem_statements hg (ImportTable.first_mem_statements g)).1 hfirst
    exact absurd (hsame ▸ ImportTable.first_mem_statements g) (halone g hg hmerged)

/-! ### The name that wins -/

/-- A fix keeps a binding of the merged text that no record certifies. -/
theorem holdsName_of_uncertified {r : Statement} (hr : r ∈ ImportTable.ofText (mergeImports t))
    (hb : b ∈ r.bindings) (hkind : b.kind = kind.ofBindings)
    (hunused : b.localName ∉
      certifiedNames (ImportTable.ofText t) (ImportTable.ofText t).merge evidence r.line) :
    HoldsName (certifiedFix {} evidence t).text r.specifier r.mergeKey kind b.localName := by
  rw [text_certifiedFix_both]
  exact holdsName_of_kept hr hb hkind (mt (mem_removedNames_mergeImports_iff hr).1 hunused)

/-- The first line of a group changes if it is not read any more. -/
theorem mem_replacements_of_unread (hg : g ∈ (ImportTable.ofText t).duplicateGroups)
    (hnew : g.mergedLine? = some new)
    (hnone : (ImportTable.ofText t).afterMerge? g.first = none) :
    (g.first.line, new) ∈ (ImportTable.ofText t).merge.replacements := by
  have hfirst := ImportTable.mem_of_mem_statements hg (ImportTable.first_mem_statements g)
  have hraw : new ≠ g.first.raw := by
    intro hraw
    have hagain := (isRead_of_mem_ofText hfirst.1).again
      ((ImportTable.ofText t).merge.lineAfter g.first.line)
    rw [ImportTable.afterMerge?_first hg hnew] at hnone
    rw [Statement.ofLine?_eq, ← hraw, bareLine_of_isBare (isBare_mergedLine hg hnew).1,
      hnone] at hagain
    cases hagain
  exact ImportTable.mem_replacements_iff.2 ⟨g, hg, rfl, hraw, hnew⟩

/-- The new line of a group stands in the merged text. -/
theorem exists_mem_numberedLines_mergeImports (hs : s ∈ ImportTable.ofText t) (hbare : IsBare new)
    (hnew : (s.line, new) ∈ (ImportTable.ofText t).merge.replacements) :
    ∃ v, ((ImportTable.ofText t).merge.lineAfter s.line, v) ∈ numberedLines (mergeImports t) ∧
      bareLine v ((ImportTable.ofText t).merge.lineAfter s.line) = new := by
  have hfor := isFor_merge t
  obtain ⟨l, hl, hread⟩ := mem_ofText_iff.1 hs
  have hmarked := markedLine?_merge_of_replaced hl hnew
  have hkept := LineEdits.not_mem_of_markedLine?_eq_some hmarked
  have hmark : l.hasMark = true → (ImportTable.ofText t).merge.lineAfter s.line = 1 := by
    intro hmark
    rcases Statement.mark_of_ofLine? hread with hone | hfalse
    · rw [MergePlan.IsFor.lineAfter_of_not_mem hkept, hone]
      exact LineEdits.newNumber_first hfor.first
    · rw [hmark] at hfalse
      cases hfalse
  refine ⟨writtenOver l new, ?_, bareLine_writtenOver hbare hmark⟩
  rw [mergeImports, MergePlan.apply_eq]
  exact hfor.mem_numberedLines_apply hl hmarked

/-- The line that is written for a group, where its default name `type` is not read. -/
theorem holdsName_of_hidden_winner (hg : g ∈ (ImportTable.ofText t).duplicateGroups)
    (hu : union? g.specifier g.first g.later = some u) (hc : g.comments.length ≤ 1)
    (hform : g.first.form = .es false) (hbs : u.bindings = [defaultOf false "type".toList])
    (hnone : (ImportTable.ofText t).afterMerge? g.first = none) :
    HoldsName (dropUnused evidence (mergeImports t)) g.specifier g.key .defaultName
      "type".toList := by
  have hnew := DuplicateGroup.mergedLine?_eq_some_iff.2 ⟨u, hu, hc, rfl⟩
  have hfirst := ImportTable.mem_of_mem_statements hg (ImportTable.first_mem_statements g)
  have hbare := (isBare_mergedLine hg hnew).1
  obtain ⟨v, hv, hwritten⟩ := exists_mem_numberedLines_mergeImports hfirst.1 hbare
    (mem_replacements_of_unread hg hnew hnone)
  have hunread : Statement.ofLine? v ((ImportTable.ofText t).merge.lineAfter g.first.line) =
      none := by
    rw [ImportTable.afterMerge?_first hg hnew] at hnone
    rw [Statement.ofLine?_eq, hwritten, hnone]
  have hholds : HoldsName (dropUnused evidence (mergeImports t)) _ _ _ _ :=
    holdsName_of_hidden hv hunread (isWritable_template_of_mem hg).1
      (g.template_form.trans hform) (by rw [hwritten, hbs])
  have hspecifier : g.template.specifier = g.specifier := by
    rw [g.template_eq]
    exact hfirst.2.1
  rwa [hspecifier, mergeKey_of_form_eq g.template_form, hfirst.2.2] at hholds

/-- The first name of a kind stays bound, unless a record on a line of its group certifies it. -/
theorem holdsName_of_winner (hg : g ∈ (ImportTable.ofText t).duplicateGroups)
    (hmerged : g.isMerged = true) (hw : (uniqueNames kind g.statements).head? = some w)
    (hunused : ¬ IsCertifiedIn (ImportTable.ofText t) evidence g.specifier g.key w) :
    HoldsName (certifiedFix {} evidence t).text g.specifier g.key kind w := by
  obtain ⟨new, hnew⟩ := DuplicateGroup.isMerged_iff.1 hmerged
  obtain ⟨u, hu, hc, -⟩ := DuplicateGroup.mergedLine?_eq_some_iff.1 hnew
  obtain ⟨⟨b, hb, hkind, rfl⟩, -⟩ := first_wins_of_union (isClass_statements hg) hu hw
  have hfirst := ImportTable.mem_of_mem_statements hg (ImportTable.first_mem_statements g)
  rcases afterMerge?_first_cases hg hu hc with ⟨-, hread⟩ | ⟨hcollapses, -⟩ | ⟨hnot, -, hread⟩
  · have hr := mem_ofText_mergeImports_iff.2 ⟨g.first, hfirst.1, hread⟩
    have hholds := holdsName_of_uncertified hr hb hkind fun hmem =>
      hunused (exists_line_of_mem_certifiedNames_first hg hmem)
    rwa [show (g.takeover u _).specifier = g.specifier from hfirst.2.1,
      show (g.takeover u _).mergeKey = g.key from hfirst.2.2] at hholds
  · rw [(union_bindings_eq_nil_iff (isClass_statements hg) hu).2 hcollapses.empty] at hb
    cases hb
  · have hne : u.bindings ≠ [] := List.ne_nil_of_mem hb
    by_cases htype : g.first.form = .es false ∧ u.bindings = [defaultOf false "type".toList]
    · obtain ⟨hform, hbs⟩ := htype
      rw [hbs, List.mem_singleton] at hb
      subst hb
      have hdefault : kind = .defaultName := by cases kind <;> first | rfl | cases hkind
      rw [hdefault, text_certifiedFix_both]
      exact holdsName_of_hidden_winner hg hu hc hform hbs hread
    · exact absurd ⟨fun hnil => absurd hnil hne,
        fun hform hbs => absurd ⟨hform, hbs⟩ htype⟩ hnot

/-- A used name of a class that is not merged stays bound. -/
theorem holdsName_of_not_isJoined
    (hjoined : ¬ IsJoined specifier ((ImportTable.ofText t).ofClass specifier key))
    (hs : s ∈ (ImportTable.ofText t).ofClass specifier key) (hx : s.BindsAs kind x)
    (hunused : ∀ e ∈ evidence, e.line = s.line → x ∉ e.certified (ImportTable.ofText t)) :
    HoldsName (certifiedFix {} evidence t).text specifier key kind x := by
  obtain ⟨b, hb, hkind, rfl⟩ := hx
  obtain ⟨hmem, rfl, rfl⟩ := ImportTable.mem_ofClass_iff.1 hs
  have hr := mem_ofText_mergeImports_iff.2 ⟨s, hmem, afterMerge?_of_not_isJoined hjoined hs⟩
  have hholds := holdsName_of_uncertified hr hb hkind fun hcertified => by
    obtain ⟨e, he, hline, hname⟩ := line_of_mem_certifiedNames hjoined hs hcertified
    exact hunused e he hline hname
  exact hholds

/-- The first name of a merged class stays bound if no record certifies it, and the used names of a
    class that is not merged stay bound anyway. -/
theorem exists_holdsName_certifiedFix
    (hused : ∃ x, IsUsedAs (ImportTable.ofText t) evidence specifier key kind x)
    (hwinner : IsJoined specifier ((ImportTable.ofText t).ofClass specifier key) →
      ∀ w ∈ (uniqueNames kind ((ImportTable.ofText t).ofClass specifier key)).head?,
        ¬ IsCertifiedIn (ImportTable.ofText t) evidence specifier key w) :
    ∃ x, IsUsedAs (ImportTable.ofText t) evidence specifier key kind x ∧
      HoldsName (certifiedFix {} evidence t).text specifier key kind x := by
  obtain ⟨x, s, hs, hx, hunused⟩ := hused
  by_cases hjoined : IsJoined specifier ((ImportTable.ofText t).ofClass specifier key)
  · have hnames : ∀ y, y ∈ uniqueNames kind ((ImportTable.ofText t).ofClass specifier key) ↔
        ∃ s ∈ (ImportTable.ofText t).ofClass specifier key, s.BindsAs kind y :=
      fun y => mem_uniqueNames_iff fun s hs => isAdmitted_of_mem_ofClass hs
    obtain ⟨w, ws, hw⟩ := List.exists_cons_of_ne_nil
      (List.ne_nil_of_mem ((hnames x).2 ⟨s, hs, hx⟩))
    have hhead : (uniqueNames kind ((ImportTable.ofText t).ofClass specifier key)).head? =
        some w := by rw [hw]; rfl
    have hspared := hwinner hjoined w hhead
    obtain ⟨r, hr, hbinds⟩ := (hnames w).1 (by rw [hw]; exact List.mem_cons_self)
    refine ⟨w, ⟨r, hr, hbinds, fun e he hline hmem => hspared ⟨r, hr, e, he, hline, hmem⟩⟩, ?_⟩
    obtain ⟨g, hg, rfl, rfl, hmerged⟩ := exists_group_of_isJoined hjoined
    rw [ImportTable.mem_duplicateGroups_iff.1 hg] at hhead
    exact holdsName_of_winner hg hmerged hhead hspared
  · exact ⟨x, ⟨s, hs, hx, hunused⟩, holdsName_of_not_isJoined hjoined hs hx hunused⟩

/-- Merging a class reports every name that loses to the first one. -/
theorem exists_ambiguity_of_displaced {w x : Text}
    (hjoined : IsJoined specifier ((ImportTable.ofText t).ofClass specifier key))
    (hw : w ∈ (uniqueNames kind ((ImportTable.ofText t).ofClass specifier key)).head?)
    (hx : x ∈ uniqueNames kind ((ImportTable.ofText t).ofClass specifier key)) (hne : x ≠ w) :
    ∃ a ∈ (ImportTable.ofText t).merge.ambiguities,
      a.specifier = specifier ∧ a.kind = kind ∧ a.kept = w ∧ x ∈ a.dropped := by
  obtain ⟨g, hg, rfl, rfl, hmerged⟩ := exists_group_of_isJoined hjoined
  rw [ImportTable.mem_duplicateGroups_iff.1 hg] at hw hx
  obtain ⟨new, hnew⟩ := DuplicateGroup.isMerged_iff.1 hmerged
  obtain ⟨u, hu, hc, -⟩ := DuplicateGroup.mergedLine?_eq_some_iff.1 hnew
  obtain ⟨a, ha, hreport⟩ := (first_wins_of_union (isClass_statements hg) hu hw).2 x hx hne
  exact ⟨a, List.mem_flatMap.2 ⟨g, hg, by rw [DuplicateGroup.settled_eq hu hc]; exact ha⟩,
    hreport⟩

/-- **A used name stays bound unless the name that wins is certified.**  Where the statements of a
    class bind names of one kind that are used, a fix leaves one of them bound, as long as no record
    on the lines of a merged class certifies its first name.  Every name that loses to the first
    one is reported, whatever is certified. -/
theorem certifiedFix_keeps_used_name :
    ((∃ x, IsUsedAs (ImportTable.ofText t) evidence specifier key kind x) →
      (IsJoined specifier ((ImportTable.ofText t).ofClass specifier key) →
        ∀ w ∈ (uniqueNames kind ((ImportTable.ofText t).ofClass specifier key)).head?,
          ¬ IsCertifiedIn (ImportTable.ofText t) evidence specifier key w) →
      ∃ x, IsUsedAs (ImportTable.ofText t) evidence specifier key kind x ∧
        HoldsName (certifiedFix {} evidence t).text specifier key kind x) ∧
    (IsJoined specifier ((ImportTable.ofText t).ofClass specifier key) →
      ∀ w ∈ (uniqueNames kind ((ImportTable.ofText t).ofClass specifier key)).head?,
      ∀ x ∈ uniqueNames kind ((ImportTable.ofText t).ofClass specifier key), x ≠ w →
        ∃ a ∈ (ImportTable.ofText t).merge.ambiguities,
          a.specifier = specifier ∧ a.kind = kind ∧ a.kept = w ∧ x ∈ a.dropped) :=
  ⟨exists_holdsName_certifiedFix,
    fun hjoined _ hw _ hx hne => exists_ambiguity_of_displaced hjoined hw hx hne⟩

/-- A record against the whole of a later statement leaves the name that wins. -/
theorem certifiedFix_keeps_used_name_default :
    let t := "import A from 'm';\nimport B, * as C from 'm';\n".toList
    let evidence : List Evidence := [{ line := 2, name := none }]
    let key : MergeKey := ⟨.es, false⟩
    (∃ x, IsUsedAs (ImportTable.ofText t) evidence "m".toList key .defaultName x) ∧
    (∀ w ∈ (uniqueNames .defaultName ((ImportTable.ofText t).ofClass "m".toList key)).head?,
      ¬ IsCertifiedIn (ImportTable.ofText t) evidence "m".toList key w) ∧
    (∃ x, IsUsedAs (ImportTable.ofText t) evidence "m".toList key .defaultName x ∧
      HoldsName (certifiedFix {} evidence t).text "m".toList key .defaultName x) := by
  intro t evidence key
  have hused : IsUsedAs (ImportTable.ofText t) evidence "m".toList key .defaultName "A".toList := by
    decide +kernel
  have hwinner :
      ∀ w ∈ (uniqueNames .defaultName ((ImportTable.ofText t).ofClass "m".toList key)).head?,
        ¬ IsCertifiedIn (ImportTable.ofText t) evidence "m".toList key w := by
    decide +kernel
  exact ⟨⟨_, hused⟩, hwinner, certifiedFix_keeps_used_name.1 ⟨_, hused⟩ fun _ => hwinner⟩

/-- The name that wins takes the used name that it displaced with it. -/
theorem certifiedFix_loses_used_name :
    let t := "import A from 'm';\nimport B from 'm';\n".toList
    let evidence : List Evidence := [{ line := 1, name := some "A".toList }]
    let key : MergeKey := ⟨.es, false⟩
    IsUsedAs (ImportTable.ofText t) evidence "m".toList key .defaultName "B".toList ∧
    ¬ ∃ x, HoldsName (certifiedFix {} evidence t).text "m".toList key .defaultName x := by
  intro t evidence key
  have hempty : (certifiedFix {} evidence t).text = [] := by decide +kernel
  refine ⟨by decide +kernel, ?_⟩
  rw [hempty]
  rintro ⟨x, n, l, hl, s, ⟨u, c, hbare, -, hread⟩, -⟩
  obtain ⟨rfl, rfl⟩ : n = 1 ∧ l = [] := by simpa [numberedLines, lines] using hl
  have hnil : u = [] := by
    have happend : u ++ c = [] := hbare.symm
    exact (List.append_eq_nil_iff.1 happend).1
  rw [hnil] at hread
  cases hread

end ImportRepair
