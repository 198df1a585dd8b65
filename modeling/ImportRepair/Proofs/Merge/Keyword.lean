import ImportRepair.Proofs.Merge.Idempotent

/-!
# The keyword of a merged require

The statements of a group share their style, and the word that declares the
names of a `require` is no part of the style.  The first statement of a merged
group keeps its own word, and with it the later statements lose theirs.
-/

namespace ImportRepair

open Text

variable {t specifier n : Text} {s r : Statement} {g : DuplicateGroup} {k k' : Keyword}

/-- A `require` of the module declares the name with this keyword. -/
def Declares (table : ImportTable) (specifier n : Text) (k : Keyword) : Prop :=
  ∃ s ∈ table, s.specifier = specifier ∧ s.form = .commonJs k ∧ n ∈ s.boundNames

instance (table : ImportTable) (specifier n : Text) (k : Keyword) :
    Decidable (Declares table specifier n k) :=
  inferInstanceAs (Decidable (∃ s ∈ table, _))

/-- The group joins every `require` of the module. -/
def DuplicateGroup.JoinsRequires (g : DuplicateGroup) (specifier : Text) : Prop :=
  g.isMerged = true ∧ g.specifier = specifier ∧ g.key.style = .commonJs

theorem mergeKey_of_commonJs (h : s.form = .commonJs k) : s.mergeKey = ⟨.commonJs, false⟩ := by
  simp [Statement.mergeKey, h, Form.style, Form.typeOnly]

theorem key_of_style (hg : g ∈ (ImportTable.ofText t).duplicateGroups)
    (hstyle : g.key.style = .commonJs) : g.key = ⟨.commonJs, false⟩ := by
  obtain ⟨-, -, hkey⟩ := ImportTable.mem_of_mem_statements hg (ImportTable.first_mem_statements g)
  rw [← hkey] at hstyle ⊢
  cases hform : g.first.form with
  | es typeOnly => simp [Statement.mergeKey, hform, Form.style] at hstyle
  | commonJs k => exact mergeKey_of_commonJs hform

/-- A `require` of the module is a statement of every group that joins them. -/
theorem DuplicateGroup.JoinsRequires.mem_statements (h : g.JoinsRequires specifier)
    (hg : g ∈ (ImportTable.ofText t).duplicateGroups) (hs : s ∈ ImportTable.ofText t)
    (hspecifier : s.specifier = specifier) (hform : s.form = .commonJs k) : s ∈ g.statements := by
  obtain ⟨-, hmodule, hstyle⟩ := h
  rw [← ImportTable.mem_duplicateGroups_iff.1 hg, hmodule, key_of_style hg hstyle]
  exact ImportTable.mem_ofClass_iff.2 ⟨hs, hspecifier, mergeKey_of_commonJs hform⟩

/-- A `require` of the merged text has been one before, on its own or as the first of its group,
    and has kept its keyword. -/
theorem form_of_afterMerge? (hs : s ∈ ImportTable.ofText t)
    (hr : (ImportTable.ofText t).afterMerge? s = some r) (hform : r.form = .commonJs k) :
    r.specifier = s.specifier ∧ s.form = .commonJs k ∧
      ∀ g ∈ (ImportTable.ofText t).duplicateGroups, g.isMerged = true → s ∈ g.statements →
        s = g.first := by
  rcases ImportTable.merged_cases (ImportTable.ofText t) s with
    hstays | ⟨g, hg, new, hnew, rfl | hlater⟩
  · rw [ImportTable.afterMerge?_of_not_merged hs hstays] at hr
    obtain rfl := Option.some.inj hr
    exact ⟨rfl, hform, fun g hg hmerged hsg => absurd hsg (hstays g hg hmerged)⟩
  · obtain ⟨u, hu, hc, -⟩ := DuplicateGroup.mergedLine?_eq_some_iff.1 hnew
    have hone : ∀ h ∈ (ImportTable.ofText t).duplicateGroups, h.isMerged = true →
        g.first ∈ h.statements → g.first = h.first := by
      intro h hh _ hmem
      rw [ImportTable.eq_of_mem_statements hh hg hmem (ImportTable.first_mem_statements g)]
    rcases afterMerge?_first_cases hg hu hc with ⟨-, hread⟩ | ⟨-, hread⟩ | ⟨-, -, hread⟩
    · rw [hread] at hr
      obtain rfl := Option.some.inj hr
      exact ⟨rfl, hform, hone⟩
    · rw [hread] at hr
      obtain rfl := Option.some.inj hr
      cases hform
    · rw [hread] at hr
      cases hr
  · rw [ImportTable.afterMerge?_later (isSorted_ofText t) hg hnew hlater] at hr
    cases hr

/-- Where the requires of a module are joined, the first of them gives the keyword. -/
theorem first_form_of_declares (hg : g ∈ (ImportTable.ofText t).duplicateGroups)
    (hjoins : g.JoinsRequires specifier)
    (h : Declares (ImportTable.ofText (mergeImports t)) specifier n k) :
    g.first.form = .commonJs k := by
  obtain ⟨r, hr, hspecifier, hform, -⟩ := h
  obtain ⟨s, hs, hafter⟩ := mem_ofText_mergeImports_iff.1 hr
  obtain ⟨hsame, hbefore, hfirst⟩ := form_of_afterMerge? hs hafter hform
  have hsg := hjoins.mem_statements hg hs (hsame.symm.trans hspecifier) hbefore
  rw [← hfirst g hg hjoins.1 hsg]
  exact hbefore

/-- Where they are not joined, every keyword stays. -/
theorem declares_of_not_joined (h : Declares (ImportTable.ofText t) specifier n k)
    (hnot : ∀ g ∈ (ImportTable.ofText t).duplicateGroups, ¬ g.JoinsRequires specifier) :
    Declares (ImportTable.ofText (mergeImports t)) specifier n k := by
  obtain ⟨s, hs, hspecifier, hform, hn⟩ := h
  have hstays : ∀ g ∈ (ImportTable.ofText t).duplicateGroups, g.isMerged = true →
      s ∉ g.statements := by
    intro g hg hmerged hsg
    obtain ⟨-, hmodule, hkey⟩ := ImportTable.mem_of_mem_statements hg hsg
    refine hnot g hg ⟨hmerged, hmodule.symm.trans hspecifier, ?_⟩
    rw [← hkey, mergeKey_of_commonJs hform]
  have hafter := ImportTable.afterMerge?_of_not_merged hs hstays
  exact ⟨_, mem_ofText_mergeImports_iff.2 ⟨s, hs, hafter⟩, hspecifier, hform, hn⟩

/-- **Which keyword declares a required name after a merge.**  A name that some `require` of its
    module still binds is declared with its own keyword unless the requires of the module are
    joined behind a first one with another keyword.  Where they are joined, the keyword of the
    first is the only one. -/
theorem declares_mergeImports_iff (h : Declares (ImportTable.ofText t) specifier n k)
    (hbound : ∃ k', Declares (ImportTable.ofText (mergeImports t)) specifier n k') :
    (Declares (ImportTable.ofText (mergeImports t)) specifier n k ↔
      ∀ g ∈ (ImportTable.ofText t).duplicateGroups, g.JoinsRequires specifier →
        g.first.form = .commonJs k) ∧
    ∀ g ∈ (ImportTable.ofText t).duplicateGroups, g.JoinsRequires specifier → ∀ k',
      Declares (ImportTable.ofText (mergeImports t)) specifier n k' ↔
        g.first.form = .commonJs k' := by
  obtain ⟨k₀, hk₀⟩ := hbound
  have hjoined : ∀ g ∈ (ImportTable.ofText t).duplicateGroups, g.JoinsRequires specifier → ∀ k',
      Declares (ImportTable.ofText (mergeImports t)) specifier n k' ↔
        g.first.form = .commonJs k' := by
    intro g hg hjoins k'
    constructor
    · exact first_form_of_declares hg hjoins
    · intro hfirst
      rw [first_form_of_declares hg hjoins hk₀, Form.commonJs.injEq] at hfirst
      rwa [← hfirst]
  refine ⟨⟨fun hafter g hg hjoins => (hjoined g hg hjoins k).1 hafter, fun hall => ?_⟩, hjoined⟩
  by_cases hnot : ∀ g ∈ (ImportTable.ofText t).duplicateGroups, ¬ g.JoinsRequires specifier
  · exact declares_of_not_joined h hnot
  · push Not at hnot
    obtain ⟨g, hg, hjoins⟩ := hnot
    exact (hjoined g hg hjoins k).2 (hall g hg hjoins)

theorem mergeImports_keywords :
    mergeImports "const { a } = require('m');\nlet { b } = require('m');\n".toList =
      "const { a, b } = require('m');\n".toList := by
  let a : Binding := { localName := "a".toList, imported := some "a".toList }
  let b : Binding := { localName := "b".toList, imported := some "b".toList }
  let first : Statement :=
    { specifier := "m".toList, bindings := [a]
      line := 1, raw := "const { a } = require('m');".toList, form := .commonJs .constKeyword
      quote := .single, semicolon := true, indent := [], trailing := [] }
  let second : Statement :=
    { first with
      bindings := [b], line := 2, raw := "let { b } = require('m');".toList
      form := .commonJs .letKeyword }
  let g : DuplicateGroup := ⟨"m".toList, ⟨.commonJs, false⟩, first, second, []⟩
  let t : Text := "const { a } = require('m');\nlet { b } = require('m');\n".toList
  have hgroups : (ImportTable.ofText t).duplicateGroups = [g] := by decide +kernel
  have hunion : union? "m".toList first [second] = some ⟨[a, b], []⟩ := by
    rw [union?, namedUnion_of_pairwise (by decide +kernel)]
    decide +kernel
  have hverdict : g.verdict = .merged "const { a, b } = require('m');".toList [] := by
    have hunion' : union? g.specifier g.first g.later = some ⟨[a, b], []⟩ := hunion
    rw [DuplicateGroup.verdict, hunion']
    decide +kernel
  have hmerge : (ImportTable.ofText t).merge =
      ⟨[(1, "const { a, b } = require('m');".toList)], [(2, 1)], ["m".toList], []⟩ := by
    have hraw : "const { a, b } = require('m');".toList ≠ g.first.raw := by decide +kernel
    simp only [ImportTable.merge, hgroups, List.filterMap_cons, List.filterMap_nil,
      List.flatMap_cons, List.flatMap_nil, List.filter_cons, List.filter_nil,
      DuplicateGroup.replacement?, DuplicateGroup.redirects, DuplicateGroup.isMerged,
      DuplicateGroup.settled, hverdict, if_neg hraw, if_true]
    rfl
  rw [mergeImports, hmerge]
  decide +kernel

/-- The word `let` of the second statement is lost to the first. -/
theorem declares_mergeImports_const :
    let t := "const { a } = require('m');\nlet { b } = require('m');\n".toList
    Declares (ImportTable.ofText t) "m".toList "b".toList .letKeyword ∧
      Declares (ImportTable.ofText (mergeImports t)) "m".toList "b".toList .constKeyword ∧
      ∀ g ∈ (ImportTable.ofText t).duplicateGroups, g.JoinsRequires "m".toList →
        g.first.form = .commonJs .constKeyword := by
  intro t
  have hbefore : Declares (ImportTable.ofText t) "m".toList "b".toList .letKeyword := by
    decide +kernel
  have hafter : Declares (ImportTable.ofText (mergeImports t)) "m".toList "b".toList
      .constKeyword := by
    rw [mergeImports_keywords]
    decide +kernel
  refine ⟨hbefore, hafter, fun g hg hjoins => ?_⟩
  exact ((declares_mergeImports_iff hbefore ⟨_, hafter⟩).2 g hg hjoins _).1 hafter

/-- A name that could be assigned to is declared as a constant. -/
theorem mergeImports_loses_keyword :
    ¬ ∀ t specifier n k, Declares (ImportTable.ofText t) specifier n k →
      (∃ k', Declares (ImportTable.ofText (mergeImports t)) specifier n k') →
      Declares (ImportTable.ofText (mergeImports t)) specifier n k := by
  intro h
  have hkept := h "const { a } = require('m');\nlet { b } = require('m');\n".toList "m".toList
    "b".toList .letKeyword (by decide +kernel)
  rw [mergeImports_keywords] at hkept
  have hlost := hkept ⟨.constKeyword, by decide +kernel⟩
  revert hlost
  decide +kernel

end ImportRepair
