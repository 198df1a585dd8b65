import ImportRepair.Proofs.Import.Removal

/-!
# When a removal changes a text

A removal changes a text exactly if it removes a name or sweeps away an import
of nothing.  A line that goes makes the text shorter, and a line that loses a
name is read with fewer bindings.
-/

namespace ImportRepair

open Text

variable {evidence : List Evidence} {table : ImportTable} {t l u : Text} {ls : List Text}
variable {s : Statement} {n k : Int} {names : List (Option Text)}

/-! ### The number of lines -/

/-- The number of lines, of which the empty text has none. -/
def lineCount (t : Text) : Nat := if t = [] then 0 else (lines t).length

theorem lineCount_le (t : Text) : lineCount t ≤ (lines t).length := by
  rw [lineCount]
  split
  · exact Nat.zero_le _
  · exact Nat.le_refl _

theorem lineCount_of_ne_nil (h : t ≠ []) : lineCount t = (lines t).length := if_neg h

theorem lineCount_unlines_le (h : ∀ l ∈ ls, '\n' ∉ l) : lineCount (unlines ls) ≤ ls.length := by
  cases ls with
  | nil => exact Nat.le_refl 0
  | cons l ls =>
    have hle := lineCount_le (unlines (l :: ls))
    rwa [lines_unlines h (List.cons_ne_nil l ls)] at hle

/-! ### Lines that stay -/

/-- Where no line goes, the numbers stay. -/
theorem numberFrom_filterMap {f : Int → Text → Option Text}
    (h : ∀ p ∈ numberFrom k ls, f p.1 p.2 ≠ none) :
    numberFrom k ((numberFrom k ls).filterMap fun p => f p.1 p.2) =
      (numberFrom k ls).filterMap fun p => (f p.1 p.2).map fun u => (p.1, u) := by
  induction ls generalizing k with
  | nil => rfl
  | cons l ls ih =>
    obtain ⟨hl, hls⟩ := List.forall_mem_cons.1 h
    obtain ⟨u, hu⟩ := Option.ne_none_iff_exists'.1 hl
    simp only [numberFrom_cons, List.filterMap_cons, hu, Option.map_some]
    exact congrArg _ (ih hls)

theorem Statement.ofLine?_nil (n : Int) : Statement.ofLine? [] n = none := by
  have hbare : IsBare [] := ⟨rfl, by simp⟩
  rw [Statement.ofLine?_eq, bareLine_of_isBare hbare]
  rfl

theorem lineWithout?_nil (n : Int) : lineWithout? evidence n [] = some [] := by
  rw [lineWithout?_of_none (Statement.ofLine?_nil n), keepUnlessEmpty]
  split
  · rfl
  · exact if_pos (by decide)

theorem ne_nil_of_lineWithout? (hl : (n, l) ∈ numberedLines t)
    (h : lineWithout? evidence n l = none) : t ≠ [] := by
  rintro rfl
  obtain ⟨rfl, rfl⟩ : n = 1 ∧ l = [] := by simpa [numberedLines, lines] using hl
  rw [lineWithout?_nil] at h
  cases h

theorem length_numberFrom (k : Int) (ls : List Text) : (numberFrom k ls).length = ls.length := by
  induction ls generalizing k with
  | nil => rfl
  | cons l ls ih => exact congrArg (· + 1) (ih (k + 1))

theorem exists_number (hl : l ∈ lines t) : ∃ n, (n, l) ∈ numberedLines t := by
  obtain ⟨pre, post, hsplit⟩ := List.append_of_mem hl
  rw [numberedLines_eq, hsplit, numberFrom_append, numberFrom_cons]
  exact ⟨_, List.mem_append_right _ List.mem_cons_self⟩

theorem length_linesWithout_le (evidence : List Evidence) (t : Text) :
    ((numberedLines t).filterMap fun p => lineWithout? evidence p.1 p.2).length ≤
      (lines t).length := by
  rw [← length_numberFrom 1 (lines t), ← numberedLines_eq]
  exact List.length_filterMap_le _ _

theorem length_linesWithout_lt (hl : (n, l) ∈ numberedLines t)
    (h : lineWithout? evidence n l = none) :
    ((numberedLines t).filterMap fun p => lineWithout? evidence p.1 p.2).length <
      (lines t).length := by
  refine (length_linesWithout_le evidence t).lt_of_ne fun heq => ?_
  rw [← length_numberFrom 1 (lines t), ← numberedLines_eq, List.filterMap_length_eq_length] at heq
  have hsome := heq _ hl
  rw [h] at hsome
  cases hsome

theorem length_of_upToMark {ls' : List Text} (h : LineEdits.UpToMark ls ls') :
    ls'.length = ls.length := by
  rcases h with rfl | rfl
  · rfl
  · cases ls <;> rfl

theorem exists_linesWithout (evidence : List Evidence) (t : Text) :
    ∃ ls, dropUnused evidence t = unlines ls ∧ (∀ l ∈ ls, '\n' ∉ l) ∧ LineEdits.UpToMark
      ((numberedLines t).filterMap fun p => lineWithout? evidence p.1 p.2) ls := by
  obtain ⟨ls, hls, hmark⟩ := dropUnused_eq_unlines evidence t
  refine ⟨ls, hls, LineEdits.not_mem_upToMark hmark fun u hu => ?_, hmark⟩
  obtain ⟨p, hp, hu⟩ := List.mem_filterMap.1 hu
  exact not_mem_lineWithout? (not_mem_of_mem_numberedLines hp) hu

theorem lineCount_dropUnused (evidence : List Evidence) (t : Text) :
    lineCount (dropUnused evidence t) ≤
      ((numberedLines t).filterMap fun p => lineWithout? evidence p.1 p.2).length := by
  obtain ⟨ls, hls, hline, hmark⟩ := exists_linesWithout evidence t
  rw [hls, ← length_of_upToMark hmark]
  exact lineCount_unlines_le hline

/-- A text that loses a line is shorter. -/
theorem lineCount_dropUnused_lt (hl : (n, l) ∈ numberedLines t)
    (h : lineWithout? evidence n l = none) : lineCount (dropUnused evidence t) < lineCount t := by
  rw [lineCount_of_ne_nil (ne_nil_of_lineWithout? hl h)]
  exact (lineCount_dropUnused evidence t).trans_lt (length_linesWithout_lt hl h)

/-- A text that does not change loses no line, and each of its lines is read as before. -/
theorem bareLine_of_dropUnused_eq (h : dropUnused evidence t = t)
    (hl : (n, l) ∈ numberedLines t) :
    ∃ u, lineWithout? evidence n l = some u ∧ bareLine u n = bareLine l n := by
  have hstay : ∀ p ∈ numberFrom 1 (lines t), lineWithout? evidence p.1 p.2 ≠ none := by
    intro p hp hnone
    have hlt := lineCount_dropUnused_lt (numberedLines_eq t ▸ hp) hnone
    rw [h] at hlt
    exact Nat.lt_irrefl _ hlt
  have hl' : (n, l) ∈ numberFrom 1 (lines t) := numberedLines_eq t ▸ hl
  obtain ⟨u, hu⟩ := Option.ne_none_iff_exists'.1 (hstay _ hl')
  obtain ⟨ls, hls, hline, hmark⟩ := exists_linesWithout evidence t
  rw [numberedLines_eq] at hmark
  have hmem : (n, u) ∈ numberFrom 1
      ((numberFrom 1 (lines t)).filterMap fun p => lineWithout? evidence p.1 p.2) := by
    rw [numberFrom_filterMap hstay]
    exact List.mem_filterMap.2 ⟨(n, l), hl', by rw [hu]; rfl⟩
  obtain ⟨v, hv, hmarked⟩ := hmark.exists_mem hmem
  have hne : ls ≠ [] := List.ne_nil_of_mem (le_of_mem_numberFrom hv).2
  have hlines : lines t = ls := by rw [← lines_unlines hline hne, ← hls, h]
  have hvl : v = l :=
    eq_of_mem_numberedLines (t := t) (by rw [numberedLines_eq, hlines]; exact hv) hl
  refine ⟨u, hu, ?_⟩
  rcases hmarked with rfl | ⟨rfl, rfl⟩
  · rw [hvl]
  · rw [← hvl, bareLine_mark]

/-! ### Removed names -/

/-- The names that a removal takes from a statement. -/
def StatementRemoval.lostNames : StatementRemoval → List Text
  | .unchanged => []
  | .deleted names | .changed _ names => names

theorem Statement.lostNames_removal_eq_nil_iff :
    (s.removal names).lostNames = [] ↔ s.removal names = .unchanged := by
  refine ⟨fun h => ?_, fun h => by rw [h]; rfl⟩
  unfold removal at h ⊢
  split
  · next hall =>
    rw [if_pos hall] at h
    split
    · rfl
    · next hne =>
      rw [if_neg hne] at h
      have hnil : s.bindings = [] := List.map_eq_nil_iff.1 h
      simp [hnil] at hne
  · next hall =>
    rw [if_neg hall] at h
    unfold without at h ⊢
    dsimp only at h ⊢
    split
    · rfl
    · next hne =>
      rw [if_neg hne] at h
      refine absurd ?_ hne
      rw [List.isEmpty_iff, ← List.map_eq_nil_iff (f := Binding.localName)]
      -- each way of removing names lists those of the bindings that go
      split at h
      · exact h
      · split at h <;> exact h

namespace Removal

theorem ofLine_eq_nil_iff : (ofLine table n names).removed = [] ↔
    table.removal? n names = none ∨ table.removal? n names = some .unchanged := by
  have hnames : ∀ r, table.removal? n names = some r → (r.lostNames = [] ↔ r = .unchanged) := by
    intro r hr
    obtain ⟨s, -, rfl⟩ := Option.map_eq_some_iff.1 hr
    exact Statement.lostNames_removal_eq_nil_iff
  unfold ofLine
  split
  · next h => simp [h]
  · next h => simp [h]
  · next removed h => simpa [h, StatementRemoval.lostNames] using hnames _ h
  · next new removed h => simpa [h, StatementRemoval.lostNames] using hnames _ h

theorem plan_removed (table : ImportTable) (evidence : List Evidence) :
    (plan table evidence).removed =
      (evidenceByLine evidence).flatMap fun p => (ofLine table p.1 p.2).removed := by
  unfold plan
  induction evidenceByLine evidence with
  | nil => rfl
  | cons p ps ih =>
    rw [List.foldr_cons, List.flatMap_cons, ← ih]
    rfl

/-- Where no name is removed, no line is edited. -/
theorem edits_plan (h : (plan table evidence).removed = []) :
    (plan table evidence).edits = {} := by
  have hlines : ∀ p ∈ evidenceByLine evidence, (ofLine table p.1 p.2).edits = {} := by
    intro p hp
    rw [plan_removed, List.flatMap_eq_nil_iff] at h
    unfold ofLine
    rcases ofLine_eq_nil_iff.1 (h p hp) with hp | hp
    · rw [hp]
    · rw [hp]
  rw [plan_edits]
  refine congrArg₂ LineEdits.mk ?_ ?_
  · exact List.flatMap_eq_nil_iff.2 fun p hp => by rw [hlines p hp]
  · exact List.flatMap_eq_nil_iff.2 fun p hp => by rw [hlines p hp]

/-- A name is removed from the statement on its line. -/
theorem exists_of_removed (h : (plan table evidence).removed ≠ []) :
    ∃ n s, table.onLine? n = some s ∧ s.removal (namesAt evidence n) ≠ .unchanged := by
  rw [plan_removed, Ne, List.flatMap_eq_nil_iff] at h
  simp only [not_forall] at h
  obtain ⟨⟨n, names⟩, hp, hremoved⟩ := h
  rw [ofLine_eq_nil_iff, not_or] at hremoved
  obtain ⟨r, hr⟩ := Option.ne_none_iff_exists'.1 hremoved.1
  obtain ⟨s, hs, rfl⟩ := Option.map_eq_some_iff.1 hr
  rw [hr, (mem_evidenceByLine_iff.1 hp).2] at hremoved
  exact ⟨n, s, hs, fun hunchanged => hremoved.2 (congrArg some hunchanged)⟩

end Removal

theorem Statement.Loses.exists_lost {removedNames : List Text} {r : StatementRemoval}
    (h : s.Loses removedNames r) (hr : r ≠ .unchanged) :
    ∃ x ∈ s.boundNames, x ∈ removedNames := by
  cases h with
  | unchanged => exact absurd rfl hr
  | deleted hne hall =>
    obtain ⟨b, hb⟩ := List.exists_mem_of_ne_nil _ hne
    have hname : b.localName ∈ s.boundNames := List.mem_map_of_mem hb
    exact ⟨_, hname, hall _ hname⟩
  | changed hlost => exact hlost

/-! ### Texts that change -/

theorem dropUnused_of_removed_eq_nil
    (h : (Removal.plan (ImportTable.ofText t) evidence).removed = []) :
    dropUnused evidence t = if evidence.isEmpty then t else dropEmptyImports t := by
  rw [dropUnused, Removal.apply, Removal.edits_plan h, LineEdits.apply_nil]

theorem dropEmptyImports_eq_self (h : ∀ l ∈ lines t, bindsNothing l = false) :
    dropEmptyImports t = t := by
  have hnil : emptyImportLines t = [] := by
    refine List.map_eq_nil_iff.2 (List.filter_eq_nil_iff.2 fun p hp => ?_)
    rw [numberedLines_eq] at hp
    rw [h p.2 (le_of_mem_numberFrom hp).2]
    exact Bool.false_ne_true
  rw [dropEmptyImports, hnil]

/-- A line that loses a name goes, or is read with other bindings. -/
theorem dropUnused_ne_of_removed
    (h : (Removal.plan (ImportTable.ofText t) evidence).removed ≠ []) :
    dropUnused evidence t ≠ t := by
  intro heq
  obtain ⟨n, s, hs, hremoval⟩ := Removal.exists_of_removed h
  obtain ⟨hmem, rfl⟩ := onLine?_eq_some_iff.1 hs
  obtain ⟨l, hl, hread⟩ := mem_ofText_iff.1 hmem
  obtain ⟨u, hu, hbare⟩ := bareLine_of_dropUnused_eq heq hl
  have hline := not_mem_of_mem_numberedLines hl
  have hlost := (Statement.loses_removal hread hline _).exists_lost hremoval
  by_cases hall : ∀ x ∈ s.boundNames, x ∈ s.removedNames (namesAt evidence s.line)
  · obtain ⟨x, hx, -⟩ := hlost
    obtain ⟨b, hb, -⟩ := List.mem_map.1 hx
    have hne : s.bindings ≠ [] := List.ne_nil_of_mem hb
    rw [lineWithout?_of_lost hread hline hne hall] at hu
    cases hu
  · simp only [not_forall] at hall
    obtain ⟨x, hx, hnot⟩ := hall
    obtain ⟨new, hnew, hleft⟩ := lineWithout?_of_changed hread hline hlost ⟨x, hx, hnot⟩
    rw [hu, eq_comm, Option.guard_eq_some_iff] at hnew
    obtain ⟨rfl, -⟩ := hnew
    have hsame := hleft s.line
    rw [Statement.ofLine?_eq, hbare, ← Statement.ofLine?_eq, hread] at hsame
    split at hsame
    · cases hsame
    · obtain ⟨y, hy, hmem⟩ := hlost
      obtain ⟨b, hb, rfl⟩ := List.mem_map.1 hy
      have hkept : s.bindings = s.kept (s.removedNames (namesAt evidence s.line)) :=
        congrArg Statement.bindings (Option.some.inj hsame)
      rw [hkept] at hb
      exact (Statement.mem_kept_iff.1 hb).2 hmem

theorem dropUnused_ne_of_bindsNothing (hne : evidence ≠ []) (hl : l ∈ lines t)
    (h : bindsNothing l = true) : dropUnused evidence t ≠ t := by
  intro heq
  obtain ⟨n, hn⟩ := exists_number hl
  obtain ⟨u, hu, -⟩ := bareLine_of_dropUnused_eq heq hn
  have hgone : keepUnlessEmpty evidence l = none := by
    rw [keepUnlessEmpty, if_neg (by simpa using hne), Option.guard, if_neg (by simp [h])]
  cases hread : Statement.ofLine? l n with
  | none =>
    rw [lineWithout?_of_none hread, hgone] at hu
    cases hu
  | some s =>
    have hnil : s.bindings = [] := by
      by_contra hbinds
      rw [bindsNothing_eq_false hread hbinds] at h
      cases h
    rw [lineWithout?_of_kept hread (not_mem_of_mem_lines hl)
      (by simp [Statement.boundNames, hnil]), hgone] at hu
    cases hu

/-- **When a removal changes a text.**  It removes a name, or there is any evidence and an import
    of nothing to sweep away. -/
theorem dropUnused_ne_iff : dropUnused evidence t ≠ t ↔
    (Removal.plan (ImportTable.ofText t) evidence).removed ≠ [] ∨
      evidence ≠ [] ∧ ∃ l ∈ lines t, bindsNothing l = true := by
  constructor
  · intro hne
    by_contra hnone
    simp only [not_or, not_not, not_and, not_exists, Bool.not_eq_true] at hnone
    rw [dropUnused_of_removed_eq_nil hnone.1] at hne
    split at hne
    · exact hne rfl
    · next hevidence =>
      exact hne (dropEmptyImports_eq_self (hnone.2 (by simpa using hevidence)))
  · rintro (hremoved | ⟨hevidence, l, hl, hempty⟩)
    · exact dropUnused_ne_of_removed hremoved
    · exact dropUnused_ne_of_bindsNothing hevidence hl hempty

theorem dropUnused_nil (evidence : List Evidence) : dropUnused evidence [] = [] := by
  by_contra hne
  rcases dropUnused_ne_iff.1 hne with hremoved | ⟨-, l, hl, hempty⟩
  · obtain ⟨n, s, hs, -⟩ := Removal.exists_of_removed hremoved
    cases hs
  · obtain rfl : l = [] := by simpa [lines] using hl
    cases hempty

/-- A removal never makes a text longer. -/
theorem lineCount_dropUnused_le (evidence : List Evidence) (t : Text) :
    lineCount (dropUnused evidence t) ≤ lineCount t := by
  by_cases ht : t = []
  · rw [ht, dropUnused_nil]
  · rw [lineCount_of_ne_nil ht]
    exact (lineCount_dropUnused evidence t).trans (length_linesWithout_le evidence t)

end ImportRepair
