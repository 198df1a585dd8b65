import ImportRepair.Import.Table
import ImportRepair.Proofs.Import.Characters
import ImportRepair.Proofs.Text.Lines

/-!
# The import table of an edited text

A table holds the statements of the lines of a text, in the order of the lines
and one for each line at most.  The table of an edited text is therefore read
from the lines before, each after its edit.
-/

namespace ImportRepair

open Text

variable {t l : Text} {s r : Statement} {n : Int} {e : LineEdits}

/-! ### Candidates -/

/-- Every line that holds a statement mentions one of the two words. -/
theorem isCandidate_of_ofLine? (h : Statement.ofLine? l n = some s) :
    ImportTable.isCandidate l = true := by
  obtain ⟨hraw, -, before, c, after, o, hparts⟩ :=
    Statement.ofBare?_cases (Statement.ofLine?_eq ▸ h)
  have hline : before ++ (c ++ after) <:+: l := by
    rw [← hparts.raw, hraw]
    exact bareLine_infix l n
  have himport : ∀ u v : Text, before = u ++ ("import".toList ++ v) → "import".toList <:+: l := by
    rintro u v rfl
    refine List.IsInfix.trans ⟨u, v ++ (c ++ after), ?_⟩ hline
    simp only [List.append_assoc]
  simp only [ImportTable.isCandidate, Bool.or_eq_true, occursIn_iff]
  have hopening := hparts.opening
  have hending := hparts.ending
  generalize s.form = form at hopening hending
  cases hopening with
  | values hne hgap => exact Or.inl (himport _ _ rfl)
  | types hne hgap hne' hgap' => exact Or.inl (himport _ _ rfl)
  | @require k gap hne hgap =>
    have hending : requireBehind? after = some o := hending
    simp only [requireBehind?, bind, Option.bind_eq_some_iff] at hending
    obtain ⟨r, hr, u, hu, -⟩ := hending
    obtain ⟨g, g', -, -, -, rfl⟩ := (afterMark?_eq_some_iff (by decide)).1 hr
    obtain rfl := isPrefixOf?_eq_some_iff.1 hu
    refine Or.inr (List.IsInfix.trans ?_ hline)
    have hword : "require(".toList = "require".toList ++ ['('] := by decide
    rw [hword]
    refine ⟨s.indent ++ (k.text ++ gap) ++ (c ++ (g ++ '=' :: g')), '(' :: u, ?_⟩
    simp only [List.append_assoc, List.cons_append, List.nil_append]

theorem ofText_eq (t : Text) : ImportTable.ofText t =
    (numberedLines t).filterMap fun p => Statement.ofLine? p.2 p.1 := by
  unfold ImportTable.ofText
  congr 1
  funext p
  split
  · rfl
  · next hcandidate =>
    symm
    rw [Option.eq_none_iff_forall_ne_some]
    exact fun s hs => hcandidate (isCandidate_of_ofLine? hs)

/-! ### The statements of a table -/

theorem mem_ofText_iff :
    s ∈ ImportTable.ofText t ↔
      ∃ l, (s.line, l) ∈ numberedLines t ∧ Statement.ofLine? l s.line = some s := by
  rw [ofText_eq, List.mem_filterMap]
  constructor
  · rintro ⟨⟨n, l⟩, hp, hs⟩
    have hline := Statement.ofLine?_line hs
    exact ⟨l, hline ▸ hp, hline ▸ hs⟩
  · rintro ⟨l, hp, hs⟩
    exact ⟨_, hp, hs⟩

theorem isRead_of_mem_ofText (h : s ∈ ImportTable.ofText t) : s.IsRead := by
  obtain ⟨l, -, hs⟩ := mem_ofText_iff.1 h
  exact Statement.isRead_of_ofLine? hs

theorem isOnOneLine_of_mem_ofText (h : s ∈ ImportTable.ofText t) :
    '\n' ∉ s.raw ∧ s.IsOnOneLine := by
  obtain ⟨l, hp, hs⟩ := mem_ofText_iff.1 h
  exact Statement.isOnOneLine_of_ofLine? hs (not_mem_of_mem_numberedLines hp)

/-- There is one statement for each line at most. -/
theorem pairwise_line_ofText (t : Text) :
    (ImportTable.ofText t).Pairwise fun s r => s.line < r.line := by
  rw [ofText_eq, List.pairwise_filterMap, numberedLines_eq]
  refine (pairwise_numberFrom 1 (lines t)).imp fun {p q} hlt s hs r hr => ?_
  rw [Statement.ofLine?_line hs, Statement.ofLine?_line hr]
  exact hlt

theorem one_le_line_of_mem_ofText (h : s ∈ ImportTable.ofText t) : 1 ≤ s.line := by
  obtain ⟨l, hp, -⟩ := mem_ofText_iff.1 h
  exact one_le_of_mem_numberedLines hp

theorem eq_of_line_eq (hs : s ∈ ImportTable.ofText t) (hr : r ∈ ImportTable.ofText t)
    (h : s.line = r.line) : s = r := by
  obtain ⟨l, hp, hs⟩ := mem_ofText_iff.1 hs
  obtain ⟨l', hp', hr⟩ := mem_ofText_iff.1 hr
  rw [h] at hp hs
  rw [eq_of_mem_numberedLines hp hp'] at hs
  exact Option.some.inj (hs.symm.trans hr)

theorem onLine?_eq_some_iff : (ImportTable.ofText t).onLine? n = some s ↔
    s ∈ ImportTable.ofText t ∧ s.line = n := by
  constructor
  · intro h
    exact ⟨List.mem_of_find?_eq_some h, by simpa using List.find?_some h⟩
  · rintro ⟨hs, rfl⟩
    have hsome : ((ImportTable.ofText t).onLine? s.line).isSome := by
      unfold ImportTable.onLine?
      rw [List.find?_isSome]
      exact ⟨s, hs, by simp⟩
    obtain ⟨r, hr⟩ := Option.isSome_iff_exists.1 hsome
    have hline : r.line = s.line := by simpa using List.find?_some hr
    rw [hr, eq_of_line_eq (List.mem_of_find?_eq_some hr) hs hline]

theorem onLine?_of_mem_numberedLines (h : (n, l) ∈ numberedLines t) :
    (ImportTable.ofText t).onLine? n = Statement.ofLine? l n := by
  cases hs : Statement.ofLine? l n with
  | some s =>
    have hline := Statement.ofLine?_line hs
    exact onLine?_eq_some_iff.2 ⟨mem_ofText_iff.2 ⟨l, hline ▸ h, hline ▸ hs⟩, hline⟩
  | none =>
    rw [Option.eq_none_iff_forall_ne_some]
    intro s hon
    obtain ⟨hmem, rfl⟩ := onLine?_eq_some_iff.1 hon
    obtain ⟨l', hp, hs'⟩ := mem_ofText_iff.1 hmem
    rw [eq_of_mem_numberedLines hp h, hs] at hs'
    cases hs'

/-! ### Edited texts -/

theorem ignoresMark_ofLine? :
    LineEdits.IgnoresMark fun n l => Statement.ofLine? l n := by
  intro l
  simp only [Statement.ofLine?_eq, bareLine_mark]

/-- **The table of an edited text.** -/
theorem ofText_apply (he : e.IsByLine) (hnodup : e.deletions.Nodup)
    (hpos : ∀ d ∈ e.deletions, 1 ≤ d)
    (t : Text) : ImportTable.ofText (e.apply t) = (numberedLines t).filterMap fun p =>
      (e.line? p.1 p.2).bind fun u => Statement.ofLine? u (e.newNumber p.1) := by
  rw [ofText_eq]
  exact LineEdits.filterMap_apply he hnodup hpos ignoresMark_ofLine? (by decide) t

/-- The statement on a line that remains. -/
theorem onLine?_apply {u : Text} (he : e.IsByLine) (hnodup : e.deletions.Nodup)
    (hpos : ∀ d ∈ e.deletions, 1 ≤ d) (hl : (n, l) ∈ numberedLines t) (hu : e.line? n l = some u) :
    (ImportTable.ofText (e.apply t)).onLine? (e.newNumber n) =
      Statement.ofLine? u (e.newNumber n) := by
  ext s
  rw [onLine?_eq_some_iff, ofText_apply he hnodup hpos, List.mem_filterMap]
  constructor
  · rintro ⟨⟨⟨m, k⟩, hk, hs⟩, hline⟩
    obtain ⟨v, hv, hs⟩ := Option.bind_eq_some_iff.1 hs
    have hnumber := (Statement.ofLine?_line hs).symm.trans hline
    obtain rfl := (LineEdits.newNumber_inj hnodup (LineEdits.not_mem_of_line?_eq_some hv)
      (LineEdits.not_mem_of_line?_eq_some hu)).1 hnumber
    obtain rfl : k = l := eq_of_mem_numberedLines hk hl
    simp only at hv hs
    rw [hu] at hv
    cases hv
    exact hs
  · intro hs
    exact ⟨⟨(n, l), hl, Option.bind_eq_some_iff.2 ⟨u, hu, hs⟩⟩, Statement.ofLine?_line hs⟩

end ImportRepair
