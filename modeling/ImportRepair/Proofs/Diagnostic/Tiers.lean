import ImportRepair.Proofs.Diagnostic.Terminal
import ImportRepair.Proofs.Failure

/-!
# Which tier answers

A tier is tried as a whole.  Where every line in the most precise format has
numbers that are not too long, each such line is reported, whatever else stands
in the output.  One such line with a number that is too long makes the tier fail
with all that it has found, and only less precise tiers are left to answer.
-/

namespace ImportRepair

open Text

variable {root : Option Text} {snippets : Bool} {l : Layout} {x : LocatedLine} {d : Diagnostic}
  {ds : List Diagnostic} {t output : Text} {ls : List Text} {tier : Tier} {tiers : List Tier}

/-! ### Lines in a format -/

/-- The lines in a format, taken apart. -/
def Layout.locatedLines (l : Layout) (ls : List Text) : List LocatedLine :=
  ls.filterMap fun t => l.line? (trim t)

/-- Neither number of the line is too long to be read. -/
def LocatedLine.IsCounted (x : LocatedLine) : Prop :=
  x.line.length ≤ Numeral.maxDigits ∧ x.column.length ≤ Numeral.maxDigits

instance : DecidablePred LocatedLine.IsCounted := fun _ => instDecidableAnd

/-- What a line reports, the lines behind it left aside. -/
def LocatedLine.report (x : LocatedLine) (l : Layout) (root : Option Text) : Diagnostic :=
  { x.asDiagnostic l with file := portable root x.file }

def Diagnostic.withoutSnippet (d : Diagnostic) : Diagnostic :=
  { d with snippet := none, caret := none }

theorem Diagnostic.withoutSnippet_withSnippet (d : Diagnostic) (l : Layout) (after : List Text) :
    (d.withSnippet l after).withoutSnippet = d.withoutSnippet := by
  unfold withSnippet
  split <;> rfl

theorem Numeral.ofDigits_eq_ok_iff {n : Nat} {digits : Text} :
    ofDigits digits = .ok n ↔ digits.length ≤ maxDigits ∧ n = value digits := by
  unfold ofDigits
  split
  · next h => simp [Nat.not_le.2 h]
  · next h => simp [Nat.le_of_not_lt h, eq_comm]

theorem LocatedLine.diagnostic_eq_ok_iff :
    x.diagnostic l root = .ok d ↔ x.IsCounted ∧ d = x.report l root := by
  simp only [diagnostic, bind_eq_ok_iff, Numeral.ofDigits_eq_ok_iff]
  constructor
  · rintro ⟨_, ⟨hline, rfl⟩, _, ⟨hcolumn, rfl⟩, hd⟩
    exact ⟨⟨hline, hcolumn⟩, (Except.ok.inj hd).symm⟩
  · rintro ⟨⟨hline, hcolumn⟩, rfl⟩
    exact ⟨_, ⟨hline, rfl⟩, _, ⟨hcolumn, rfl⟩, rfl⟩

namespace Layout

/-- Up to the snippets, a tier reads the lines in its format one by one, and all or none. -/
theorem map_withoutSnippet_diagnostics (l : Layout) (root : Option Text) (snippets : Bool)
    (ls : List Text) :
    (l.diagnostics root snippets ls).map (List.map Diagnostic.withoutSnippet) =
      (l.locatedLines ls).mapM fun x => x.diagnostic l root := by
  induction ls with
  | nil => rfl
  | cons t ls ih =>
    cases hx : l.line? (trim t) with
    | none =>
      have hlines : l.locatedLines (t :: ls) = l.locatedLines ls := by simp [locatedLines, hx]
      rw [diagnostics, hx, hlines]
      exact ih
    | some x =>
      have hlines : l.locatedLines (t :: ls) = x :: l.locatedLines ls := by simp [locatedLines, hx]
      rw [diagnostics, hx, hlines]
      cases hd : x.diagnostic l root with
      | error e =>
        have hread : (x :: l.locatedLines ls).mapM (fun x => x.diagnostic l root) = .error e :=
          mapM_cons_error hd
        simp only [hread, hd]
        rfl
      | ok d =>
        have hread : (x :: l.locatedLines ls).mapM (fun x => x.diagnostic l root) =
            ((l.locatedLines ls).mapM fun x : LocatedLine => x.diagnostic l root).map (d :: ·) :=
          mapM_cons_ok hd
        have hplain : d.withoutSnippet = d := by
          obtain ⟨-, rfl⟩ := LocatedLine.diagnostic_eq_ok_iff.1 hd
          rfl
        simp only [hread, hd, ← ih]
        cases l.diagnostics root snippets ls with
        | error e => rfl
        | ok ds =>
          have hfirst : (if snippets then d.withSnippet l ls else d).withoutSnippet = d := by
            split
            · rw [Diagnostic.withoutSnippet_withSnippet, hplain]
            · exact hplain
          exact congrArg (fun d => Except.ok (d :: ds.map Diagnostic.withoutSnippet)) hfirst

/-- Every line in the format is reported if all of them are counted. -/
theorem exists_diagnostics_eq_ok (h : ∀ x ∈ l.locatedLines ls, x.IsCounted) (root : Option Text)
    (snippets : Bool) : ∃ ds, l.diagnostics root snippets ls = .ok ds ∧
      ds.map (·.withoutSnippet) = (l.locatedLines ls).map (·.report l root) := by
  have hread : (l.locatedLines ls).mapM (fun x => x.diagnostic l root) =
      .ok ((l.locatedLines ls).map (·.report l root)) := by
    rw [mapM_eq_ok_iff, List.forall₂_map_right_iff, List.forall₂_same]
    exact fun x hx => LocatedLine.diagnostic_eq_ok_iff.2 ⟨h x hx, rfl⟩
  rw [← map_withoutSnippet_diagnostics l root snippets] at hread
  cases hds : l.diagnostics root snippets ls with
  | error e =>
    rw [hds] at hread
    cases hread
  | ok ds =>
    rw [hds] at hread
    exact ⟨ds, rfl, Except.ok.inj hread⟩

/-- One line that is not counted makes all of them fail. -/
theorem exists_diagnostics_eq_error (h : ∃ x ∈ l.locatedLines ls, ¬ x.IsCounted)
    (root : Option Text) (snippets : Bool) : ∃ e, l.diagnostics root snippets ls = .error e := by
  have hread : ¬ ∃ ds, (l.locatedLines ls).mapM (fun x => x.diagnostic l root) = .ok ds := by
    rw [exists_mapM_eq_ok_iff]
    intro hall
    obtain ⟨x, hx, hnot⟩ := h
    obtain ⟨d, hd⟩ := hall x hx
    exact hnot (LocatedLine.diagnostic_eq_ok_iff.1 hd).1
  rw [← map_withoutSnippet_diagnostics l root snippets] at hread
  cases hds : l.diagnostics root snippets ls with
  | error e => exact ⟨e, rfl⟩
  | ok ds =>
    rw [hds] at hread
    exact absurd ⟨_, rfl⟩ hread

theorem tier_of_mem_diagnostics (h : l.diagnostics root snippets ls = .ok ds) (hd : d ∈ ds) :
    d.tier = l.tier := by
  have hread := map_withoutSnippet_diagnostics l root snippets ls
  rw [h] at hread
  obtain ⟨x, -, hx⟩ := (mem_of_mapM_eq_ok_iff hread.symm).1 (List.mem_map_of_mem hd)
  obtain ⟨-, heq⟩ := LocatedLine.diagnostic_eq_ok_iff.1 hx
  exact congrArg Diagnostic.tier heq

end Layout

/-! ### Tiers -/

/-- An entry adds a diagnostic of its tier to those of the entries behind it, or none. -/
theorem summaryDiagnostics_cons {seen : List Text} {e : SummaryEntry} {es : List SummaryEntry}
    (h : (summaryDiagnostics root seen (e :: es)).1 = .ok ds) :
    (summaryDiagnostics root seen es).1 = .ok ds ∨
      ∃ d rest, (d.tier = .summary ∧ d.withoutSnippet = d) ∧ ds = d :: rest ∧
        (summaryDiagnostics root (portable root e.file :: seen) es).1 = .ok rest := by
  -- One step of the recursion, up to the numbers of the entry.
  conv at h =>
    lhs
    arg 1
    whnf
  split at h
  · cases h
  · dsimp only at h
    split at h
    · exact .inl h
    · obtain ⟨rest, hrest, hds⟩ := map_eq_ok_iff.1 h
      exact .inr ⟨_, rest, ⟨rfl, rfl⟩, hds.symm, hrest⟩

theorem tier_of_mem_summaryDiagnostics {seen : List Text} {es : List SummaryEntry}
    (h : (summaryDiagnostics root seen es).1 = .ok ds) (hd : d ∈ ds) : d.tier = .summary := by
  induction es generalizing seen ds with
  | nil =>
    cases h
    cases hd
  | cons e es ih =>
    rcases summaryDiagnostics_cons h with h | ⟨d', rest, ⟨htier, -⟩, rfl, hrest⟩
    · exact ih h hd
    · rcases List.mem_cons.1 hd with rfl | hd
      · exact htier
      · exact ih hrest hd

theorem Tier.tier_of_mem_read (h : (tier.read root snippets t).1 = .ok ds) (hd : d ∈ ds) :
    d.tier = tier := by
  cases tier with
  | primary => exact Layout.tier_of_mem_diagnostics h hd
  | alternate => exact Layout.tier_of_mem_diagnostics h hd
  | summary => exact tier_of_mem_summaryDiagnostics h hd
  | scan =>
    cases h
    obtain ⟨file, -, rfl⟩ := List.mem_map.1 hd
    rfl

/-- A tier that fails is passed over. -/
theorem readTiers_of_error {e : NumeralError} (h : (tier.read root snippets t).1 = .error e) :
    (readTiers root snippets t (tier :: tiers)).1 = (readTiers root snippets t tiers).1 := by
  rw [readTiers]
  split
  split
  · rfl
  all_goals simp_all

theorem readTiers_of_nil (h : (tier.read root snippets t).1 = .ok []) :
    (readTiers root snippets t (tier :: tiers)).1 = (readTiers root snippets t tiers).1 := by
  rw [readTiers]
  split
  split
  · simp_all
  · rfl
  · simp_all

/-- A tier that finds something answers. -/
theorem readTiers_of_ne_nil (h : (tier.read root snippets t).1 = .ok ds) (hne : ds ≠ []) :
    (readTiers root snippets t (tier :: tiers)).1 = ds.mergeSort Diagnostic.le := by
  rw [readTiers]
  split
  split
  · simp_all
  · simp_all
  · simp_all

/-- Each diagnostic is of one of the tiers that are tried. -/
theorem tier_of_mem_readTiers (h : d ∈ (readTiers root snippets t tiers).1) : d.tier ∈ tiers := by
  induction tiers with
  | nil => cases h
  | cons tier tiers ih =>
    cases hread : (tier.read root snippets t).1 with
    | error e =>
      rw [readTiers_of_error hread] at h
      exact List.mem_cons_of_mem _ (ih h)
    | ok ds =>
      by_cases hne : ds = []
      · rw [readTiers_of_nil (hne ▸ hread)] at h
        exact List.mem_cons_of_mem _ (ih h)
      · rw [readTiers_of_ne_nil hread hne, List.mem_mergeSort] at h
        rw [Tier.tier_of_mem_read hread h]
        exact List.mem_cons_self

/-! ### The most precise tier -/

/-- The lines of the output in the most precise format. -/
def primaryLines (output : Text) : List LocatedLine :=
  Layout.parenthesised.locatedLines (lines (plainOutput output))

theorem perm_report_of_counted (hcounted : ∀ x ∈ primaryLines output, x.IsCounted)
    (hne : primaryLines output ≠ []) (root : Option Text) (snippets : Bool) :
    ((diagnosticsOf root snippets output).map (·.withoutSnippet)).Perm
      ((primaryLines output).map (·.report .parenthesised root)) := by
  obtain ⟨ds, hds, hreports⟩ := Layout.exists_diagnostics_eq_ok hcounted root snippets
  change _ = (primaryLines output).map _ at hreports
  have hsome : ds ≠ [] := by
    rintro rfl
    exact hne (List.map_eq_nil_iff.1 hreports.symm)
  have hread : (Tier.primary.read root snippets (plainOutput output)).1 = .ok ds := hds
  rw [diagnosticsOf_eq_readTiers, Tier.ladder, readTiers_of_ne_nil hread hsome, ← hreports]
  exact (List.mergeSort_perm ds _).map _

theorem tier_ne_primary_of_not_counted (h : ∃ x ∈ primaryLines output, ¬ x.IsCounted)
    (hd : d ∈ diagnosticsOf root snippets output) : d.tier ≠ .primary := by
  obtain ⟨e, he⟩ := Layout.exists_diagnostics_eq_error h root snippets
  have hread : (Tier.primary.read root snippets (plainOutput output)).1 = .error e := he
  rw [diagnosticsOf_eq_readTiers, Tier.ladder, readTiers_of_error hread] at hd
  intro htier
  have hmem := tier_of_mem_readTiers hd
  rw [htier] at hmem
  revert hmem
  decide

/-- **The numbers of all located lines decide about each of them.**  A line in the most precise
    format is reported exactly if no line in this format has a number that is too long, and then
    there is one diagnostic for each of them and no other.  A number that is too long costs all
    diagnostics of this tier. -/
theorem primary_reported_iff (root : Option Text) (snippets : Bool) {output : Text}
    {x : LocatedLine} (hx : x ∈ primaryLines output) :
    ((∃ d ∈ diagnosticsOf root snippets output,
        d.tier = .primary ∧ d.withoutSnippet = x.report .parenthesised root) ↔
      ∀ y ∈ primaryLines output, y.IsCounted) ∧
    ((∀ y ∈ primaryLines output, y.IsCounted) →
      ((diagnosticsOf root snippets output).map (·.withoutSnippet)).Perm
        ((primaryLines output).map (·.report .parenthesised root))) ∧
    ((∃ y ∈ primaryLines output, ¬ y.IsCounted) →
      ∀ d ∈ diagnosticsOf root snippets output, d.tier ≠ .primary) := by
  have hne : primaryLines output ≠ [] := List.ne_nil_of_mem hx
  refine ⟨⟨?_, ?_⟩, fun hcounted => perm_report_of_counted hcounted hne root snippets,
    fun hlong _ => tier_ne_primary_of_not_counted hlong⟩
  · rintro ⟨d, hd, htier, -⟩
    by_contra hnot
    push Not at hnot
    exact tier_ne_primary_of_not_counted hnot hd htier
  · intro hcounted
    have hperm := perm_report_of_counted hcounted hne root snippets
    obtain ⟨d, hd, hreport⟩ := List.mem_map.1 (hperm.mem_iff.2 (List.mem_map_of_mem hx))
    exact ⟨d, hd, congrArg Diagnostic.tier hreport, hreport⟩

/-- A report among lines of other kinds. -/
theorem primary_reported_among_others :
    let output := "src/b.ts:7:1 - error TS2304: n\n  a.ts(((x\nsrc/a.ts(1,10): error TS6133: m".toList
    ∃ d ∈ diagnosticsOf none true output, d.tier = .primary ∧ d.file = "src/a.ts".toList := by
  intro output
  have hx : ⟨"src/a.ts".toList, "1".toList, "10".toList, .error, "TS6133".toList, "m".toList⟩ ∈
      primaryLines output := by decide +kernel
  obtain ⟨d, hd, htier, hreport⟩ := (primary_reported_iff none true hx).1.2 (by decide +kernel)
  exact ⟨d, hd, htier, (congrArg Diagnostic.file hreport).trans (by decide +kernel)⟩

/-- A number that is too long in the second line costs the diagnostic of the first. -/
theorem primary_lost_to_long_number :
    let output := "src/a.ts(1,10): error TS6133: m\nsrc/b.ts(".toList ++
      (List.replicate 4301 '1' ++ ",1): error TS2304: n\n".toList)
    ∃ x ∈ primaryLines output, x.IsCounted ∧
      ∀ d ∈ diagnosticsOf none true output, d.tier ≠ .primary := by
  intro output
  have hx : ⟨"src/a.ts".toList, "1".toList, "10".toList, .error, "TS6133".toList, "m".toList⟩ ∈
      primaryLines output := by decide +kernel
  have hlong : ∃ x ∈ primaryLines output, ¬ x.IsCounted := by decide +kernel
  exact ⟨_, hx, by decide, fun d hd => tier_ne_primary_of_not_counted hlong hd⟩

end ImportRepair
