import ImportRepair.Fix.Heuristic
import ImportRepair.Proofs.Import.Change
import ImportRepair.Proofs.Merge.Renumbering

/-!
# Edits and what is reported of them

A fix counts its changes and lists its actions.  The merge and the rules count
every line that they take away, and the removal counts every name, so a text
that changes has been reported.  Only imports of nothing that stand in the text
from the start are swept away without a word.
-/

namespace ImportRepair

open Text

variable {t : Text} {f : TextFix} {table : ImportTable} {flags : FixFlags}
variable {evidence : List Evidence}

/-! ### Fixes that account for themselves -/

/-- The fix lists actions exactly if it counts changes, and each change shortens the text. -/
structure TextFix.Accounts (f : TextFix) (t : Text) : Prop where
  listed : f.actions = [] ↔ f.changeCount = 0
  same : f.changeCount = 0 → f.text = t
  shorter : 0 < f.changeCount → lineCount f.text < lineCount t

namespace TextFix.Accounts

theorem text_ne_iff (h : f.Accounts t) : f.text ≠ t ↔ 0 < f.changeCount := by
  constructor
  · intro hne
    exact Nat.pos_of_ne_zero fun hzero => hne (h.same hzero)
  · intro hpos heq
    have hlt := h.shorter hpos
    rw [heq] at hlt
    exact Nat.lt_irrefl _ hlt

theorem actions_ne_iff (h : f.Accounts t) : f.actions ≠ [] ↔ 0 < f.changeCount := by
  rw [Ne, h.listed, Nat.pos_iff_ne_zero]

theorem lineCount_le (h : f.Accounts t) : lineCount f.text ≤ lineCount t := by
  rcases Nat.eq_zero_or_pos f.changeCount with hzero | hpos
  · rw [h.same hzero]
  · exact Nat.le_of_lt (h.shorter hpos)

theorem unchanged (t : Text) : TextFix.Accounts { text := t } t :=
  ⟨iff_of_true rfl rfl, fun _ => rfl, fun h => absurd h (Nat.lt_irrefl 0)⟩

end TextFix.Accounts

/-! ### Rules -/

/-- A rule that counts something in a text shortens it. -/
theorem Rule.lineCount_apply_lt {rule : Rule} (h : rule.count t ≠ 0) :
    lineCount (rule.apply t) < lineCount t := by
  cases rule with
  | consoleStatements =>
    have hcount : countConsoleCalls t ≠ 0 := h
    have ht : t ≠ [] := by
      rintro rfl
      exact hcount rfl
    have hline : ∀ l ∈ (lines t).filter fun l => !isConsoleCall l, '\n' ∉ l :=
      fun l hl => not_mem_of_mem_lines (List.mem_of_mem_filter hl)
    have hlength := List.length_eq_countP_add_countP isConsoleCall (l := lines t)
    rw [lineCount_of_ne_nil ht]
    calc lineCount (removeConsoleCalls t)
        ≤ ((lines t).filter fun l => !isConsoleCall l).length := lineCount_unlines_le hline
      _ = (lines t).countP fun l => !isConsoleCall l := List.countP_eq_length_filter.symm
      _ < (lines t).length := by
        rw [countConsoleCalls] at hcount
        simp only [Bool.not_eq_true, Bool.decide_eq_false] at hlength
        omega

theorem accounts_applyRule (h : f.Accounts t) (name : Text) : (f.applyRule name).Accounts t := by
  unfold TextFix.applyRule
  cases Rule.ofName? name with
  | none => exact h
  | some rule =>
    dsimp only
    split
    · exact h
    · next n hcount =>
      have hlt : lineCount (rule.apply f.text) < lineCount f.text :=
        Rule.lineCount_apply_lt (by omega)
      exact {
        listed := by simp
        same := fun hzero => absurd hzero (Nat.succ_ne_zero _)
        shorter := fun _ => hlt.trans_le h.lineCount_le }

/-- **Rules that are applied one after the other account for themselves.** -/
theorem accounts_applyAll (h : f.Accounts t) (names : List Text) : (f.applyAll names).Accounts t := by
  unfold TextFix.applyAll
  induction names generalizing f with
  | nil => exact h
  | cons name names ih => exact ih (accounts_applyRule h name)

/-! ### The merge -/

theorem changes_merge_iff : table.merge.changes = true ↔ table.merge.deletionCount ≠ 0 := by
  rw [MergePlan.changes, MergePlan.deletionCount, Bool.or_eq_true, Bool.not_eq_true',
    Bool.not_eq_true', List.isEmpty_eq_false_iff, List.isEmpty_eq_false_iff,
    ← Nat.pos_iff_ne_zero, List.length_pos_iff]
  refine or_iff_right_of_imp fun hne => ?_
  -- a line is only written anew for a group that loses lines
  obtain ⟨⟨n, new⟩, hnew⟩ := List.exists_mem_of_ne_nil _ hne
  obtain ⟨g, hg, -, -, hmerged⟩ := ImportTable.mem_replacements_iff.1 hnew
  have hredirect : (g.second.line, g.first.line) ∈ table.merge.redirects :=
    ImportTable.mem_redirects_iff.2 ⟨g, hg, DuplicateGroup.isMerged_iff.2 ⟨new, hmerged⟩, rfl,
      g.second, List.mem_cons_self, rfl⟩
  exact List.ne_nil_of_mem hredirect

theorem apply_merge_of_deletionCount (h : (ImportTable.ofText t).merge.deletionCount = 0) :
    mergeImports t = t := by
  have hchanges : ¬ (ImportTable.ofText t).merge.changes = true := by simp [changes_merge_iff, h]
  rw [mergeImports, MergePlan.apply, if_neg hchanges]

theorem lineCount_mergeImports_lt (h : 0 < (ImportTable.ofText t).merge.deletionCount) :
    lineCount (mergeImports t) < lineCount t := by
  have hlength := (renumbers_mergeImports t).length
  have hpos := List.length_pos_of_ne_nil (lines_ne_nil (mergeImports t))
  have ht : t ≠ [] := by
    rintro rfl
    have hone : (lines []).length = 1 := rfl
    omega
  have hle := lineCount_le (mergeImports t)
  rw [lineCount_of_ne_nil ht]
  omega

theorem accounts_heuristicMerge (t : Text) : (heuristicMerge t).Accounts t where
  listed := by
    rw [heuristicMerge]
    dsimp only
    split <;> simp [*]
  same := apply_merge_of_deletionCount
  shorter := lineCount_mergeImports_lt

theorem accounts_mergedFix (flags : FixFlags) (t : Text) : (mergedFix flags t).Accounts t := by
  unfold mergedFix FixFlags.mergePlan
  cases flags.mergeDuplicates with
  | false => exact .unchanged t
  | true =>
    rw [if_pos rfl]
    dsimp only
    split
    · next hchanges =>
      have hcount := changes_merge_iff.1 hchanges
      exact {
        listed := iff_of_false (List.cons_ne_nil _ _) hcount
        same := fun hzero => absurd hzero hcount
        shorter := lineCount_mergeImports_lt }
    · exact .unchanged t

theorem accounts_heuristicFix (mergeDuplicates : Bool) (rules : List Text) (t : Text) :
    (heuristicFix mergeDuplicates rules t).Accounts t := by
  refine accounts_applyAll ?_ rules
  split
  · exact accounts_heuristicMerge t
  · exact .unchanged t

/-! ### The fix by evidence -/

/-- The fix sweeps away an import of nothing that stands in the text: it drops unused names, and a
    record of evidence is left after the merge. -/
def Sweeps (flags : FixFlags) (evidence : List Evidence) (t : Text) : Prop :=
  flags.dropUnused = true ∧ (∃ l ∈ lines t, bindsNothing l = true) ∧
    ∃ e ∈ evidence, e.name ≠ none ∨
      ∀ s, (ImportTable.ofText t).onLine? e.line = some s → s.bindings ≠ []

theorem mergedEvidence_ne_nil_iff : mergedEvidence flags evidence t ≠ [] ↔
    ∃ e ∈ evidence, e.name ≠ none ∨
      ∀ s, (ImportTable.ofText t).onLine? e.line = some s → s.bindings ≠ [] := by
  have hmove : ∀ e : Evidence, ∀ plan, e.move (ImportTable.ofText t) plan ≠ [] ↔
      (e.name ≠ none ∨ ∀ s, (ImportTable.ofText t).onLine? e.line = some s → s.bindings ≠ []) := by
    intro e plan
    unfold Evidence.move
    cases hname : e.name with
    | some x => simp
    | none =>
      cases hs : (ImportTable.ofText t).onLine? e.line with
      | none => simp
      | some s => simp [Statement.boundNames]
  simp only [mergedEvidence, moveEvidence, Ne, List.flatMap_eq_nil_iff, not_forall]
  simp only [← Ne.eq_def, hmove, exists_prop]

theorem TextFix.Accounts.remove (h : f.Accounts t) (evidence : List Evidence) :
    ((f.remove evidence).text ≠ t ↔ 0 < (f.remove evidence).changeCount ∨
      evidence ≠ [] ∧ ∃ l ∈ lines t, bindsNothing l = true) ∧
    ((f.remove evidence).actions ≠ [] ↔ 0 < (f.remove evidence).changeCount) := by
  unfold TextFix.remove
  dsimp only
  constructor
  · rcases Nat.eq_zero_or_pos f.changeCount with hzero | hpos
    · rw [h.same hzero, hzero, Nat.zero_add, List.length_pos_iff, dropUnused_ne_iff]
    · refine iff_of_true (fun heq => ?_) (Or.inl (Nat.add_pos_left hpos _))
      have hle := lineCount_dropUnused_le evidence f.text
      have hlt := h.shorter hpos
      rw [heq] at hle
      omega
  · rw [Ne, List.append_eq_nil_iff, h.listed, Nat.pos_iff_ne_zero, Ne, Nat.add_eq_zero_iff,
      List.length_eq_zero_iff]
    split <;> simp_all

/-- **Every edit is reported, but for imports of nothing.**  The fix without evidence changes a
    text exactly if it counts a change and lists an action.  The fix by evidence may also sweep
    away imports of nothing, which it neither counts nor lists. -/
theorem edits_reported_iff (mergeDuplicates : Bool) (rules : List Text) (flags : FixFlags)
    (evidence : List Evidence) (t : Text) :
    (((heuristicFix mergeDuplicates rules t).text ≠ t ↔
        0 < (heuristicFix mergeDuplicates rules t).changeCount) ∧
      ((heuristicFix mergeDuplicates rules t).actions ≠ [] ↔
        0 < (heuristicFix mergeDuplicates rules t).changeCount)) ∧
    ((certifiedFix flags evidence t).text ≠ t ↔
        0 < (certifiedFix flags evidence t).changeCount ∨ Sweeps flags evidence t) ∧
      ((certifiedFix flags evidence t).actions ≠ [] ↔
        0 < (certifiedFix flags evidence t).changeCount) := by
  constructor
  · have haccounts := accounts_heuristicFix mergeDuplicates rules t
    exact ⟨haccounts.text_ne_iff, haccounts.actions_ne_iff⟩
  · have haccounts := accounts_mergedFix flags t
    rw [certifiedFix, Sweeps]
    cases hdrop : flags.dropUnused with
    | false => simpa using ⟨haccounts.text_ne_iff, haccounts.actions_ne_iff⟩
    | true =>
      have hremove := haccounts.remove (mergedEvidence flags evidence t)
      rw [mergedEvidence_ne_nil_iff] at hremove
      simpa [and_comm] using hremove

/-- A record of a name that no import binds makes the fix sweep away an import of nothing.  Nothing
    is counted and nothing is listed. -/
theorem edits_reported_empty_import :
    let t := "import {} from 'm';\nuse(x);\n".toList
    let fix := certifiedFix {} [{ line := 2, name := some "x".toList }] t
    fix.text = "use(x);\n".toList ∧ fix.text ≠ t ∧ fix.changeCount = 0 ∧ fix.actions = [] := by
  decide +kernel

end ImportRepair
