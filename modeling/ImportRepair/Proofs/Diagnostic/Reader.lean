import ImportRepair.Proofs.Diagnostic.Located
import ImportRepair.Proofs.Run.Batch
import ImportRepair.Proofs.Text.Lines

/-!
# What is read from the output of the compiler

Output in one of the two line formats is decoded without loss: every line that
reports a diagnostic gives this diagnostic, all other lines give none, and the
diagnostics come in a stable order of their places.
-/

namespace ImportRepair

open Text

variable {root : Option Text} {l : Layout} {t : Text}

/-! ### The order of diagnostics -/

namespace Diagnostic

theorem le_iff {d e : Diagnostic} : le d e = true ↔
    d.file ≠ e.file ∧ Text.le d.file e.file = true ∨
      d.file = e.file ∧ (d.line < e.line ∨ d.line = e.line ∧ d.column ≤ e.column) := by
  unfold le
  by_cases hfile : d.file = e.file
  · by_cases hline : d.line = e.line <;> simp [hfile, hline]
  · simp [hfile]

theorem le_total (d e : Diagnostic) : (le d e || le e d) = true := by
  rw [Bool.or_eq_true, le_iff, le_iff]
  by_cases hfile : d.file = e.file
  · have hplace : (d.line < e.line ∨ d.line = e.line ∧ d.column ≤ e.column) ∨
        (e.line < d.line ∨ e.line = d.line ∧ e.column ≤ d.column) := by omega
    exact hplace.imp (fun h => .inr ⟨hfile, h⟩) fun h => .inr ⟨hfile.symm, h⟩
  · have htext := Text.le_total d.file e.file
    rw [Bool.or_eq_true] at htext
    exact htext.imp (fun h => .inl ⟨hfile, h⟩) fun h => .inl ⟨Ne.symm hfile, h⟩

theorem le_trans (d e f : Diagnostic) (h : le d e = true) (h' : le e f = true) :
    le d f = true := by
  rw [le_iff] at h h' ⊢
  rcases h with ⟨hne, hle⟩ | ⟨heq, hplace⟩
  · rcases h' with ⟨-, hle'⟩ | ⟨heq', -⟩
    · refine .inl ⟨?_, Text.le_trans hle hle'⟩
      intro hfile
      rw [← hfile] at hle'
      exact hne (Text.le_antisymm hle hle')
    · exact .inl ⟨heq' ▸ hne, heq' ▸ hle⟩
  · rcases h' with ⟨hne', hle'⟩ | ⟨heq', hplace'⟩
    · exact .inl ⟨heq ▸ hne', heq ▸ hle'⟩
    · exact .inr ⟨heq.trans heq', by omega⟩

/-- Two diagnostics have the same place. -/
def samePlace (d e : Diagnostic) : Bool := d.file = e.file ∧ d.line = e.line ∧ d.column = e.column

/-- Sorting keeps the order of the diagnostics that have the same place. -/
theorem filter_mergeSort (d : Diagnostic) (ds : List Diagnostic) :
    (ds.mergeSort le).filter (samePlace d) = ds.filter (samePlace d) := by
  have hsorted : (ds.filter (samePlace d)).Pairwise fun e f => le e f = true := by
    apply List.pairwise_of_forall_mem_list
    intro e he f hf
    have hplace := (List.mem_filter.1 he).2
    have hplace' := (List.mem_filter.1 hf).2
    simp only [samePlace, decide_eq_true_eq] at hplace hplace'
    exact le_iff.2 (.inr ⟨hplace.1.symm.trans hplace'.1, by omega⟩)
  have hsub : (ds.filter (samePlace d)).Sublist (ds.mergeSort le) :=
    List.sublist_mergeSort le_trans le_total hsorted List.filter_sublist
  have hsub' := hsub.filter (samePlace d)
  rw [List.filter_filter, List.filter_congr fun _ _ => Bool.and_self _] at hsub'
  have hlength := ((List.mergeSort_perm ds le).filter (samePlace d)).length_eq
  exact (hsub'.eq_of_length hlength.symm).symm

end Diagnostic

/-! ### The text of the output -/

theorem dropColours_of_notMem (h : escapeMark ∉ t) : dropColours 0 t = t := by
  induction t with
  | nil => rfl
  | cons c t ih =>
    rw [List.mem_cons, not_or] at h
    rw [dropColours, if_neg (Ne.symm h.1), ih h.2]

theorem unifyLineEnds_of_notMem (h : '\r' ∉ t) : unifyLineEnds t = t := by
  induction t with
  | nil => rfl
  | cons c t ih =>
    rw [List.mem_cons, not_or] at h
    rw [unifyLineEnds.eq_3 _ _ fun _ hc _ => h.1 hc.symm, if_neg (Ne.symm h.1), ih h.2]

theorem exists_mem_of_mem_unlines {ls : List Text} {c : Char} (h : c ∈ unlines ls) :
    c = '\n' ∨ ∃ u ∈ ls, c ∈ u := by
  induction ls with
  | nil => cases h
  | cons u ls ih =>
    cases ls with
    | nil => exact .inr ⟨u, by simp, by simpa [unlines] using h⟩
    | cons v ls =>
      rw [unlines, List.intercalate_cons_cons, List.append_assoc, List.mem_append] at h
      rcases h with h | h
      · exact .inr ⟨u, by simp, h⟩
      rcases List.mem_append.1 h with h | h
      · exact .inl (by simpa using h)
      rcases ih h with hc | ⟨w, hw, hc⟩
      · exact .inl hc
      · exact .inr ⟨w, List.mem_cons_of_mem _ hw, hc⟩

theorem mem_unlines {ls : List Text} {u : Text} {c : Char} (hu : u ∈ ls) (hc : c ∈ u) :
    c ∈ unlines ls := by
  induction ls with
  | nil => cases hu
  | cons v ls ih =>
    cases ls with
    | nil =>
      rw [List.mem_singleton] at hu
      simpa [unlines, ← hu] using hc
    | cons w ls =>
      rw [unlines, List.intercalate_cons_cons, List.append_assoc, List.mem_append, List.mem_append]
      rcases List.mem_cons.1 hu with rfl | hu
      · exact .inl hc
      · exact .inr (.inr (ih hu))

/-- A line of output: a report in one of the two formats, or anything else. -/
inductive OutputLine where
  | report (x : LocatedLine)
  | other (t : Text)

namespace OutputLine

def text (l : Layout) : OutputLine → Text
  | report x => x.text l
  | other t => t

def report? : OutputLine → Option LocatedLine
  | report x => some x
  | other _ => none

/-- The line can be told from the lines of the other kind. -/
def IsReadable (l : Layout) (root : Option Text) : OutputLine → Prop
  | report x => x.IsWritten l root
  | other t => AllIn staysInLine t ∧ l.line? (trim t) = none

variable {o : OutputLine} {os : List OutputLine}

theorem IsReadable.chars (h : o.IsReadable l root) : AllIn staysInLine (o.text l) := by
  cases o with
  | report x => exact LocatedLine.IsWritten.chars_text h
  | other t => exact h.1

/-- The lines that report give their diagnostics, one by one. -/
theorem diagnostics_map_text (h : ∀ o ∈ os, o.IsReadable l root) :
    l.diagnostics root false (os.map (text l)) =
      .ok ((os.filterMap report?).map (·.asDiagnostic l)) := by
  induction os with
  | nil => rfl
  | cons o os ih =>
    have hrest := ih fun o' ho' => h o' (List.mem_cons_of_mem _ ho')
    cases o with
    | report x =>
      have hx : x.IsWritten l root := h (.report x) List.mem_cons_self
      rw [List.map_cons, text, Layout.diagnostics, hx.trim_text, hx.line?_text]
      simp only [hx.diagnostic_eq, hrest]
      rfl
    | other t =>
      have ht := (h (.other t) List.mem_cons_self).2
      rw [List.map_cons, text, Layout.diagnostics, ht]
      exact hrest

/-- A text without a line in the format gives no diagnostics. -/
theorem diagnostics_eq_nil {ls : List Text} (h : ∀ t ∈ ls, l.line? (trim t) = none)
    (root : Option Text) (snippets : Bool) : l.diagnostics root snippets ls = .ok [] := by
  induction ls with
  | nil => rfl
  | cons t ls ih =>
    rw [Layout.diagnostics, h t List.mem_cons_self]
    exact ih fun u hu => h u (List.mem_cons_of_mem _ hu)

end OutputLine

/-! ### Decoding -/

namespace OutputLine

variable {os : List OutputLine}

theorem exists_report_of_ne_nil (h : os.filterMap report? ≠ []) : ∃ x, .report x ∈ os := by
  obtain ⟨x, hx⟩ := List.exists_mem_of_ne_nil _ h
  obtain ⟨o, ho, hox⟩ := List.mem_filterMap.1 hx
  cases o with
  | report y => exact ⟨y, ho⟩
  | other t => cases hox

/-- The output is not blank, and neither colours nor the kind of line ends change it. -/
theorem readOutput_unlines (hos : ∀ o ∈ os, o.IsReadable l root)
    (hsome : os.filterMap report? ≠ []) :
    readOutput root false (unlines (os.map (text l))) =
      readTiers root false (unlines (os.map (text l))) Tier.ladder := by
  have hchars {c : Char} (hc : c ∈ unlines (os.map (text l))) :
      c = '\n' ∨ staysInLine c = true := by
    rcases exists_mem_of_mem_unlines hc with hc | ⟨u, hu, hc⟩
    · exact .inl hc
    · obtain ⟨o, ho, rfl⟩ := List.mem_map.1 hu
      exact .inr ((hos o ho).chars c hc)
  have hescape : escapeMark ∉ unlines (os.map (text l)) := by
    intro hmem
    rcases hchars hmem with h | h <;> cases h
  have hreturn : '\r' ∉ unlines (os.map (text l)) := by
    intro hmem
    rcases hchars hmem with h | h <;> cases h
  have hblank : allBlank (unlines (os.map (text l))) = false := by
    obtain ⟨x, hx⟩ := exists_report_of_ne_nil hsome
    have hwritten : x.IsWritten l root := hos _ hx
    obtain ⟨c, file, hfile⟩ := List.exists_cons_of_ne_nil hwritten.file_ne_nil
    have hhead : isBlank c = false := by
      have hstop := hwritten.isTrimmed_file.head
      rwa [hfile, stops_cons] at hstop
    have hmem : c ∈ unlines (os.map (text l)) :=
      mem_unlines (List.mem_map_of_mem hx) (by simp [text, LocatedLine.text, hfile])
    rw [allBlank, List.all_eq_false]
    exact ⟨c, hmem, by simp [hhead]⟩
  rw [readOutput, hblank, dropColours_of_notMem hescape, unifyLineEnds_of_notMem hreturn]
  rfl

/-- The tier of the format answers with the diagnostics of all its lines. -/
theorem diagnosticsOf_eq_mergeSort (hos : ∀ o ∈ os, o.IsReadable l root)
    (hsome : os.filterMap report? ≠ [])
    (hfirst : l = .colonSeparated →
      ∀ o ∈ os, Layout.parenthesised.line? (trim (o.text l)) = none) :
    diagnosticsOf root false (unlines (os.map (text l))) =
      ((os.filterMap report?).map (·.asDiagnostic l)).mergeSort Diagnostic.le := by
  have hlines : lines (unlines (os.map (text l))) = os.map (text l) := by
    apply lines_unlines
    · intro u hu hmem
      obtain ⟨o, ho, rfl⟩ := List.mem_map.1 hu
      exact ne_of_staysInLine (hos o ho).chars hmem (by decide) rfl
    · intro hnil
      rw [List.map_eq_nil_iff] at hnil
      exact hsome (by rw [hnil]; rfl)
  have hread := diagnostics_map_text hos
  obtain ⟨d, ds, hds⟩ := List.exists_cons_of_ne_nil (mt List.map_eq_nil_iff.1 hsome)
  rw [hds] at hread
  rw [diagnosticsOf, readOutput_unlines hos hsome, hds]
  cases l with
  | parenthesised => simp only [Tier.ladder, readTiers, Tier.read, hlines, hread]
  | colonSeparated =>
    have hnone : Layout.parenthesised.diagnostics root false (os.map (text .colonSeparated)) =
        .ok [] := by
      apply diagnostics_eq_nil
      intro u hu
      obtain ⟨o, ho, rfl⟩ := List.mem_map.1 hu
      exact hfirst rfl o ho
    simp only [Tier.ladder, readTiers, Tier.read, hlines, hnone, hread]

end OutputLine

open OutputLine in
/-- Output in one of the formats is decoded without loss: one diagnostic for each report, with the
    fields of the report, sorted by place and otherwise in the order of the reports.  The usual
    decimal numerals are among those that a report may be written with. -/
theorem diagnosticsOf_unlines {os : List OutputLine} (hos : ∀ o ∈ os, o.IsReadable l root)
    (hsome : os.filterMap report? ≠ [])
    (hfirst : l = .colonSeparated →
      ∀ o ∈ os, Layout.parenthesised.line? (trim (o.text l)) = none) :
    let reported := (os.filterMap report?).map (·.asDiagnostic l)
    let read := diagnosticsOf root false (unlines (os.map (text l)))
    read.Perm reported ∧ read.Pairwise (fun d e => Diagnostic.le d e = true) ∧
      (∀ d : Diagnostic, read.filter d.samePlace = reported.filter d.samePlace) ∧
      ∀ n < 10 ^ Numeral.maxDigits,
        IsNumeral (Nat.toDigits 10 n) ∧ Numeral.value (Nat.toDigits 10 n) = n := by
  intro reported read
  have hread : read = reported.mergeSort Diagnostic.le :=
    diagnosticsOf_eq_mergeSort hos hsome hfirst
  rw [hread]
  refine ⟨List.mergeSort_perm _ _, ?_, fun d => Diagnostic.filter_mergeSort d _, ?_⟩
  · exact List.pairwise_mergeSort Diagnostic.le_trans Diagnostic.le_total _
  · exact fun n hn => ⟨isNumeral_toDigits hn, Numeral.value_toDigits n⟩

/-- Two reports around a line of source.  The first has parentheses in the name of its file and
    quotes another diagnostic in its message. -/
def sampleOutput : List OutputLine :=
  [.report ⟨"src/(app)/page.tsx".toList, "12".toList, "5".toList, .error, "TS2304".toList,
      "Cannot find name 'x' (as in b.ts(1,2): error TS1: y).".toList⟩,
    .other "12   x();".toList,
    .report ⟨"lib/a.ts".toList, "3".toList, "1".toList, .warning, "TS6133".toList,
      "'b' is declared but its value is never read.".toList⟩]

theorem diagnosticsOf_unlines_sample :
    ((diagnosticsOf (some "/work/app".toList) false
      (unlines (sampleOutput.map (OutputLine.text .parenthesised)))).map
        fun d => (d.file, d.line, d.column)).Perm
      [("src/(app)/page.tsx".toList, 12, 5), ("lib/a.ts".toList, 3, 1)] := by
  have hclear : Layout.parenthesised.Clears "src/(app)/page.tsx".toList ∧
      Layout.parenthesised.Clears "lib/a.ts".toList := by
    refine ⟨?_, ?_⟩
    all_goals
      refine Layout.clears_of_tails ?_
      decide +kernel
  have hos : ∀ o ∈ sampleOutput, o.IsReadable .parenthesised (some "/work/app".toList) := by
    intro o ho
    simp only [sampleOutput, List.mem_cons, List.not_mem_nil, or_false] at ho
    rcases ho with rfl | rfl | rfl
    · exact ⟨by decide, by decide +kernel, by decide +kernel, hclear.1,
        ⟨by decide, by decide +kernel, by decide⟩,
        ⟨by decide, by decide +kernel, by decide⟩,
        ⟨"2304".toList, by decide, by decide +kernel, rfl⟩,
        ⟨by decide, by decide +kernel, stops_reverse.1 (by decide +kernel)⟩,
        by decide +kernel⟩
    · exact ⟨by decide +kernel, by decide +kernel⟩
    · exact ⟨by decide, by decide +kernel, by decide +kernel, hclear.2,
        ⟨by decide, by decide +kernel, by decide⟩,
        ⟨by decide, by decide +kernel, by decide⟩,
        ⟨"6133".toList, by decide, by decide +kernel, rfl⟩,
        ⟨by decide, by decide +kernel, stops_reverse.1 (by decide +kernel)⟩,
        by decide +kernel⟩
  exact (diagnosticsOf_unlines hos (by decide) (by decide)).1.map _

end ImportRepair
