import ImportRepair.Fix.Console
import ImportRepair.Proofs.Import.Change
import ImportRepair.Proofs.Merge.Table
import ImportRepair.Proofs.Text.LineEnds

/-!
# Line ends of a fixed text

The merge, the removal of names, the cleanup and the console rule replace and
delete whole lines.  A new line takes over the carriage return of the line in
whose place it stands, and is free of others.  So a text with paired carriage
returns keeps them paired, except where everything goes that stands behind a
line: this line is then the last one and still ends in its carriage return.
-/

namespace ImportRepair

open Text

variable {t l new : Text} {n : Int} {s : Statement} {p : Char → Bool} {e : LineEdits}
variable {evidence : List Evidence} {names : List (Option Text)} {removed : List Text}

/-! ### New lines -/

theorem not_mem_return_bareLine (h : ReturnsAtEnd l) (n : Int) : '\r' ∉ bareLine l n := by
  have hpart := bareLine_infix l n
  refine not_mem_return_iff.2 ⟨h.part hpart, ?_⟩
  rw [endsInReturn, beq_eq_false_iff_ne]
  intro hreturn
  exact absurd (bareLine_last _ hreturn) (by decide)

/-- A recognised line hands on no carriage return. -/
theorem Statement.layoutIn_return (h : Statement.ofLine? l n = some s) (hl : ReturnsAtEnd l) :
    AllIn (· != '\r') s.raw ∧ s.LayoutIn (· != '\r') := by
  rw [Statement.ofLine?_eq] at h
  obtain ⟨hraw, -, before, c, after, o, hparts⟩ := Statement.ofBare?_cases h
  have hchars : AllIn (· != '\r') s.raw := by
    rw [hraw]
    exact allIn_ne_iff.2 (not_mem_return_bareLine hl n)
  exact ⟨hchars, hparts.layoutIn hchars⟩

theorem layoutIn_of_mem_ofText (h : t.ReturnsPaired) (hs : s ∈ ImportTable.ofText t) :
    AllIn (· != '\r') s.raw ∧ s.LayoutIn (· != '\r') := by
  obtain ⟨l, hl, hread⟩ := mem_ofText_iff.1 hs
  exact Statement.layoutIn_return hread
    (returnsAtEnd_of_mem_lines h (mem_lines_of_mem_numberedLines hl))

/-- The line of a statement that loses names keeps to its characters and the layout. -/
theorem allIn_of_changed (hp : HoldsLayout p) (hraw : AllIn p s.raw) (hlayout : s.LayoutIn p)
    (hadmits : s.form.Admits s.bindings) (h : s.removal names = .changed new removed) :
    AllIn p new := by
  unfold Statement.removal at h
  split at h
  · split at h <;> cases h
  · simp only [Statement.without] at h
    split at h
    · cases h
    · split at h
      · cases h
      · split at h
        · cases h
          exact Statement.allIn_withoutItems hp hraw
        · cases h
          exact hlayout.render hp (hadmits.filter _)

/-- Edits whose new lines are free of carriage returns keep those of the text. -/
theorem keepsReturns_line? (he : e.IsByLine) (hnew : ∀ q ∈ e.replacements, '\r' ∉ q.2)
    (h : t.ReturnsPaired) : KeepsReturns e.line? t := by
  intro q hq u hu
  refine ⟨LineEdits.not_mem_line? he (not_mem_of_mem_numberedLines hq) hu, ?_⟩
  have hmem : q.2 ∈ lines t := mem_lines_of_mem_numberedLines hq
  unfold LineEdits.line? at hu
  split at hu
  · cases hu
  · split at hu
    · next new hlookup =>
      cases hu
      obtain ⟨a, b, hab, -⟩ := List.lookup_eq_some_iff.1 hlookup
      exact LineEdits.keepReturn_returns (hnew (q.1, new) (by simp [hab]))
    · cases hu
      exact ⟨returnsAtEnd_of_mem_lines h hmem, rfl⟩

theorem keepsReturns_merge (h : t.ReturnsPaired) :
    KeepsReturns (ImportTable.ofText t).merge.edits.line? t := by
  refine keepsReturns_line? (isByLine_merge t) ?_ h
  rintro ⟨n, new⟩ hnew
  obtain ⟨g, hg, -, -, hline⟩ := ImportTable.mem_replacements_iff.1 hnew
  obtain ⟨u, hu, -, rfl⟩ := DuplicateGroup.mergedLine?_eq_some_iff.1 hline
  have hadmits : g.template.form.Admits u.bindings := by
    rw [DuplicateGroup.template_form]
    exact admits_union (isClass_statements hg) hu
  have hlayout : g.template.LayoutIn (· != '\r') := g.layoutIn_template fun s hs =>
    (layoutIn_of_mem_ofText h (ImportTable.mem_of_mem_statements hg hs).1).2
  exact allIn_ne_iff.1 (hlayout.render (holdsLayout_ne (by decide)) hadmits)

theorem keepsReturns_plan (h : t.ReturnsPaired) (evidence : List Evidence) :
    KeepsReturns (Removal.plan (ImportTable.ofText t) evidence).edits.line? t := by
  refine keepsReturns_line? (isByLine_plan t evidence) ?_ h
  rintro ⟨n, new⟩ hnew
  obtain ⟨removed, hremoval⟩ := (Removal.mem_replacements_plan_iff _ _ _ _).1 hnew
  obtain ⟨s, hs, hchanged⟩ := Option.map_eq_some_iff.1 hremoval
  obtain ⟨hmem, -⟩ := onLine?_eq_some_iff.1 hs
  obtain ⟨hraw, hlayout⟩ := layoutIn_of_mem_ofText h hmem
  exact allIn_ne_iff.1 (allIn_of_changed (holdsLayout_ne (by decide)) hraw hlayout
    (isRead_of_mem_ofText hmem).admits hchanged)

theorem keepsReturns_lineWithout? (h : t.ReturnsPaired) (evidence : List Evidence) :
    KeepsReturns (lineWithout? evidence) t := by
  cases hempty : evidence.isEmpty with
  | true =>
    refine keepsReturns_of_same h fun q _ u hu => ?_
    rw [lineWithout?, if_pos hempty] at hu
    exact (Option.some.inj hu).symm
  | false =>
    intro q hq u hu
    rw [lineWithout?_of_mem hempty hq] at hu
    obtain ⟨v, hv, hguard⟩ := Option.bind_eq_some_iff.1 hu
    obtain ⟨rfl, -⟩ := Option.guard_eq_some_iff.1 hguard
    exact keepsReturns_plan h evidence q hq _ hv

theorem keepsReturns_guard (h : t.ReturnsPaired) (q : Text → Bool) :
    KeepsReturns (fun _ => Option.guard q) t := by
  refine keepsReturns_of_same h fun r _ u hu => ?_
  exact (Option.guard_eq_some_iff.1 hu).1.symm

/-! ### The operations -/

/-- An operation that replaces and deletes lines of a text. -/
inductive Cleanup where
  | merge
  | removal (evidence : List Evidence)
  | emptyImports
  | consoleCalls

namespace Cleanup

def apply : Cleanup → Text → Text
  | merge => mergeImports
  | removal evidence => dropUnused evidence
  | emptyImports => dropEmptyImports
  | consoleCalls => removeConsoleCalls

/-- What the operation leaves of a line of the text. -/
def line? (c : Cleanup) (t : Text) : Int → Text → Option Text :=
  match c with
  | merge => (ImportTable.ofText t).merge.edits.line?
  | removal evidence => lineWithout? evidence
  | emptyImports => fun _ => Option.guard (!bindsNothing ·)
  | consoleCalls => fun _ => Option.guard (!isConsoleCall ·)

/-- The lines that the operation leaves. -/
def survivors (c : Cleanup) (t : Text) : List Text :=
  (numberedLines t).filterMap fun p => c.line? t p.1 p.2

theorem survivors_guard (q : Text → Bool) (t : Text) :
    ((numberedLines t).filterMap fun p => Option.guard q p.2) = (lines t).filter q := by
  rw [numberedLines_eq, filterMap_numberFrom, List.filterMap_eq_filter]

/-- The operation works line by line. -/
theorem apply_eq_unlines (c : Cleanup) (t : Text) :
    ∃ ls, c.apply t = unlines ls ∧ LineEdits.UpToMark (c.survivors t) ls := by
  cases c with
  | merge =>
    rw [apply, mergeImports, MergePlan.apply_eq]
    exact LineEdits.upToMark_apply _ t
  | removal evidence => exact dropUnused_eq_unlines evidence t
  | emptyImports =>
    have hguard : survivors .emptyImports t =
        (lines t).filterMap (Option.guard (!bindsNothing ·)) := by
      rw [List.filterMap_eq_filter]
      exact survivors_guard (!bindsNothing ·) t
    rw [hguard]
    exact dropEmptyImports_eq_unlines t
  | consoleCalls => exact ⟨_, rfl, Or.inl (survivors_guard (!isConsoleCall ·) t).symm⟩

theorem keepsReturns (c : Cleanup) (h : t.ReturnsPaired) : KeepsReturns (c.line? t) t := by
  cases c with
  | merge => exact keepsReturns_merge h
  | removal evidence => exact keepsReturns_lineWithout? h evidence
  | emptyImports => exact keepsReturns_guard h _
  | consoleCalls => exact keepsReturns_guard h _

/-! ### The byte order mark -/

theorem hasMark_dropEmptyImports (h : t.hasMark = true)
    (hne : (lines t).filterMap (Option.guard (!bindsNothing ·)) ≠ []) :
    (dropEmptyImports t).hasMark = true := by
  rw [← linesAfter_emptyImportLines] at hne
  rw [dropEmptyImports_eq_apply]
  exact LineEdits.hasMark_apply h hne

/-- The mark is handed on twice: by the removal to the first line that it leaves, and by the
    cleanup behind it. -/
theorem hasMark_dropUnused (h : t.hasMark = true)
    (hne : ((numberedLines t).filterMap fun p => lineWithout? evidence p.1 p.2) ≠ []) :
    (dropUnused evidence t).hasMark = true := by
  cases hempty : evidence.isEmpty with
  | true => rwa [dropUnused, if_pos hempty]
  | false =>
    rw [filterMap_lineWithout? hempty] at hne
    rw [dropUnused, hempty, if_neg Bool.false_ne_true, Removal.apply]
    have hbyLine := isByLine_plan t evidence
    generalize (Removal.plan (ImportTable.ofText t) evidence).edits = e at hbyLine hne ⊢
    have hleft : e.linesAfter t ≠ [] := by
      intro hnil
      rw [hnil] at hne
      exact hne rfl
    apply hasMark_dropEmptyImports (LineEdits.hasMark_apply h hleft)
    have hguard := LineEdits.upToMark_filterMap respectsMark_guard
      (LineEdits.lines_apply hbyLine hleft)
    rw [filterMap_numberFrom, filterMap_numberFrom] at hguard
    rw [← List.length_pos_iff] at hne ⊢
    rwa [length_of_upToMark hguard]

/-- A byte order mark is no white space, so the line behind it is taken for no call. -/
theorem isConsoleCall_of_hasMark (h : l.hasMark = true) : isConsoleCall l = false := by
  cases l with
  | nil => cases h
  | cons c l =>
    obtain rfl : c = byteOrderMark := by simpa [hasMark] using h
    have hdrop : dropEndWhile (· == '\r') (byteOrderMark :: l) =
        byteOrderMark :: dropEndWhile (· == '\r') l := dropEndWhile_cons_of_neg (by decide)
    have hstop : isBlank byteOrderMark = false := by decide
    have htrim : trimLeft (byteOrderMark :: dropEndWhile (· == '\r') l) =
        byteOrderMark :: dropEndWhile (· == '\r') l := dropWhile_of_stops (stops_cons.2 hstop)
    have hnone : consoleArguments? (byteOrderMark :: l) = none := by
      rw [consoleArguments?, hdrop, htrim]
      rfl
    rw [isConsoleCall, hnone]
    rfl

theorem hasMark_removeConsoleCalls (h : t.hasMark = true) :
    (removeConsoleCalls t).hasMark = true := by
  obtain ⟨l, ls, hl⟩ := List.exists_cons_of_ne_nil (lines_ne_nil t)
  have hfirst : l.hasMark = true := by rw [← hasMark_of_lines_eq_cons hl, h]
  rw [removeConsoleCalls, hl, List.filter_cons, isConsoleCall_of_hasMark hfirst]
  exact hasMark_unlines hfirst

theorem hasMark_apply (c : Cleanup) (h : t.hasMark = true) (hne : c.survivors t ≠ []) :
    (c.apply t).hasMark = true := by
  cases c with
  | merge =>
    rw [apply, mergeImports, MergePlan.apply_eq]
    exact LineEdits.hasMark_apply h hne
  | removal evidence => exact hasMark_dropUnused h hne
  | emptyImports =>
    apply hasMark_dropEmptyImports h
    rw [List.filterMap_eq_filter, ← survivors_guard]
    exact hne
  | consoleCalls => exact hasMark_removeConsoleCalls h

/-! ### What a text keeps -/

theorem returnsPaired_apply_iff (c : Cleanup) (h : t.ReturnsPaired) :
    (c.apply t).ReturnsPaired ↔ ¬ Strands (c.line? t) t := by
  obtain ⟨ls, hls, hmark⟩ := c.apply_eq_unlines t
  rw [hls]
  exact returnsPaired_iff_not_strands (c.keepsReturns h) hmark

/-- **Line ends and the byte order mark of a changed text.**  Each operation works line by line.
    The carriage returns stay in front of line feeds unless a line that ends in one is left and
    all lines behind it go, and a byte order mark stays at the front as long as a line is left. -/
theorem lineEnds_apply (c : Cleanup) (h : t.ReturnsPaired) :
    (∃ ls, c.apply t = unlines ls ∧ LineEdits.UpToMark (c.survivors t) ls) ∧
      ((c.apply t).ReturnsPaired ↔ ¬ Strands (c.line? t) t) ∧
      (t.hasMark = true → c.survivors t ≠ [] → (c.apply t).hasMark = true) := by
  have hlines := c.apply_eq_unlines t
  exact ⟨hlines, c.returnsPaired_apply_iff h, c.hasMark_apply⟩

/-- The mark moves to the second line, and the third leaves a carriage return behind. -/
theorem lineEnds_apply_emptyImports :
    let t : Text := "\uFEFFimport {} from 'a';\r\nx\r\nimport {} from 'b';".toList
    t.ReturnsPaired ∧ Strands (emptyImports.line? t) t ∧ (emptyImports.apply t).hasMark = true := by
  intro t
  have hpaired : t.ReturnsPaired := by decide +kernel
  obtain ⟨-, hreturns, hmark⟩ := lineEnds_apply .emptyImports hpaired
  refine ⟨hpaired, ?_, hmark (by decide +kernel) (by decide +kernel)⟩
  have hlone : ¬ (apply .emptyImports t).ReturnsPaired := by decide +kernel
  by_contra hnot
  exact hlone (hreturns.2 hnot)

/-- A deleted last line leaves the carriage return of the line before it at the end. -/
theorem lineEnds_not_kept : ¬ ∀ (c : Cleanup) (t : Text), t.ReturnsPaired →
    (c.apply t).ReturnsPaired := by
  intro h
  have hkept := h .emptyImports "x\r\nimport {} from 'a';".toList (by decide +kernel)
  revert hkept
  decide +kernel

end Cleanup

end ImportRepair
