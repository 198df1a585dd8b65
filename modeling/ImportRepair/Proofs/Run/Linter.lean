import ImportRepair.Proofs.Evidence.Linter
import ImportRepair.Proofs.Run.Course

/-!
# How the linter can end a run

A pass puts up with a linter that cannot be started, takes too long, fails, or
prints no JSON list.  It does not put up with a command that cannot be split
into words or holds the character NUL, with output that is no text, or with a
JSON list in which an entry has an unexpected shape; these end the run.
-/

namespace ImportRepair

open Machine

variable {s : Settings} {m m' : Machine} {ds : List Diagnostic} {c : ToolCall} {reply : ToolResult}
variable {plans : List (FixResult ⊕ FixTask)} {paths : List Path} {evidence : List Evidence}

/-! ### Replies -/

/-- The call broke off, or the linter has ended and printed something that is not foreseen. -/
def Settings.IsUnforeseen (s : Settings) : ToolResult → Prop
  | .broken _ => True
  | .finished stdout _ code =>
    ¬ (code ≠ 0 ∧ code ≠ 1 ∧ Text.allBlank stdout = true) ∧
      ¬ Evidence.IsUsable s.root.text s.includeTests stdout
  | _ => False

theorem exists_tolerate_report_eq_error_iff {x : Except LinterReportError (List Evidence)} :
    (∃ e, tolerate (x.mapError .report) = .error e) ↔ ¬ IsBearable x := by
  cases x with
  | ok es => exact iff_of_false not_exists_ok_eq_error fun h => h (isBearable_ok es)
  | error e =>
    rw [isBearable_error_iff, not_not, LinterReportError.IsFatal]
    change (∃ e', (if (LinterError.report e).isTolerated = true then _ else _) = _) ↔ _
    cases h : (LinterError.report e).isTolerated with
    | true => exact iff_of_false not_exists_ok_eq_error Bool.noConfusion
    | false => exact iff_of_true ⟨_, rfl⟩ rfl

theorem exists_tolerate_linterResult_eq_error_iff :
    (∃ e, tolerate (s.linterResult c reply) = .error e) ↔ s.IsUnforeseen reply := by
  cases reply with
  | notFound | denied | timedOut => exact iff_of_false not_exists_ok_eq_error id
  | broken f => exact iff_of_true ⟨_, rfl⟩ trivial
  | finished stdout stderr code =>
    rw [Settings.IsUnforeseen, isUsable_iff, Settings.linterResult, readLinter]
    split
    · next hfailed => exact iff_of_false not_exists_ok_eq_error fun h => h.1 hfailed
    · next hfailed =>
      refine Iff.trans ?_ (iff_and_self.2 fun _ => hfailed)
      rw [← exists_tolerate_report_eq_error_iff]
      cases Evidence.ofLinterReport s.root.text s.includeTests stdout <;> rfl

def Settings.recordsOf? (s : Settings) : ToolResult → Option (List Evidence)
  | .finished stdout stderr code => (readLinter s stdout stderr code).toOption
  | _ => none

theorem toOption_linterResult : (s.linterResult c reply).toOption = s.recordsOf? reply := by
  cases reply <;> rfl

/-- Without records a pass goes on with no evidence of the linter. -/
theorem tolerate_eq_ok {x : Except LinterError (List Evidence)}
    (h : ¬ ∃ e, tolerate x = .error e) : tolerate x = .ok (x.toOption.getD []) := by
  cases x with
  | ok es => rfl
  | error e =>
    rw [tolerate] at h ⊢
    split
    · rfl
    · next hfatal => exact absurd ⟨e, if_neg hfatal⟩ h

/-! ### Passes -/

/-- The question of a pass to the linter cannot be put, or gets an answer that is not foreseen. -/
def Settings.LinterFails (s : Settings) (m : Machine) (paths : List Path) : Prop :=
  (∃ e, s.argumentsFor m.workingDirectory paths = .error e) ∨
    ∃ arguments, s.argumentsFor m.workingDirectory paths = .ok arguments ∧
      ((s.linterCall arguments).holdsNul = true ∨
        s.IsUnforeseen (m.start (s.linterCall arguments)).1)

/-- The linter is asked in a pass, and this ends the pass. -/
def Settings.LinterEndsPass (s : Settings) (m : Machine) (ds : List Diagnostic) : Prop :=
  ∃ plans, (filesOf ds).mapM (s.plan? m.disk m.workingDirectory) = .ok plans ∧
    s.Asks (askedPaths plans) ∧ s.LinterFails m (askedPaths plans)

/-- A call with the character NUL breaks off, so nothing can be foreseen of it. -/
theorem isUnforeseen_start_iff : s.IsUnforeseen (m.start c).1 ↔
    c.holdsNul = true ∨ s.IsUnforeseen (m.start c).1 := by
  refine (or_iff_right_of_imp fun hnul => ?_).symm
  rw [start_of_holdsNul hnul]
  exact trivial

theorem exists_askLinter_eq_error_iff : (∃ e, (m.run (askLinter s paths)).1 = .error e) ↔
    s.Asks paths ∧ s.LinterFails m paths := by
  by_cases h : s.Asks paths
  · rw [and_iff_right h, Settings.LinterFails]
    cases hargs : s.argumentsFor m.workingDirectory paths with
    | error e =>
      rw [(gives_askLinter_of_error h hargs).value]
      exact iff_of_true ⟨_, rfl⟩ (.inl ⟨e, rfl⟩)
    | ok arguments =>
      rw [(gives_askLinter_of_ok h hargs).value, exists_tolerate_linterResult_eq_error_iff,
        isUnforeseen_start_iff]
      constructor
      · exact fun h => .inr ⟨arguments, rfl, h⟩
      · rintro (⟨_, h⟩ | ⟨_, heq, h⟩)
        · cases h
        · cases heq
          exact h
  · rw [(gives_askLinter_of_not_asks h).value]
    exact iff_of_false not_exists_ok_eq_error fun h' => h h'.1

theorem linterEndsPass_iff {found : Machine}
    (hplans : m.run (planFiles s (filesOf ds)) = (.ok plans, found)) :
    s.LinterEndsPass m ds ↔ ∃ e, (found.run (askLinter s (askedPaths plans))).1 = .error e := by
  have hmapM : (filesOf ds).mapM (s.plan? m.disk m.workingDirectory) = .ok plans := by
    rw [← (run_planFiles m s (filesOf ds)).1, hplans]
  have hfound := consults_planFiles m s ds
  rw [hplans] at hfound
  rw [exists_askLinter_eq_error_iff, Settings.LinterFails, ← hfound.here]
  simp only [hfound.reply]
  constructor
  · rintro ⟨plans', hplans', hends⟩
    rw [Except.ok.inj (hmapM.symm.trans hplans')]
    exact hends
  · exact fun hends => ⟨plans, hmapM, hends⟩

theorem exists_fixPass_eq_linter_iff :
    (∃ e, (m.run (fixPass s ds)).1 = .error (.linter e)) ↔ s.LinterEndsPass m ds := by
  cases hrun : m.run (fixPass s ds) with
  | mk r m' =>
    cases passed_fixPass hrun with
    | faulty hplans =>
      refine iff_of_false (fun ⟨_, h⟩ => nomatch h) ?_
      rintro ⟨plans, hmapM, -⟩
      rw [← (run_planFiles m s (filesOf ds)).1, hplans] at hmapM
      cases hmapM
    | @refused _ _ e _ hplans hask =>
      rw [linterEndsPass_iff hplans, hask]
      exact iff_of_true ⟨e, rfl⟩ ⟨e, rfl⟩
    | blank hplans hask | done hplans hask =>
      rw [linterEndsPass_iff hplans, hask]
      exact iff_of_false (fun ⟨_, h⟩ => nomatch h) not_exists_ok_eq_error

/-! ### Runs -/

/-- The pass of a run works on the machine that the first check leaves. -/
theorem linterEndsPass_congr (h : Consults m [c] m') :
    s.LinterEndsPass m' ds ↔ s.LinterEndsPass (m.start c).2 ds := by
  have hstart := consults_start m c
  have hreply (a : ToolCall) : (m'.start a).1 = ((m.start c).2.start a).1 :=
    (SameTools.start h.started a).1.symm
  unfold Settings.LinterEndsPass Settings.LinterFails
  rw [← h.disk, ← h.here, ← hstart.disk, ← hstart.here]
  simp only [hreply]

/-- The first check of a run finds something to fix. -/
def Settings.Fixes (s : Settings) (m : Machine) (c : ToolCall) (ds : List Diagnostic) : Prop :=
  s.compilerCall = .ok c ∧ (∃ first, s.checkResult c (m.start c).1 = .ok (ds, first)) ∧ ds ≠ [] ∧
    s.fix = true

theorem FixPass.fixes {r : Except PassError Batch} (h : FixPass s m c ds r m') :
    s.Fixes m c ds := by
  obtain ⟨first, m₁, hfirst, -⟩ := h.first
  exact ⟨hfirst.call, ⟨first, hfirst.result⟩, h.nonempty, h.fix⟩

theorem FixPass.linterEndsPass_iff {r : Except PassError Batch} (h : FixPass s m c ds r m') :
    s.LinterEndsPass (m.start c).2 ds ↔ ∃ e, r = .error (.linter e) := by
  obtain ⟨first, m₁, hfirst, hpass⟩ := h.first
  rw [← linterEndsPass_congr hfirst.consults, ← exists_fixPass_eq_linter_iff, hpass]

/-- What the first check finds is settled by the reply of the compiler. -/
theorem Settings.Fixes.unique {c' : ToolCall} {ds' : List Diagnostic} {first : CompilerResult}
    (h : s.Fixes m c ds) (hcall : s.compilerCall = .ok c')
    (hresult : s.checkResult c' (m.start c').1 = .ok (ds', first)) : c' = c ∧ ds' = ds := by
  obtain ⟨hcall', ⟨first', hresult'⟩, -⟩ := h
  obtain rfl := Except.ok.inj (hcall.symm.trans hcall')
  exact ⟨rfl, (Prod.mk.inj (Except.ok.inj (hresult.symm.trans hresult'))).1⟩

theorem FixPass.exists_iff {r : Except PassError Batch} (h : FixPass s m c ds r m') :
    (∃ c ds, s.Fixes m c ds ∧ s.LinterEndsPass (m.start c).2 ds) ↔ ∃ e, r = .error (.linter e) := by
  rw [← h.linterEndsPass_iff]
  constructor
  · rintro ⟨c', ds', hfixes, hends⟩
    obtain ⟨hcall, ⟨first, hresult⟩, -⟩ := h.fixes
    obtain ⟨rfl, rfl⟩ := hfixes.unique hcall hresult
    exact hends
  · exact fun hends => ⟨c, ds, h.fixes, hends⟩

theorem exists_run_eq_linter_iff {phases : List Phase} :
    (∃ e, (m.run ((run s).run.run phases)).1.1 = .error (.fix (.linter e))) ↔
      ∃ c ds, s.Fixes m c ds ∧ s.LinterEndsPass (m.start c).2 ds := by
  obtain ⟨r, ps, m', heq, hran⟩ := comesTo_run s m phases
  change (∃ e, (m.phased phases (run s)).1.1 = _) ↔ _
  rw [heq]
  cases hran with
  | unstarted hcall =>
    refine iff_of_false (fun ⟨_, h⟩ => nomatch h) ?_
    rintro ⟨c, ds, ⟨hcall', -⟩, -⟩
    cases hcall.symm.trans hcall'
  | unchecked hcall hresult =>
    refine iff_of_false (fun ⟨_, h⟩ => nomatch h) ?_
    rintro ⟨c, ds, ⟨hcall', ⟨first, hresult'⟩, -⟩, -⟩
    cases hcall.symm.trans hcall'
    cases hresult.symm.trans hresult'
  | clean h =>
    refine iff_of_false (fun ⟨_, h⟩ => nomatch h) ?_
    rintro ⟨c, ds, hfixes, -⟩
    obtain ⟨-, rfl⟩ := hfixes.unique h.call h.result
    exact hfixes.2.2.1 rfl
  | listed h hds hfix =>
    refine iff_of_false (fun ⟨_, h⟩ => nomatch h) ?_
    rintro ⟨c, ds, ⟨-, -, -, hfix'⟩, -⟩
    cases hfix.symm.trans hfix'
  | unfixed h =>
    rw [h.exists_iff]
    simp only [Except.error.injEq, RunError.fix.injEq]
  | shown h | unreverified h | verified h =>
    rw [h.exists_iff]
    exact iff_of_false (fun ⟨_, h⟩ => nomatch h) (fun ⟨_, h⟩ => nomatch h)

/-- **When the linter ends a run, and what a run takes from it otherwise.** -/
theorem linter_ends_run_iff (s : Settings) (m : Machine) (phases : List Phase) :
    ((∃ e, (m.run ((run s).run.run phases)).1.1 = .error (.fix (.linter e))) ↔
      ∃ c ds, s.Fixes m c ds ∧ s.LinterEndsPass (m.start c).2 ds) ∧
    (∀ paths arguments, s.Asks paths → s.argumentsFor m.workingDirectory paths = .ok arguments →
      ¬ s.IsUnforeseen (m.start (s.linterCall arguments)).1 →
      (m.run (askLinter s paths)).1 =
        .ok ((s.recordsOf? (m.start (s.linterCall arguments)).1).getD [])) ∧
    ∀ root includeTests report, Evidence.IsUsable root includeTests report ↔
      (∃ es, Evidence.ofLinterReport root includeTests report = .ok es) ∨
        ∃ e, Evidence.ofLinterReport root includeTests report = .error e ∧
          (LinterError.report e).isTolerated = true := by
  refine ⟨exists_run_eq_linter_iff, ?_, ?_⟩
  · intro paths arguments hasks hargs hforeseen
    rw [(gives_askLinter_of_ok hasks hargs).value, ← toOption_linterResult]
    exact tolerate_eq_ok fun h => hforeseen (exists_tolerate_linterResult_eq_error_iff.1 h)
  · intro root includeTests report
    rw [isUsable_iff, IsBearable]
    simp only [LinterReportError.IsFatal, Bool.not_eq_false]

/-- A list whose entry is no object ends the run, and nothing is fixed. -/
theorem linter_ends_run_null :
    let output := "src/a.ts(1,10): error TS6133: 'a' is declared but its value is never read.\n"
    let m := sampleProject [(["src", "a.ts"], sampleText)]
      [.finished output.toList [] 2, .finished [] [] 0] [.finished "[null]".toList [] 0]
    (m.run ((run sampleSettings).run.run initialPhases)).1.1 =
        .error (.fix (.linter (.report .noMember))) ∧
      (m.run ((run sampleSettings).run.run initialPhases)).2.content?
          (wholeTask "src/a.ts").path =
        .ok (Utf8.encode sampleText.toList) := by
  intro output m
  exact ⟨by decide +kernel, by decide +kernel⟩

end ImportRepair
