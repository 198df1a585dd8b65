import ImportRepair.Proofs.Fix.Pass
import ImportRepair.Proofs.Run.Steps

/-!
# The course of a run

A run takes one of three courses to its report: it only checks, it checks and
shows fixes, or it checks, fixes and checks again.  The course is settled by
what the first check finds and by the settings.  It determines the phases, the
tools that are started, and what the report holds.
-/

namespace ImportRepair

open Machine

/-! ### What a run may come to -/

/-- The report of a run whose first check found `ds`, before anything else is known. -/
def reportOf (s : Settings) (m : Machine) (ds : List Diagnostic) : RunReport :=
  { started := m.clock, initial := ds, dryRun := s.dryRun }

/-- The first check found `ds`. -/
structure FirstCheck (s : Settings) (m : Machine) (c : ToolCall) (ds : List Diagnostic)
    (first : CompilerResult) (m₁ : Machine) : Prop where
  call : s.compilerCall = .ok c
  result : s.checkResult c (m.start c).1 = .ok (ds, first)
  consults : Consults m [c] m₁

/-- There is something to fix, and it is fixed. -/
structure FixPass (s : Settings) (m : Machine) (c : ToolCall) (ds : List Diagnostic)
    (r : Except PassError Batch) (m₂ : Machine) : Prop where
  nonempty : ds ≠ []
  fix : s.fix = true
  first : ∃ first m₁, FirstCheck s m c ds first m₁ ∧ m₁.run (fixPass s ds) = (r, m₂)

/-- What a run may come to: its result, the phases and the machine. -/
inductive Ran (s : Settings) (m : Machine) (ps : List Phase) :
    Except RunError RunReport → List Phase → Machine → Prop
  /-- The command of the compiler cannot be used. -/
  | unstarted {e : CommandError} {m' : Machine} (hcall : s.compilerCall = .error e) :
      Ran s m ps (.error (.compiler (.command e))) (ps ++ [.checking]) m'
  /-- The first check fails. -/
  | unchecked {c : ToolCall} {e : CompilerError} {m' : Machine} (hcall : s.compilerCall = .ok c)
      (hresult : s.checkResult c (m.start c).1 = .error e) :
      Ran s m ps (.error (.compiler e)) (ps ++ [.checking]) m'
  /-- The first check finds nothing. -/
  | clean {c : ToolCall} {first : CompilerResult} {m' : Machine} {t : Instant}
      (h : FirstCheck s m c [] first m') :
      Ran s m ps (.ok { reportOf s m [] with
          verification := some (.compare 0 0 first.success)
          phases := ps ++ [.checking, .done], finished := some t })
        (ps ++ [.checking, .done]) m'
  /-- Nothing is to be fixed. -/
  | listed {c : ToolCall} {ds : List Diagnostic} {first : CompilerResult} {m' : Machine}
      {t : Instant} (h : FirstCheck s m c ds first m') (hds : ds ≠ []) (hfix : s.fix = false) :
      Ran s m ps (.ok { reportOf s m ds with
          verification := some ⟨.notVerified, ds.length, none⟩
          phases := ps ++ [.checking, .done], finished := some t })
        (ps ++ [.checking, .done]) m'
  /-- The fix pass comes to no end. -/
  | unfixed {c : ToolCall} {ds : List Diagnostic} {e : PassError} {m' : Machine}
      (h : FixPass s m c ds (.error e) m') :
      Ran s m ps (.error (.fix e)) (ps ++ [.checking, .fixing]) m'
  /-- Fixes are only shown. -/
  | shown {c : ToolCall} {ds : List Diagnostic} {b : Batch} {m₂ m' : Machine} {t : Instant}
      (h : FixPass s m c ds (.ok b) m₂) (hdry : s.dryRun = true) (hend : Consults m₂ [] m') :
      Ran s m ps (.ok { reportOf s m ds with
          batch := some b, verification := some ⟨.notVerified, ds.length, none⟩
          phases := ps ++ [.checking, .fixing, .done], finished := some t })
        (ps ++ [.checking, .fixing, .done]) m'
  /-- The second check fails. -/
  | unreverified {c : ToolCall} {ds : List Diagnostic} {b : Batch} {e : CompilerError}
      {m₂ m' : Machine} (h : FixPass s m c ds (.ok b) m₂) (hdry : s.dryRun = false)
      (hresult : s.checkResult c (m₂.start c).1 = .error e) :
      Ran s m ps (.error (.compiler e)) (ps ++ [.checking, .fixing, .reverifying]) m'
  /-- The second check finds `final`. -/
  | verified {c : ToolCall} {ds final : List Diagnostic} {b : Batch} {second : CompilerResult}
      {m₂ m' : Machine} {t : Instant} (h : FixPass s m c ds (.ok b) m₂) (hdry : s.dryRun = false)
      (hresult : s.checkResult c (m₂.start c).1 = .ok (final, second))
      (hend : Consults m₂ [c] m') :
      Ran s m ps (.ok { reportOf s m ds with
          batch := some b, final := some final
          verification := some (.compare ds.length final.length second.success)
          phases := ps ++ [.checking, .fixing, .reverifying, .done], finished := some t })
        (ps ++ [.checking, .fixing, .reverifying, .done]) m'

variable {s : Settings} {m m₁ m₂ m' : Machine} {ps ps' : List Phase} {c : ToolCall}
variable {ds final : List Diagnostic} {first second : CompilerResult} {b : Batch} {r : RunReport}

/-- A program that is started later comes to what a run may come to. -/
def ComesTo (s : Settings) (m : Machine) (ps : List Phase) (m₁ : Machine) (ps₁ : List Phase)
    (x : RunT (StateM Machine) RunReport) : Prop :=
  ∃ r ps' m', m₁.phased ps₁ x = ((r, ps'), m') ∧ Ran s m ps r ps' m'

/-! ### The parts of a run -/

namespace Run

def afterFix (s : Settings) (report : RunReport) (batch : Batch) :
    RunT (StateM Machine) RunReport :=
  let report := { report with batch := some batch }
  if s.dryRun then finishUnverified report
  else enter .reverifying >>= fun _ => Run.check s >>= fun x => finishVerified report x.1 x.2

def afterCheck (s : Settings) (started : Instant) (x : List Diagnostic × CompilerResult) :
    RunT (StateM Machine) RunReport :=
  let report : RunReport := { started, initial := x.1, dryRun := s.dryRun }
  if x.1.isEmpty then finishClean report x.2
  else note .info s!"Found {x.1.length} TypeScript diagnostics" >>= fun _ =>
    if !s.fix then finishUnverified report
    else enter .fixing >>= fun _ => Run.fix s x.1 >>= afterFix s report

end Run

theorem run_eq (s : Settings) : (run s : RunT (StateM Machine) RunReport) =
    Run.perform Host.now >>= fun started => Run.enter .checking >>= fun _ =>
      Run.check s >>= Run.afterCheck s started := rfl

theorem takes_finishClean (m : Machine) (ps : List Phase) (r : RunReport) (c : CompilerResult) :
    ∃ m' t, Takes m ps (Run.finishClean r c) []
      (.ok { r with
        verification := some (.compare 0 0 c.success)
        phases := ps ++ [.done], finished := some t })
      (ps ++ [.done]) m' := by
  unfold Run.finishClean
  dsimp only
  split
  · exact takes_note_finish m ps _ _ _
  · exact takes_note_finish m ps _ _ _

theorem takes_finishVerified (m : Machine) (ps : List Phase) (r : RunReport)
    (final : List Diagnostic) (c : CompilerResult) :
    ∃ m' t, Takes m ps (Run.finishVerified r final c) []
      (.ok { r with
        final := some final, verification := some (.compare r.initial.length final.length c.success)
        phases := ps ++ [.done], finished := some t })
      (ps ++ [.done]) m' := by
  unfold Run.finishVerified
  dsimp only
  split
  · exact takes_note_finish m ps _ _ _
  · exact takes_note_finish m ps _ _ _

theorem comesTo_afterFix (h : FixPass s m c ds (.ok b) m₂) :
    ComesTo s m ps m₂ (ps ++ [.checking, .fixing]) (Run.afterFix s (reportOf s m ds) b) := by
  obtain ⟨first, m₁, hfirst, -⟩ := h.first
  unfold Run.afterFix
  dsimp only
  split
  · next hdry =>
    obtain ⟨m', t, hfinish⟩ := takes_finish m₂ (ps ++ [.checking, .fixing])
      { reportOf s m ds with
        batch := some b, verification := some ⟨.notVerified, ds.length, none⟩ }
    rw [List.append_assoc] at hfinish
    exact ⟨_, _, _, hfinish.eq, .shown h hdry hfinish.consults⟩
  · next hdry =>
    obtain ⟨m₃, henter⟩ := takes_enter m₂ (ps ++ [.checking, .fixing]) .reverifying
    rw [List.append_assoc] at henter
    have hgives := gives_check (m := m₃) hfirst.call
    rw [henter.consults.reply] at hgives
    rw [ComesTo, phased_bind_of_ok henter.eq]
    cases hresult : s.checkResult c (m₂.start c).1 with
    | error e =>
      rw [hresult] at hgives
      obtain ⟨m', hcheck⟩ := takes_check_of_error _ hgives
      rw [phased_bind_of_error hcheck.eq]
      exact ⟨_, _, _, rfl, .unreverified h (by simpa using hdry) hresult⟩
    | ok x =>
      rw [hresult] at hgives
      obtain ⟨m₄, hcheck⟩ := takes_check_of_ok _ hgives
      rw [phased_bind_of_ok hcheck.eq]
      obtain ⟨m', t, hfinish⟩ := takes_finishVerified m₄ (ps ++ [.checking, .fixing, .reverifying])
        { reportOf s m ds with batch := some b } x.1 x.2
      rw [List.append_assoc] at hfinish
      exact ⟨_, _, _, hfinish.eq, .verified h (by simpa using hdry) hresult
        (henter.consults.trans (hcheck.consults.trans hfinish.consults))⟩

/-! ### The first check -/

/-- What the first check gives, by the reply of the compiler. -/
def Settings.firstCheck (s : Settings) (m : Machine) :
    Except CompilerError (List Diagnostic × CompilerResult) :=
  match s.compilerCall with
  | .error e => .error (.command e)
  | .ok c => s.checkResult c (m.start c).1

theorem firstCheck_of_error {e : CommandError} (h : s.compilerCall = .error e) :
    s.firstCheck m = .error (.command e) := by
  rw [Settings.firstCheck, h]

theorem firstCheck_of_call (h : s.compilerCall = .ok c) :
    s.firstCheck m = s.checkResult c (m.start c).1 := by
  rw [Settings.firstCheck, h]

theorem phased_run (s : Settings) (m : Machine) (ps : List Phase) :
    ∃ m₀, Consults m [] m₀ ∧ m.phased ps (run s) =
      m₀.phased (ps ++ [.checking]) (Run.check s >>= Run.afterCheck s m.clock) := by
  obtain ⟨m₀, henter⟩ := takes_enter m ps .checking
  refine ⟨m₀, henter.consults, ?_⟩
  rw [run_eq, phased_bind_of_ok ((gives_now m).takes ps).eq]
  exact phased_bind_of_ok henter.eq

/-- A run whose first check fails. -/
theorem phased_run_of_error {e : CompilerError} (h : s.firstCheck m = .error e)
    (ps : List Phase) : ∃ m' cs, Consults m cs m' ∧
      m.phased ps (run s) = ((.error (.compiler e), ps ++ [.checking]), m') := by
  obtain ⟨m₀, hm₀, heq⟩ := phased_run s m ps
  rw [heq]
  cases hcall : s.compilerCall with
  | error e' =>
    rw [firstCheck_of_error hcall] at h
    obtain ⟨m', hcheck⟩ := takes_check_of_error (ps ++ [.checking])
      (gives_check_of_error (m := m₀) hcall)
    rw [phased_bind_of_error hcheck.eq, ← Except.error.inj h]
    exact ⟨m', _, hm₀.trans hcheck.consults, rfl⟩
  | ok c =>
    rw [firstCheck_of_call hcall] at h
    have hgives := gives_check (m := m₀) hcall
    rw [hm₀.reply, h] at hgives
    obtain ⟨m', hcheck⟩ := takes_check_of_error (ps ++ [.checking]) hgives
    rw [phased_bind_of_error hcheck.eq]
    exact ⟨m', _, hm₀.trans hcheck.consults, rfl⟩

/-- A run whose first check finds some diagnostics, or none. -/
theorem phased_run_of_ok (h : s.firstCheck m = .ok (ds, first)) (ps : List Phase) :
    ∃ c m₁, FirstCheck s m c ds first m₁ ∧ m.phased ps (run s) =
      m₁.phased (ps ++ [.checking]) (Run.afterCheck s m.clock (ds, first)) := by
  obtain ⟨m₀, hm₀, heq⟩ := phased_run s m ps
  rw [heq]
  cases hcall : s.compilerCall with
  | error e =>
    rw [firstCheck_of_error hcall] at h
    cases h
  | ok c =>
    rw [firstCheck_of_call hcall] at h
    have hgives := gives_check (m := m₀) hcall
    rw [hm₀.reply, h] at hgives
    obtain ⟨m₁, hcheck⟩ := takes_check_of_ok (ps ++ [.checking]) hgives
    rw [phased_bind_of_ok hcheck.eq]
    exact ⟨c, m₁, ⟨hcall, h, hm₀.trans hcheck.consults⟩, rfl⟩

/-- There is nothing to fix. -/
theorem phased_afterCheck_nil (m : Machine) (ps : List Phase) (started : Instant)
    (first : CompilerResult) : m.phased ps (Run.afterCheck s started ([], first)) =
      m.phased ps (Run.finishClean { started, dryRun := s.dryRun } first) := rfl

/-- Nothing is to be fixed. -/
theorem phased_afterCheck_of_listed (hds : ds ≠ []) (hfix : s.fix = false) (m : Machine)
    (ps : List Phase) (started : Instant) (first : CompilerResult) : ∃ m', Consults m [] m' ∧
      m.phased ps (Run.afterCheck s started (ds, first)) = m'.phased ps
        (Run.finishUnverified { started, initial := ds, dryRun := s.dryRun }) := by
  obtain ⟨m', hnote⟩ := takes_note m ps .info s!"Found {ds.length} TypeScript diagnostics"
  refine ⟨m', hnote.consults, ?_⟩
  unfold Run.afterCheck
  rw [if_neg (by simpa using hds), phased_bind_of_ok hnote.eq, if_pos (by rw [hfix]; rfl)]

/-- There is something to fix, and it is to be fixed. -/
theorem phased_afterCheck_of_fix (hds : ds ≠ []) (hfix : s.fix = true) (m : Machine)
    (ps : List Phase) (started : Instant) (first : CompilerResult) : ∃ m', Consults m [] m' ∧
      m.phased ps (Run.afterCheck s started (ds, first)) = m'.phased (ps ++ [.fixing])
        (Run.fix s ds >>= Run.afterFix s { started, initial := ds, dryRun := s.dryRun }) := by
  obtain ⟨m₁, hnote⟩ := takes_note m ps .info s!"Found {ds.length} TypeScript diagnostics"
  obtain ⟨m', henter⟩ := takes_enter m₁ ps .fixing
  refine ⟨m', hnote.consults.trans henter.consults, ?_⟩
  unfold Run.afterCheck
  rw [if_neg (by simpa using hds), phased_bind_of_ok hnote.eq, if_neg (by rw [hfix]; exact nofun),
    phased_bind_of_ok henter.eq]

theorem FirstCheck.later (h : FirstCheck s m c ds first m₁) (hm : Consults m₁ [] m') :
    FirstCheck s m c ds first m' := ⟨h.call, h.result, h.consults.trans hm⟩

theorem comesTo_afterCheck (h : FirstCheck s m c ds first m₁) :
    ComesTo s m ps m₁ (ps ++ [.checking]) (Run.afterCheck s m.clock (ds, first)) := by
  by_cases hds : ds = []
  · subst hds
    obtain ⟨m', t, hfinish⟩ := takes_finishClean m₁ (ps ++ [.checking]) (reportOf s m []) first
    rw [List.append_assoc] at hfinish
    rw [ComesTo, phased_afterCheck_nil]
    exact ⟨_, _, _, hfinish.eq, .clean (h.later hfinish.consults)⟩
  · cases hfix : s.fix with
    | false =>
      obtain ⟨m₂, hm₂, heq⟩ := phased_afterCheck_of_listed hds hfix m₁ (ps ++ [.checking])
        m.clock first
      obtain ⟨m', t, hfinish⟩ := takes_finish m₂ (ps ++ [.checking]) { reportOf s m ds with
        verification := some ⟨.notVerified, ds.length, none⟩ }
      rw [List.append_assoc] at hfinish
      rw [ComesTo, heq]
      exact ⟨_, _, _, hfinish.eq, .listed ((h.later hm₂).later hfinish.consults) hds hfix⟩
    | true =>
      obtain ⟨m₂, hm₂, heq⟩ := phased_afterCheck_of_fix hds hfix m₁ (ps ++ [.checking])
        m.clock first
      rw [List.append_assoc] at heq
      rw [ComesTo, heq]
      cases hpass : m₂.run (fixPass s ds) with
      | mk x m₃ =>
        have hfixed : FixPass s m c ds x m₃ := ⟨hds, hfix, first, m₂, h.later hm₂, hpass⟩
        cases x with
        | error e =>
          rw [phased_bind_of_error (phased_fix_of_error _ hpass)]
          exact ⟨_, _, _, rfl, .unfixed hfixed⟩
        | ok b =>
          rw [phased_bind_of_ok (phased_fix_of_ok _ hpass)]
          exact comesTo_afterFix hfixed

/-- **What a run may come to.** -/
theorem comesTo_run (s : Settings) (m : Machine) (ps : List Phase) :
    ComesTo s m ps m ps (run s) := by
  cases hcheck : s.firstCheck m with
  | error e =>
    obtain ⟨m', -, -, heq⟩ := phased_run_of_error hcheck ps
    rw [ComesTo, heq]
    cases hcall : s.compilerCall with
    | error e' =>
      rw [firstCheck_of_error hcall] at hcheck
      rw [← Except.error.inj hcheck]
      exact ⟨_, _, _, rfl, .unstarted hcall⟩
    | ok c =>
      rw [firstCheck_of_call hcall] at hcheck
      exact ⟨_, _, _, rfl, .unchecked hcall hcheck⟩
  | ok r =>
    obtain ⟨c, m₁, hfirst, heq⟩ := phased_run_of_ok hcheck ps
    rw [ComesTo, heq]
    exact comesTo_afterCheck hfirst

end ImportRepair
