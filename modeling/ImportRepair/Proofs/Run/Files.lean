import ImportRepair.Proofs.Fix.Frame
import ImportRepair.Proofs.Run.Linter

/-!
# The files that a run writes

Around its fix pass a run consults the compiler and logs.  So a run writes what
its pass writes: files that are found for the diagnostics of the first check and
that the settings permit.  A run that does not fix, or only shows fixes, writes
nothing.
-/

namespace ImportRepair

open Machine

variable {s : Settings} {m m₁ m₂ m' : Machine} {ps : List Phase} {c : ToolCall} {l : Location}
variable {ds : List Diagnostic} {first : CompilerResult} {b : Batch} {p : Except PassError Batch}

/-! ### The fix pass of a run -/

theorem takes_check (s : Settings) (m : Machine) (ps : List Phase) :
    (∃ cs e m', Takes m ps (Run.check s) cs (.error (.compiler e)) ps m') ∨
      ∃ cs r m', Takes m ps (Run.check s) cs (.ok r) ps m' := by
  cases hcall : s.compilerCall with
  | error e =>
    obtain ⟨m', hcheck⟩ := takes_check_of_error ps (gives_check_of_error (m := m) hcall)
    exact .inl ⟨_, _, m', hcheck⟩
  | ok c =>
    have hgives := gives_check (m := m) hcall
    cases hresult : s.checkResult c (m.start c).1 with
    | error e =>
      rw [hresult] at hgives
      obtain ⟨m', hcheck⟩ := takes_check_of_error ps hgives
      exact .inl ⟨_, _, m', hcheck⟩
    | ok r =>
      rw [hresult] at hgives
      obtain ⟨m', hcheck⟩ := takes_check_of_ok ps hgives
      exact .inr ⟨_, _, m', hcheck⟩

/-- What a run over some diagnostics reports of its pass.  Unless it is dry there is a second
    check, which may fail. -/
def Settings.Reports (s : Settings) (ds : List Diagnostic) (x : Except RunError RunReport) :
    Except PassError Batch → Prop
  | .error e => x = .error (.fix e)
  | .ok b => (∃ r, x = .ok r ∧ r.initial = ds ∧ r.batch = some b) ∨
      s.dryRun = false ∧ ∃ e, x = .error (.compiler e)

theorem reports_afterFix (s : Settings) (report : RunReport) (b : Batch) (m : Machine)
    (ps : List Phase) :
    s.Reports report.initial (m.phased ps (Run.afterFix s report b)).1.1 (.ok b) ∧
      ∃ cs, Consults m cs (m.phased ps (Run.afterFix s report b)).2 := by
  unfold Run.afterFix
  dsimp only
  split
  · obtain ⟨m', t, hfinish⟩ := takes_finish m ps { report with
      batch := some b, verification := some ⟨.notVerified, report.initial.length, none⟩ }
    rw [Run.finishUnverified, hfinish.eq]
    exact ⟨.inl ⟨_, rfl, rfl, rfl⟩, _, hfinish.consults⟩
  · next hdry =>
    obtain ⟨m₁, henter⟩ := takes_enter m ps .reverifying
    rw [phased_bind_of_ok henter.eq]
    rcases takes_check s m₁ (ps ++ [.reverifying]) with
      ⟨cs, e, m₂, hcheck⟩ | ⟨cs, r, m₂, hcheck⟩
    · rw [phased_bind_of_error hcheck.eq]
      exact ⟨.inr ⟨by simpa using hdry, e, rfl⟩, _, henter.consults.trans hcheck.consults⟩
    · obtain ⟨m', t, hfinish⟩ := takes_finishVerified m₂ (ps ++ [.reverifying])
        { report with batch := some b } r.1 r.2
      rw [phased_bind_of_ok hcheck.eq, hfinish.eq]
      exact ⟨.inl ⟨_, rfl, rfl, rfl⟩, _,
        henter.consults.trans (hcheck.consults.trans hfinish.consults)⟩

/-- A run that has something to fix, and fixes it. -/
theorem fixPass_of_run (h : s.firstCheck m = .ok (ds, first)) (hds : ds ≠ []) (hfix : s.fix = true)
    (ps : List Phase) : ∃ c p m₂ cs, FixPass s m c ds p m₂ ∧
      s.Reports ds (m.phased ps (run s)).1.1 p ∧ Consults m₂ cs (m.phased ps (run s)).2 := by
  obtain ⟨c, m₁, hfirst, heq⟩ := phased_run_of_ok h ps
  obtain ⟨m₂, hm₂, heq'⟩ := phased_afterCheck_of_fix hds hfix m₁ (ps ++ [.checking])
    m.clock first
  rw [heq, heq']
  cases hpass : m₂.run (fixPass s ds) with
  | mk p m₃ =>
    have hfixed : FixPass s m c ds p m₃ := ⟨hds, hfix, first, m₂, hfirst.later hm₂, hpass⟩
    cases p with
    | error e =>
      rw [phased_bind_of_error (phased_fix_of_error _ hpass)]
      exact ⟨c, _, m₃, [], hfixed, rfl, .refl m₃⟩
    | ok b =>
      rw [phased_bind_of_ok (phased_fix_of_ok _ hpass)]
      obtain ⟨hreports, cs, hconsults⟩ := reports_afterFix s
        { started := m.clock, initial := ds, dryRun := s.dryRun } b m₃ _
      exact ⟨c, _, m₃, cs, hfixed, hreports, hconsults⟩

/-- A run that has nothing to fix. -/
theorem idle_of_run (h : s.firstCheck m = .ok (ds, first)) (hidle : ds = [] ∨ s.fix = false)
    (ps : List Phase) : (∃ r, (m.phased ps (run s)).1.1 = .ok r ∧ r.batch = none) ∧
      ∃ cs, Consults m cs (m.phased ps (run s)).2 := by
  obtain ⟨c, m₁, hfirst, heq⟩ := phased_run_of_ok h ps
  rw [heq]
  by_cases hds : ds = []
  · subst hds
    obtain ⟨m', t, hfinish⟩ := takes_finishClean m₁ (ps ++ [.checking])
      { started := m.clock, dryRun := s.dryRun } first
    rw [phased_afterCheck_nil, hfinish.eq]
    exact ⟨⟨_, rfl, rfl⟩, _, hfirst.consults.trans hfinish.consults⟩
  · obtain ⟨m₂, hm₂, heq'⟩ := phased_afterCheck_of_listed hds (hidle.resolve_left hds) m₁
      (ps ++ [.checking]) m.clock first
    obtain ⟨m', t, hfinish⟩ := takes_finish m₂ (ps ++ [.checking])
      { started := m.clock, initial := ds, dryRun := s.dryRun
        verification := some ⟨.notVerified, ds.length, none⟩ }
    rw [heq', Run.finishUnverified, hfinish.eq]
    exact ⟨⟨_, rfl, rfl⟩, _, (hfirst.later hm₂).consults.trans hfinish.consults⟩

/-- A run either leaves the files alone or does to them what its pass does. -/
theorem run_cases (s : Settings) (m : Machine) (ps : List Phase) :
    ((∀ r, (m.phased ps (run s)).1.1 = .ok r → r.batch = none) ∧
      ∃ cs, Consults m cs (m.phased ps (run s)).2) ∨
    ∃ c ds p m₂ cs, FixPass s m c ds p m₂ ∧ s.Reports ds (m.phased ps (run s)).1.1 p ∧
      Consults m₂ cs (m.phased ps (run s)).2 := by
  cases hcheck : s.firstCheck m with
  | error e =>
    obtain ⟨m', cs, hconsults, heq⟩ := phased_run_of_error hcheck ps
    rw [heq]
    refine .inl ⟨?_, cs, hconsults⟩
    intro r hr
    cases hr
  | ok x =>
    obtain ⟨ds, first⟩ := x
    by_cases hidle : ds = [] ∨ s.fix = false
    · obtain ⟨⟨r, hresult, hbatch⟩, hconsults⟩ := idle_of_run hcheck hidle ps
      refine .inl ⟨?_, hconsults⟩
      intro r' hr'
      rw [← Except.ok.inj (hresult.symm.trans hr'), hbatch]
    · rw [not_or, Bool.not_eq_false] at hidle
      obtain ⟨c, p, m₂, cs, hpass⟩ := fixPass_of_run hcheck hidle.1 hidle.2 ps
      exact .inr ⟨c, ds, p, m₂, cs, hpass⟩

/-! ### What the pass of a run writes -/

/-- The pass of a run works on the files that the run has met. -/
theorem FixPass.exists_pass (h : FixPass s m c ds (.ok b) m₂) :
    ∃ (m₁ : Machine) (P : PassInTurns s ds 1 m₁), Consults m [c] m₁ ∧ P.batch = b ∧
      OnlyLogs P.after m₂ := by
  obtain ⟨first, m₁, hfirst, hpass⟩ := h.first
  obtain ⟨P, hbatch, hlogs⟩ := PassInTurns.exists_of_run hpass
  exact ⟨m₁, P, hfirst.consults, hbatch, hlogs⟩

theorem FixPass.disk_of_error {e : PassError} (h : FixPass s m c ds (.error e) m₂) :
    m₂.disk = m.disk := by
  obtain ⟨first, m₁, hfirst, hpass⟩ := h.first
  obtain ⟨cs, hconsults⟩ := consults_of_fixPass_error hpass
  exact (hfirst.consults.disk.trans hconsults.disk).symm

theorem FixPass.disk_of_dryRun (h : FixPass s m c ds p m₂) (hdry : s.dryRun = true) :
    m₂.disk = m.disk := by
  cases p with
  | error e => exact h.disk_of_error
  | ok b =>
    obtain ⟨m₁, P, hconsults, -, hlogs⟩ := h.exists_pass
    rw [← hlogs.consults.disk, P.disk_eq_of_dryRun hdry, hconsults.disk]

theorem FixPass.rewrites (h : FixPass s m c ds p m₂) (hl : m₂.disk.at? l ≠ m.disk.at? l) :
    s.Rewrites m ds m₂ l := by
  cases p with
  | error e => exact absurd (congrArg (·.at? l) h.disk_of_error) hl
  | ok b =>
    obtain ⟨m₁, P, hconsults, -, hlogs⟩ := h.exists_pass
    rw [← hlogs.consults.disk, hconsults.disk] at hl
    exact (PassInTurns.rewrites_of_changed hl).of_consults hconsults hlogs.consults

/-- A run that does not fix, or only shows fixes, writes nothing. -/
theorem disk_of_run (h : s.fix = false ∨ s.dryRun = true) (m : Machine) (ps : List Phase) :
    (m.phased ps (run s)).2.disk = m.disk := by
  rcases run_cases s m ps with ⟨-, cs, hend⟩ | ⟨c, ds, p, m₂, cs, hfixed, -, hend⟩
  · exact hend.disk.symm
  · rcases h with hfix | hdry
    · cases hfixed.fix.symm.trans hfix
    · exact hend.disk.symm.trans (hfixed.disk_of_dryRun hdry)

end ImportRepair
