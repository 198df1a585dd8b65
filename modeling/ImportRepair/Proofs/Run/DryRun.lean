import ImportRepair.Proofs.Fix.DryRun
import ImportRepair.Proofs.Run.Files

/-!
# Dry runs

A dry run goes the way of a real one up to the end of the fix pass, on the same
files and with the same replies of the tools.  So what it reports of each file
is what a real run would report, and the diff that it shows is that of the text
which a real run would store.
-/

namespace ImportRepair

open Machine

variable {s : Settings} {m m₁ m₂ : Machine} {ps : List Phase} {c : ToolCall} {ds : List Diagnostic}
variable {x x' : Except RunError RunReport} {b : Bool} {p p' : Except PassError Batch}

/-! ### Passes of two runs -/

/-- The tasks of a pass over the diagnostics work on distinct files. -/
def Settings.TasksApart (s : Settings) (m : Machine) (ds : List Diagnostic) : Prop :=
  ∀ plans, (filesOf ds).mapM (s.plan? m.disk m.workingDirectory) = .ok plans →
    ((tasksOf plans).map fun t => t.path.resolve m.workingDirectory).Nodup

/-- With what the linter says, the limits of the files let the tasks store their fixes. -/
def Settings.CanStore (s : Settings) (m : Machine) (ds : List Diagnostic) : Prop :=
  ∀ plans evidence, (filesOf ds).mapM (s.plan? m.disk m.workingDirectory) = .ok plans →
    (m.run (askLinter s (askedPaths plans))).1 = .ok evidence →
    ∀ t ∈ tasksOf plans, (m.limitsOf t.path).Admits
      (t.find s (evidenceFor s evidence m.workingDirectory t.path) (m.read? t.path))

/-- On a disk without limits everything can be stored. -/
theorem Settings.canStore_of_unlimited (h : m.disk.limits = []) : s.CanStore m ds := by
  intro plans evidence _ _ t _
  rw [limitsOf, Disk.limitsAt, h]
  exact Limits.admits_default _

theorem PassInTurns.stores_of_canStore {n : Nat} (P : PassInTurns (s.withDryRun b) ds n m₁)
    (hm : Consults m [] m₁) (h : s.CanStore m ds) : P.Stores := by
  have hplans := P.plans_eq
  have hfound : Consults m [] P.found := by
    have hplanned := consults_planFiles m₁ (s.withDryRun b) ds
    rw [P.plan_eq] at hplanned
    exact hm.trans hplanned
  have hask := askLinter_congr hfound s (askedPaths P.plans)
  rw [← hm.disk, ← hm.here] at hplans
  intro t ht
  rw [hm.limitsOf_eq, hm.read?_eq, ← hm.here]
  exact h P.plans P.evidence hplans (hask.symm.trans (congrArg Prod.fst P.ask_eq)) t ht

theorem PassInTurns.ownsFiles_of_tasksApart {cs : List ToolCall} {n : Nat}
    (P : PassInTurns (s.withDryRun b) ds n m₁) (hm : Consults m cs m₁) (h : s.TasksApart m ds) :
    P.OwnsFiles := by
  have hplans := P.plans_eq
  rw [← hm.disk, ← hm.here] at hplans
  rw [OwnsFiles, ← hm.here]
  exact h P.plans hplans

/-- The passes of a dry run and a real one work on machines that differ in their logs only. -/
theorem FixPass.same_start {c' : ToolCall} (h : FixPass (s.withDryRun true) m c ds p m₁)
    (h' : FixPass (s.withDryRun false) m c' ds p' m₂) : ∃ m₀ m₀', Consults m [c] m₀ ∧
      Consults m₀ [] m₀' ∧ m₀.run (fixPass (s.withDryRun true) ds) = (p, m₁) ∧
        m₀'.run (fixPass (s.withDryRun false) ds) = (p', m₂) := by
  obtain ⟨first, m₀, hfirst, hpass⟩ := h.first
  obtain ⟨first', m₀', hfirst', hpass'⟩ := h'.first
  obtain rfl : c = c' := Except.ok.inj (hfirst.call.symm.trans hfirst'.call)
  exact ⟨m₀, m₀', hfirst.consults, hfirst.consults.cancel hfirst'.consults, hpass, hpass'⟩

/-! ### Two runs -/

/-- What a dry run, which leaves the machine `m₁`, foretells of a real run, which leaves `m₂`. -/
inductive RunForetold (s : Settings) (m m₁ m₂ : Machine) :
    Except RunError RunReport → Except RunError RunReport → Prop
  /-- Both fail before anything is written. -/
  | failed {e : RunError} (hunwritten : m₂.disk = m.disk) :
      RunForetold s m m₁ m₂ (.error e) (.error e)
  /-- In both there is nothing to fix. -/
  | idle {r r' : RunReport} (hunwritten : m₂.disk = m.disk) (hdry : r.batch = none)
      (hreal : r'.batch = none) : RunForetold s m m₁ m₂ (.ok r) (.ok r')
  /-- Both report what has become of the files. -/
  | fixed {r r' : RunReport} {dry real : Batch} {evidence : List Evidence}
      (hdry : r.batch = some dry) (hreal : r'.batch = some real) (hinitial : r.initial = r'.initial)
      (h : s.Foretold r.initial m m₁ m₂ evidence dry real) :
      RunForetold s m m₁ m₂ (.ok r) (.ok r')
  /-- The real run has fixed the files, but its second check fails. -/
  | unreverified {r : RunReport} {dry real : Batch} {evidence : List Evidence} {e : CompilerError}
      (hdry : r.batch = some dry) (h : s.Foretold r.initial m m₁ m₂ evidence dry real) :
      RunForetold s m m₁ m₂ (.ok r) (.error (.compiler e))

theorem FixPass.runForetold {c' : ToolCall} {m₁' m₂' : Machine} {cs cs' : List ToolCall}
    (h : FixPass (s.withDryRun true) m c ds p m₁) (h' : FixPass (s.withDryRun false) m c' ds p' m₂)
    (hx : (s.withDryRun true).Reports ds x p) (hx' : (s.withDryRun false).Reports ds x' p')
    (hend : Consults m₁ cs m₁') (hend' : Consults m₂ cs' m₂') (hapart : s.TasksApart m ds)
    (hstore : s.CanStore (m.start c).2 ds) : RunForetold s m m₁' m₂' x x' := by
  obtain ⟨m₀, m₀', hm₀, hsame, hpass, hpass'⟩ := h.same_start h'
  cases p with
  | error e =>
    have herror := fixPass_error_congr hsame false (congrArg Prod.fst hpass)
    rw [hpass'] at herror
    obtain rfl : p' = .error e := herror
    obtain rfl : x = .error (.fix e) := hx
    obtain rfl : x' = .error (.fix e) := hx'
    exact .failed (hend'.disk.symm.trans h'.disk_of_error)
  | ok dry =>
    cases p' with
    | error e =>
      have herror := fixPass_error_congr (hsame.cancel (.refl m₀)) true (congrArg Prod.fst hpass')
      rw [hpass] at herror
      cases herror
    | ok real =>
      obtain ⟨P, rfl, hlogs⟩ := PassInTurns.exists_of_run hpass
      obtain ⟨Q, rfl, hlogs'⟩ := PassInTurns.exists_of_run hpass'
      have howns : P.OwnsFiles := P.ownsFiles_of_tasksApart hm₀ hapart
      have hstores : P.Stores := P.stores_of_canStore ((consults_start m c).cancel hm₀) hstore
      have hforetold := (howns.foretold (Q := Q) hstores hsame).of_consults hm₀
        (hlogs.consults.trans hend) (hlogs'.consults.trans hend')
      rcases hx with ⟨r, rfl, rfl, hdry⟩ | ⟨hdry, -⟩
      · rcases hx' with ⟨r', rfl, hinitial, hreal⟩ | ⟨-, e, rfl⟩
        · exact .fixed hdry hreal hinitial.symm hforetold
        · exact .unreverified hdry hforetold
      · cases hdry

/-- Both runs have the same first check, and it decides how far they go. -/
theorem runForetold_of_phased {ps₁ ps₂ : List Phase}
    (hdry : m.phased ps (run (s.withDryRun true)) = ((x, ps₁), m₁))
    (hreal : m.phased ps (run (s.withDryRun false)) = ((x', ps₂), m₂))
    (hapart : ∀ c ds, s.Fixes m c ds → s.TasksApart m ds)
    (hstore : ∀ c ds, s.Fixes m c ds → s.CanStore (m.start c).2 ds) :
    RunForetold s m m₁ m₂ x x' := by
  cases hcheck : s.firstCheck m with
  | error e =>
    obtain ⟨_, _, -, heq⟩ := phased_run_of_error (s := s.withDryRun true) hcheck ps
    obtain ⟨_, cs, hend, heq'⟩ := phased_run_of_error (s := s.withDryRun false) hcheck ps
    cases hdry.symm.trans heq
    cases hreal.symm.trans heq'
    exact .failed hend.disk.symm
  | ok r =>
    obtain ⟨ds, first⟩ := r
    by_cases hidle : ds = [] ∨ s.fix = false
    · obtain ⟨⟨r, hr, hbatch⟩, -⟩ := idle_of_run (s := s.withDryRun true) hcheck hidle ps
      obtain ⟨⟨r', hr', hbatch'⟩, cs, hend⟩ :=
        idle_of_run (s := s.withDryRun false) hcheck hidle ps
      rw [hdry] at hr
      rw [hreal] at hr' hend
      obtain rfl : x = .ok r := hr
      obtain rfl : x' = .ok r' := hr'
      exact .idle hend.disk.symm hbatch hbatch'
    · rw [not_or, Bool.not_eq_false] at hidle
      obtain ⟨hds, hfix⟩ := hidle
      obtain ⟨c, p, _, cs, hpass, hreports, hend⟩ :=
        fixPass_of_run (s := s.withDryRun true) hcheck hds hfix ps
      obtain ⟨c', p', _, cs', hpass', hreports', hend'⟩ :=
        fixPass_of_run (s := s.withDryRun false) hcheck hds hfix ps
      rw [hdry] at hreports hend
      rw [hreal] at hreports' hend'
      exact hpass.runForetold hpass' hreports hreports' hend hend' (hapart c ds hpass.fixes)
        (hstore c ds hpass.fixes)

/-- **A dry run foretells the real one,** as long as the real one can store its fixes. -/
theorem dry_run_foretells {ps₁ ps₂ : List Phase}
    (hdry : m.run ((run (s.withDryRun true)).run.run ps) = ((x, ps₁), m₁))
    (hreal : m.run ((run (s.withDryRun false)).run.run ps) = ((x', ps₂), m₂))
    (hapart : ∀ c ds, s.Fixes m c ds → s.TasksApart m ds) :
    m₁.disk = m.disk ∧
    ((∀ c ds, s.Fixes m c ds → s.CanStore (m.start c).2 ds) → RunForetold s m m₁ m₂ x x') ∧
    -- the same holds of two passes, with any number of workers and in any turns
    ∀ ds n n' (P : PassInTurns (s.withDryRun true) ds n m), P.OwnsFiles →
      (0 < n' → Nonempty (PassInTurns (s.withDryRun false) ds n' m)) ∧
      (P.Stores → ∀ Q : PassInTurns (s.withDryRun false) ds n' m,
        s.Foretold ds m P.after Q.after P.evidence P.batch Q.batch) := by
  refine ⟨?_, runForetold_of_phased hdry hreal hapart, ?_⟩
  · have hrun : m.phased ps (run (s.withDryRun true)) = ((x, ps₁), m₁) := hdry
    have hdisk := disk_of_run (s := s.withDryRun true) (.inr rfl) m ps
    rwa [hrun] at hdisk
  · intro ds n n' P howns
    exact ⟨P.nonempty_congr (.refl m) false, fun hstores Q => howns.foretold hstores (.refl m)⟩

theorem Settings.Fixes.firstCheck (h : s.Fixes m c ds) :
    ∃ first, s.firstCheck m = .ok (ds, first) := by
  obtain ⟨hcall, ⟨first, hresult⟩, -⟩ := h
  exact ⟨first, (firstCheck_of_call hcall).trans hresult⟩

/-- The dry run shows the removal of an import, and the real run removes it. -/
theorem dry_run_foretells_sample :
    let output := "src/m.ts(1,1): error TS6192: All imports in import declaration are unused.\n"
    let m := sampleProject [(["src", "m.ts"], sampleText)]
      [.finished output.toList [] 2, .finished [] [] 0] [.finished "[]".toList [] 0]
    let path := (wholeTask "src/m.ts").path
    ∃ x x' ps₁ ps₂ m₁ m₂,
      m.run ((run (sampleSettings.withDryRun true)).run.run initialPhases) = ((x, ps₁), m₁) ∧
      m.run ((run (sampleSettings.withDryRun false)).run.run initialPhases) = ((x', ps₂), m₂) ∧
      (∀ c ds, sampleSettings.Fixes m c ds → sampleSettings.TasksApart m ds) ∧
      (∀ c ds, sampleSettings.Fixes m c ds → sampleSettings.CanStore (m.start c).2 ds) ∧
      m₂.content? path ≠ m.content? path ∧ m₁.disk = m.disk ∧
      RunForetold sampleSettings m m₁ m₂ x x' := by
  intro output m path
  have hcheck : (sampleSettings.firstCheck m).map (·.1) = .ok [wholeUnused "src/m.ts"] := by
    decide +kernel
  have hplans : (filesOf [wholeUnused "src/m.ts"]).mapM
      (sampleSettings.plan? m.disk m.workingDirectory) = .ok [.inr (wholeTask "src/m.ts")] := by
    decide +kernel
  have hapart : ∀ c ds, sampleSettings.Fixes m c ds → sampleSettings.TasksApart m ds := by
    intro c ds hfixes plans h
    obtain ⟨first, hfirst⟩ := hfixes.firstCheck
    rw [hfirst] at hcheck
    obtain rfl : ds = [wholeUnused "src/m.ts"] := Except.ok.inj hcheck
    rw [Except.ok.inj (h.symm.trans hplans)]
    exact List.nodup_singleton _
  have hstore : ∀ c ds, sampleSettings.Fixes m c ds → sampleSettings.CanStore (m.start c).2 ds := by
    intro c ds _
    apply Settings.canStore_of_unlimited
    rw [← (consults_start m c).disk]
    rfl
  have hchanged : (m.run ((run (sampleSettings.withDryRun false)).run.run initialPhases)).2.content?
      path ≠ m.content? path := by decide +kernel
  cases hdry : m.run ((run (sampleSettings.withDryRun true)).run.run initialPhases) with
  | mk out m₁ =>
    cases hreal : m.run ((run (sampleSettings.withDryRun false)).run.run initialPhases) with
    | mk out' m₂ =>
      rw [hreal] at hchanged
      obtain ⟨hunwritten, hforetold, -⟩ := dry_run_foretells hdry hreal hapart
      exact ⟨out.1, out'.1, out.2, out'.2, m₁, m₂, rfl, rfl, hapart, hstore, hchanged, hunwritten,
        hforetold hstore⟩

end ImportRepair
