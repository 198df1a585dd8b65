import ImportRepair.Proofs.Fix.Frame

/-!
# Dry passes

A dry pass and a real one make the same plans, get the same evidence and find
the same in each file.  So, if the fixes can be stored, they come to the same
results, and the text that the dry pass compares a file with is the one that the
real pass stores in it.
-/

namespace ImportRepair

open Machine

variable {s : Settings} {ds : List Diagnostic} {m m' : Machine} {n n' : Nat} {a b : Bool}
variable {t : FixTask} {e : PassError} {octets : List UInt8}

/-- The settings, for a run that is dry or not. -/
def Settings.withDryRun (s : Settings) (dryRun : Bool) : Settings := { s with dryRun }

/-! ### What is the same in both -/

theorem planFiles_congr (hm : Consults m [] m') (a b : Bool)
    (files : List (Text × List Diagnostic)) :
    (m'.run (planFiles (s.withDryRun b) files)).1 =
      (m.run (planFiles (s.withDryRun a) files)).1 := by
  rw [(run_planFiles m' _ files).1, (run_planFiles m _ files).1, ← hm.disk, ← hm.here]
  rfl

theorem askLinter_withDryRun_congr (hm : Consults m [] m') (a b : Bool) (paths : List Path) :
    (m'.run (askLinter (s.withDryRun b) paths)).1 =
      (m.run (askLinter (s.withDryRun a) paths)).1 := askLinter_congr hm s paths

/-- The machines on which both ask the linter differ in their logs only. -/
theorem consults_found {found found' : Machine} {x y : Except PathFault _}
    (hm : Consults m [] m')
    (hplans : m.run (planFiles (s.withDryRun a) (filesOf ds)) = (x, found))
    (hplans' : m'.run (planFiles (s.withDryRun b) (filesOf ds)) = (y, found')) :
    Consults found [] found' := by
  have hfound := consults_planFiles m (s.withDryRun a) ds
  have hfound' := hm.trans (consults_planFiles m' (s.withDryRun b) ds)
  rw [hplans] at hfound
  rw [hplans'] at hfound'
  exact hfound.cancel hfound'

/-- After the same plans both get the same answer about the linter. -/
theorem exists_ask_congr {plans : List (FixResult ⊕ FixTask)} {found asked : Machine}
    {x : Except LinterError (List Evidence)} (hm : Consults m [] m') (b : Bool)
    (hplans : m.run (planFiles (s.withDryRun a) (filesOf ds)) = (.ok plans, found))
    (hask : found.run (askLinter (s.withDryRun a) (askedPaths plans)) = (x, asked)) :
    ∃ found' asked', m'.run (planFiles (s.withDryRun b) (filesOf ds)) = (.ok plans, found') ∧
      found'.run (askLinter (s.withDryRun b) (askedPaths plans)) = (x, asked') := by
  have hvalue := planFiles_congr (s := s) hm a b (filesOf ds)
  cases hplans' : m'.run (planFiles (s.withDryRun b) (filesOf ds)) with
  | mk y found' =>
    rw [hplans, hplans'] at hvalue
    obtain rfl : y = .ok plans := hvalue
    have hanswer := askLinter_withDryRun_congr (s := s) (consults_found hm hplans hplans') a b
      (askedPaths plans)
    cases hask' : found'.run (askLinter (s.withDryRun b) (askedPaths plans)) with
    | mk z asked' =>
      rw [hask, hask'] at hanswer
      obtain rfl : z = x := hanswer
      exact ⟨found', asked', rfl, hask'⟩

/-- A pass that comes to no end in one mode comes to none in the other. -/
theorem fixPass_error_congr (hm : Consults m [] m') (b : Bool)
    (h : (m.run (fixPass (s.withDryRun a) ds)).1 = .error e) :
    (m'.run (fixPass (s.withDryRun b) ds)).1 = .error e := by
  cases hrun : m.run (fixPass (s.withDryRun a) ds) with
  | mk r m₁ =>
    rw [hrun] at h
    cases passed_fixPass hrun with
    | faulty hplans =>
      have hvalue := planFiles_congr (s := s) hm a b (filesOf ds)
      rw [hplans] at hvalue
      rw [run_fixPass_of_fault hvalue]
      exact h
    | refused hplans hask =>
      obtain ⟨found', asked', hplans', hask'⟩ := exists_ask_congr hm b hplans hask
      rw [run_fixPass_of_plans hplans', run_runTasks_of_error hask']
      exact h
    | blank hplans hask hworkers =>
      obtain ⟨found', asked', hplans', hask'⟩ := exists_ask_congr hm b hplans hask
      rw [run_fixPass_of_plans hplans', run_runTasks_of_blank hask' hworkers]
      exact h
    | done => cases h

/-! ### Two passes -/

namespace PassInTurns

variable {P : PassInTurns (s.withDryRun a) ds n m} {Q : PassInTurns (s.withDryRun b) ds n' m'}

theorem plans_congr (hm : Consults m [] m') : P.plans = Q.plans := by
  obtain ⟨found', asked', hplans, -⟩ := exists_ask_congr hm b P.plan_eq P.ask_eq
  rw [Q.plan_eq] at hplans
  exact (Except.ok.inj (Prod.mk.inj hplans).1).symm

theorem evidence_congr (hm : Consults m [] m') : P.evidence = Q.evidence := by
  obtain ⟨found', asked', hplans, hask⟩ := exists_ask_congr hm b P.plan_eq P.ask_eq
  obtain ⟨hsame, rfl⟩ := Prod.mk.inj (Q.plan_eq.symm.trans hplans)
  rw [← Except.ok.inj hsame, Q.ask_eq] at hask
  exact (Except.ok.inj (Prod.mk.inj hask).1).symm

/-- If there is a pass in one mode then there is one in the other. -/
theorem nonempty_congr (P : PassInTurns (s.withDryRun a) ds n m) (hm : Consults m [] m') (b : Bool)
    (hn : 0 < n') : Nonempty (PassInTurns (s.withDryRun b) ds n' m') := by
  obtain ⟨found', asked', hplans, hask⟩ := exists_ask_congr hm b P.plan_eq P.ask_eq
  obtain ⟨Q, -⟩ := exists_of_evidence hn hplans (congrArg Prod.fst hask)
  exact ⟨Q⟩

theorem OwnsFiles.congr (h : P.OwnsFiles) (hm : Consults m [] m') : Q.OwnsFiles := by
  unfold OwnsFiles at h ⊢
  rwa [plans_congr hm, hm.here] at h

/-- In both passes a task comes to what is found in its file. -/
theorem taskEnd_congr (hm : Consults m [] m') (hcontent : m.content? t.path = .ok octets) :
    ∃ finding m₁ m₁',
      finding = t.find s (evidenceFor s P.evidence m.workingDirectory t.path) (m.read? t.path) ∧
      TaskEnd a t.file t.path P.asked finding
        (Pool.alone (s.withDryRun a) P.evidence P.asked t).1 m₁ ∧
      TaskEnd b t.file t.path Q.asked finding
        (Pool.alone (s.withDryRun b) Q.evidence Q.asked t).1 m₁' ∧
      m₁'.content? t.path = (Pool.alone (s.withDryRun b) Q.evidence Q.asked t).2 := by
  have hcontent' : m'.content? t.path = .ok octets := (hm.content?_eq t.path).trans hcontent
  obtain ⟨m₁, hend, -⟩ := P.taskEnd_alone hcontent
  obtain ⟨m₁', hend', hleft⟩ := Q.taskEnd_alone hcontent'
  rw [← hm.here, hm.read?_eq] at hend'
  rw [evidence_congr (P := P) (Q := Q) hm] at hend ⊢
  exact ⟨_, m₁, m₁', rfl, hend, hend', hleft⟩

/-- The limits of the files let the tasks store their fixes. -/
def Stores (P : PassInTurns s ds n m) : Prop :=
  ∀ t ∈ tasksOf P.plans, (m.limitsOf t.path).Admits
    (t.find s (evidenceFor s P.evidence m.workingDirectory t.path) (m.read? t.path))

theorem limitsOf_asked_congr (hm : Consults m [] m') (p : Path) :
    P.asked.limitsOf p = m.limitsOf p ∧ Q.asked.limitsOf p = m.limitsOf p :=
  ⟨(P.limitsOf_asked p).symm, (Q.limitsOf_asked p).symm.trans (hm.limitsOf_eq p)⟩

theorem Stores.agrees_resultOf (h : P.Stores) (hm : Consults m [] m') {plan : FixResult ⊕ FixTask}
    (hplan : plan ∈ P.plans) : (P.resultOf plan).Agrees (Q.resultOf plan) := by
  cases plan with
  | inl r => exact .refl r
  | inr t =>
    have ht := mem_tasksOf_iff.2 hplan
    obtain ⟨octets, hcontent⟩ := content?_of_look (P.look_of_mem ht)
    obtain ⟨finding, m₁, m₁', rfl, hend, hend', -⟩ := taskEnd_congr (P := P) (Q := Q) hm hcontent
    obtain ⟨hleft, hright⟩ := limitsOf_asked_congr (P := P) (Q := Q) hm t.path
    have hadmits := h t ht
    exact hend.agrees hend' (hleft ▸ hadmits) (hright ▸ hadmits)

end PassInTurns

/-- The results of a pass are in the order of what they are planned for. -/
theorem PassInTurns.OwnsFiles.details_eq {P : PassInTurns s ds n m} (h : P.OwnsFiles) :
    P.batch.details =
      (P.plans.mergeSort fun x y => Text.le (planned x) (planned y)).map P.resultOf := by
  rw [batch, Batch.ofResults_eq_of_perm h.results_perm h.nodup_results, Batch.ofResults]
  refine (List.map_mergeSort ?_).symm
  intro x _ y _
  rw [P.file_resultOf, P.file_resultOf]

/-- What a dry pass, which leaves the second machine, foretells of a real one. -/
structure Settings.Foretold (s : Settings) (ds : List Diagnostic) (m m₁ m₂ : Machine)
    (evidence : List Evidence) (dry real : Batch) : Prop where
  total : dry.total = real.total
  results : List.Forall₂ FixResult.Agrees dry.details real.details
  unwritten : m₁.disk = m.disk
  contents : ∀ r ∈ dry.details, ∀ p, s.Owns m.disk m.workingDirectory r.file p →
    (∃ octets, m.content? p = .ok octets) ∧
      Foretells r.file r (m.content? p) (m₂.content? p)
        (FixTask.find s (evidenceFor s evidence m.workingDirectory p)
          ⟨r.file, ds.filter fun e => e.file == r.file, p⟩ (m.read? p))

theorem Settings.Foretold.of_consults {m₀ m₁ m₂ m₁' m₂' : Machine} {evidence : List Evidence}
    {dry real : Batch} {cs cs₁ cs₂ : List ToolCall} (h : s.Foretold ds m m₁ m₂ evidence dry real)
    (hbefore : Consults m₀ cs m) (hdry : Consults m₁ cs₁ m₁') (hreal : Consults m₂ cs₂ m₂') :
    s.Foretold ds m₀ m₁' m₂' evidence dry real where
  total := h.total
  results := h.results
  unwritten := by rw [← hdry.disk, h.unwritten, hbefore.disk]
  contents := by
    intro r hr p howns
    rw [hbefore.disk, hbefore.here] at howns
    have hcontents := h.contents r hr p howns
    rw [hbefore.content?_eq, hbefore.read?_eq] at hcontents
    rwa [hreal.content?_eq, hbefore.here]

namespace PassInTurns

variable {P : PassInTurns (s.withDryRun true) ds n m}
variable {Q : PassInTurns (s.withDryRun false) ds n' m'}

theorem OwnsFiles.foretells (h : P.OwnsFiles) (hstores : P.Stores) (hm : Consults m [] m')
    (ht : t ∈ tasksOf P.plans) (hcontent : m.content? t.path = .ok octets) :
    Foretells t.file (P.resultOf (.inr t)) (m.content? t.path) (Q.after.content? t.path)
      (t.find s (evidenceFor s P.evidence m.workingDirectory t.path) (m.read? t.path)) := by
  have howns' : Q.OwnsFiles := h.congr hm
  obtain ⟨finding, m₁, m₁', rfl, hend, hend', hleft⟩ :=
    taskEnd_congr (P := P) (Q := Q) hm hcontent
  obtain ⟨-, hright⟩ := limitsOf_asked_congr (P := P) (Q := Q) hm t.path
  have hforetells := hend.foretells hend' (hright ▸ hstores t ht)
  rw [plans_congr (Q := Q) hm] at ht
  rw [hleft, ← howns'.sound.content?_eq Q.isDone ht, ← Q.content?_asked] at hforetells
  rwa [← hm.content?_eq]

/-- **A dry pass foretells what a real one does.** -/
theorem OwnsFiles.foretold (h : P.OwnsFiles) (hstores : P.Stores) (hm : Consults m [] m') :
    s.Foretold ds m P.after Q.after P.evidence P.batch Q.batch where
  total := by
    rw [batch, batch, Batch.ofResults, Batch.ofResults, plans_congr (P := P) (Q := Q) hm]
  results := by
    have h' : Q.OwnsFiles := h.congr hm
    rw [h.details_eq, h'.details_eq, ← plans_congr (P := P) hm, List.forall₂_map_left_iff,
      List.forall₂_map_right_iff, List.forall₂_same]
    intro plan hplan
    exact hstores.agrees_resultOf hm ((List.mergeSort_perm _ _).mem_iff.1 hplan)
  unwritten := P.disk_eq_of_dryRun rfl
  contents := by
    intro r hr p howns
    obtain ⟨octets, hcontent⟩ := content?_of_look (Disk.firstFile?_eq_some howns.1).2
    refine ⟨⟨octets, hcontent⟩, ?_⟩
    have hfile : ∃ e ∈ ds, e.file = r.file := h.mem_files_iff.1 (List.mem_map_of_mem hr)
    have ht : ⟨r.file, ds.filter fun e => e.file == r.file, p⟩ ∈ tasksOf P.plans :=
      (mem_tasksOf_filesOf_iff P.plans_eq).2 ⟨hfile, rfl, howns⟩
    have heq := h.eq_resultOf ht hr rfl
    have hforetells := h.foretells (Q := Q) hstores hm ht hcontent
    rwa [← heq] at hforetells

end PassInTurns

end ImportRepair
