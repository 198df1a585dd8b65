import ImportRepair.Proofs.Fix.Pass
import ImportRepair.Proofs.Fix.Turns
import ImportRepair.Proofs.Run.Batch

/-!
# Files do not disturb each other

If no two tasks of a pass work on one file, then it does not matter how many
workers there are, whose turn it is, or which result is collected first; and
the result of a file depends on this file and what is said of it only.

The exception is a file that cannot be looked for, because its name is too long
or a directory may not be searched.  It is met before any task is run, and it
ends the pass for all files.
-/

namespace ImportRepair

open Machine

variable {s : Settings} {ds ds' : List Diagnostic} {m m' : Machine} {n n' : Nat}
variable {evidence evidence' : List Evidence} {t : FixTask} {plans : List (FixResult ⊕ FixTask)}
variable {plan : FixResult ⊕ FixTask} {d d' : Disk} {here p : Path} {file : Text}
variable {octets : List UInt8} {r : FixResult}

/-! ### A task alone -/

/-- The script of a task that has been given its own evidence. -/
def FixTask.rest (s : Settings) (own : List Evidence) (t : FixTask) : Script FixResult :=
  fixSource s t.file t.diagnostics t.path own >>= fun r =>
    match r with
    | .ok r => pure r
    | .error e =>
      let error := e.message t.path
      Host.log ⟨.error, .run, s!"Unexpected error fixing {String.ofList t.file}: {error}"⟩ >>=
        fun _ => pure { file := t.file, error := some error, message := "Unexpected error" }

theorem FixTask.run_eq (s : Settings) (evidence : List Evidence) (t : FixTask) :
    (t.run s evidence : Script FixResult) =
      .ask .workingDirectory fun here => t.rest s (evidenceFor s evidence here t.path) := by
  rw [FixTask.run]
  rfl

theorem alone_eq (s : Settings) (evidence : List Evidence) (m : Machine) (t : FixTask) :
    Pool.alone s evidence m t =
      (t.rest s (evidenceFor s evidence m.workingDirectory t.path)).outcome t.path m := by
  rw [Pool.alone, FixTask.run_eq, Script.outcome_ask]
  rfl

/-- A task alone depends on its own evidence and its own file. -/
theorem alone_congr (hhere : m.workingDirectory = m'.workingDirectory)
    (hlimits : m.limitsOf t.path = m'.limitsOf t.path) (hm : m.content? t.path = .ok octets)
    (hm' : m'.content? t.path = .ok octets)
    (hown : evidenceFor s evidence m.workingDirectory t.path =
      evidenceFor s evidence' m.workingDirectory t.path) :
    Pool.alone s evidence m t = Pool.alone s evidence' m' t := by
  have hsame : Pool.alone s evidence m t = Pool.alone s evidence' m t := by
    rw [alone_eq, alone_eq, hown]
  rw [hsame]
  exact Script.outcome_congr (Script.worksOn_run s evidence' t) hhere hlimits hm hm'

theorem file_alone (s : Settings) (evidence : List Evidence) (m : Machine) (t : FixTask) :
    (Pool.alone s evidence m t).1.file = t.file :=
  (Script.worksOn_run s evidence t).holds

/-! ### Files that are found -/

theorem Disk.firstFile?_eq_some {ps : List Path} (h : d.firstFile? here ps = .ok (some p)) :
    p ∈ ps ∧ d.look here p = .ok .file := by
  induction ps with
  | nil => cases h
  | cons q ps ih =>
    rw [firstFile?, isFile?] at h
    cases hlook : d.look here q with
    | ok kind =>
      rw [hlook] at h
      cases kind with
      | file =>
        cases h
        exact ⟨List.mem_cons_self, hlook⟩
      | directory =>
        obtain ⟨hmem, hfile⟩ := ih h
        exact ⟨List.mem_cons_of_mem _ hmem, hfile⟩
    | error f =>
      rw [hlook] at h
      cases hf : f.isAbsence with
      | true =>
        simp only [hf, if_true] at h
        obtain ⟨hmem, hfile⟩ := ih h
        exact ⟨List.mem_cons_of_mem _ hmem, hfile⟩
      | false =>
        simp only [hf, Bool.false_eq_true, if_false] at h
        cases h

theorem Disk.firstFile?_congr {ps : List Path}
    (h : ∀ p ∈ ps, d.look here p = d'.look here p) :
    d.firstFile? here ps = d'.firstFile? here ps := by
  induction ps with
  | nil => rfl
  | cons p ps ih =>
    have hrest := ih fun q hq => h q (List.mem_cons_of_mem _ hq)
    rw [firstFile?, firstFile?, isFile?, isFile?, h p List.mem_cons_self, hrest]

theorem content?_of_look (h : m.disk.look m.workingDirectory p = .ok .file) :
    ∃ octets, m.content? p = .ok octets := by
  obtain ⟨l, octets, hlocate, hat⟩ := Disk.look_eq_file_iff.1 h
  exact ⟨octets, Disk.content_of_at? hlocate hat⟩

/-! ### A pass in turns -/

/-- A pass whose tasks are run by some workers, where the results are collected in any order. -/
structure PassInTurns (s : Settings) (ds : List Diagnostic) (workers : Nat) (m : Machine) where
  plans : List (FixResult ⊕ FixTask)
  /-- The machine after the files have been looked for. -/
  found : Machine
  evidence : List Evidence
  /-- The machine after the linter has been asked. -/
  asked : Machine
  pool : Pool
  results : List FixResult
  plan_eq : m.run (planFiles s (filesOf ds)) = (.ok plans, found)
  ask_eq : found.run (askLinter s (askedPaths plans)) = (.ok evidence, asked)
  reaches : Pool.Reaches s evidence workers (.start asked (tasksOf plans)) pool
  isDone : pool.IsDone
  collected : results.Perm (settledOf plans ++ pool.results)

namespace PassInTurns

variable (P : PassInTurns s ds n m)

def batch : Batch := .ofResults P.plans.length P.results

def after : Machine := P.pool.machine

/-- No two tasks work on one file. -/
def OwnsFiles : Prop := ((tasksOf P.plans).map fun t => t.path.resolve m.workingDirectory).Nodup

theorem consults_asked : ∃ cs, Consults m cs P.asked := by
  obtain ⟨cs, -, -, hasked⟩ := consults_ask P.plan_eq
  rw [P.ask_eq] at hasked
  exact ⟨cs, hasked⟩

theorem disk_asked : m.disk = P.asked.disk := by
  obtain ⟨cs, h⟩ := P.consults_asked
  exact h.disk

theorem here_asked : m.workingDirectory = P.asked.workingDirectory := by
  obtain ⟨cs, h⟩ := P.consults_asked
  exact h.here

theorem content?_asked (p : Path) : m.content? p = P.asked.content? p := by
  obtain ⟨cs, h⟩ := P.consults_asked
  exact (h.content?_eq p).symm

theorem read?_asked (p : Path) : m.read? p = P.asked.read? p := by
  obtain ⟨cs, h⟩ := P.consults_asked
  exact (h.read?_eq p).symm

theorem limitsOf_asked (p : Path) : m.limitsOf p = P.asked.limitsOf p := by
  obtain ⟨cs, h⟩ := P.consults_asked
  exact (h.limitsOf_eq p).symm

theorem plans_eq : (filesOf ds).mapM (s.plan? m.disk m.workingDirectory) = .ok P.plans := by
  rw [← (run_planFiles m s (filesOf ds)).1, P.plan_eq]

theorem isFile_of_mem (ht : t ∈ tasksOf P.plans) :
    ∃ octets, P.asked.content? t.path = .ok octets := by
  obtain ⟨-, -, howns, -⟩ := (mem_tasksOf_filesOf_iff P.plans_eq).1 ht
  rw [← P.content?_asked]
  exact content?_of_look (Disk.firstFile?_eq_some howns).2

theorem sound_start : Pool.Sound s P.evidence P.asked (tasksOf P.plans)
    (.start P.asked (tasksOf P.plans)) := Pool.sound_start fun _ => P.isFile_of_mem

variable {P}

theorem OwnsFiles.nodup (h : P.OwnsFiles) :
    ((tasksOf P.plans).map fun t => P.asked.placeOf t.path).Nodup := by
  have hmap : ((tasksOf P.plans).map fun t => P.asked.placeOf t.path).map (Path.mk .slash) =
      (tasksOf P.plans).map fun t => t.path.resolve m.workingDirectory := by
    rw [List.map_map, P.here_asked]
    rfl
  rw [OwnsFiles, ← hmap] at h
  exact h.of_map

theorem OwnsFiles.sound (h : P.OwnsFiles) :
    Pool.Sound s P.evidence P.asked (tasksOf P.plans) P.pool :=
  P.sound_start.reaches h.nodup P.reaches

variable (P)

/-! ### The batch -/

def resultOf : FixResult ⊕ FixTask → FixResult :=
  Sum.elim id fun t => (Pool.alone s P.evidence P.asked t).1

theorem file_resultOf (plan : FixResult ⊕ FixTask) : (P.resultOf plan).file = planned plan := by
  cases plan with
  | inl r => rfl
  | inr t => exact file_alone s P.evidence P.asked t

variable {P}

theorem OwnsFiles.results_perm (h : P.OwnsFiles) : P.results.Perm (P.plans.map P.resultOf) := by
  refine P.collected.trans ?_
  rw [h.sound.results_eq P.isDone]
  generalize P.plans = plans
  induction plans with
  | nil => exact .nil
  | cons plan plans ih =>
    cases plan with
    | inl r => exact ih.cons _
    | inr t => exact List.perm_middle.trans (ih.cons _)

theorem OwnsFiles.details_perm (h : P.OwnsFiles) :
    P.batch.details.Perm (P.plans.map P.resultOf) :=
  (Batch.details_perm _ _).trans h.results_perm

theorem OwnsFiles.files_perm (h : P.OwnsFiles) :
    (P.batch.details.map (·.file)).Perm ((filesOf ds).map (·.1)) := by
  have hfiles : (P.plans.map P.resultOf).map (·.file) = (filesOf ds).map (·.1) := by
    rw [List.map_map, ← map_planned P.plans_eq]
    exact List.map_congr_left fun plan _ => P.file_resultOf plan
  rw [← hfiles]
  exact h.details_perm.map _

theorem OwnsFiles.nodup_details (h : P.OwnsFiles) : (P.batch.details.map (·.file)).Nodup :=
  h.files_perm.nodup_iff.2 (nodup_filesOf ds)

theorem OwnsFiles.nodup_results (h : P.OwnsFiles) : (P.results.map (·.file)).Nodup :=
  ((Batch.details_perm P.plans.length _).map (·.file)).nodup_iff.1 h.nodup_details

/-- Results are in order of their files, and no file has two. -/
theorem OwnsFiles.strict (h : P.OwnsFiles) :
    (P.batch.details.map (·.file)).Pairwise fun a b => Text.le a b = true ∧ a ≠ b := by
  have hsorted : (P.batch.details.map (·.file)).Pairwise fun a b => Text.le a b = true :=
    List.pairwise_map.2 (Batch.details_sorted _ _)
  exact hsorted.and h.nodup_details

theorem OwnsFiles.mem_files_iff (h : P.OwnsFiles) :
    file ∈ P.batch.details.map (·.file) ↔ ∃ e ∈ ds, e.file = file := by
  rw [h.files_perm.mem_iff, List.mem_map]
  constructor
  · rintro ⟨f, hf, rfl⟩
    exact (mem_filesOf_iff.1 hf).1
  · exact fun hex => ⟨_, filter_mem_filesOf hex, rfl⟩

theorem OwnsFiles.total_eq (h : P.OwnsFiles) : P.batch.total = P.batch.processed := by
  have hlength : P.batch.details.length = P.plans.length := by
    rw [h.details_perm.length_eq, List.length_map]
  rw [Batch.processed, hlength]
  rfl

/-- The result of a file is the one that follows from the plan for it. -/
theorem OwnsFiles.mem_details_iff (h : P.OwnsFiles) (hr : r.file = file) :
    r ∈ P.batch.details ↔ (∃ e ∈ ds, e.file = file) ∧ ∃ plan,
      s.plan? m.disk m.workingDirectory (file, ds.filter fun a => a.file == file) = .ok plan ∧
        P.resultOf plan = r := by
  rw [h.details_perm.mem_iff, List.mem_map]
  constructor
  · rintro ⟨plan, hplan, rfl⟩
    obtain ⟨f, hf, hplan⟩ := (mem_of_mapM_eq_ok_iff P.plans_eq).1 hplan
    rw [P.file_resultOf, planned_of_plan? hplan] at hr
    obtain ⟨hex, heq⟩ := mem_filesOf_iff.1 hf
    subst hr
    exact ⟨hex, plan, heq ▸ hplan, rfl⟩
  · rintro ⟨hex, plan, hplan, rfl⟩
    exact ⟨plan, (mem_of_mapM_eq_ok_iff P.plans_eq).2 ⟨_, filter_mem_filesOf hex, hplan⟩, rfl⟩

/-- The only result of a file with a task is that of the task. -/
theorem OwnsFiles.eq_resultOf (h : P.OwnsFiles) (ht : t ∈ tasksOf P.plans)
    (hr : r ∈ P.batch.details) (hfile : r.file = t.file) : r = P.resultOf (.inr t) := by
  have hmem : P.resultOf (.inr t) ∈ P.batch.details :=
    h.details_perm.mem_iff.2 (List.mem_map_of_mem (mem_tasksOf_iff.1 ht))
  have hfile' : r.file = (P.resultOf (.inr t)).file :=
    hfile.trans (P.file_resultOf (.inr t)).symm
  exact List.inj_on_of_nodup_map h.nodup_details hr hmem hfile'

/-! ### One worker and many -/

/-- A pass with one worker that takes the tasks in order comes to the same batch and the same
    files. -/
theorem OwnsFiles.fixPass_eq (h : P.OwnsFiles) (hworkers : s.workers ≠ .blank) :
    (m.run (fixPass s ds)).1 = .ok P.batch ∧
      ∀ l, (m.run (fixPass s ds)).2.disk.at? l = P.after.disk.at? l := by
  obtain ⟨w, hreaches, hdone, hmachine, hresults⟩ := Pool.exists_reaches_start s P.evidence
    P.asked (tasksOf P.plans) Nat.one_pos
  have hsound := P.sound_start.reaches h.nodup hreaches
  obtain ⟨hvalue, log, hlog⟩ := run_runTasks_of_evidence P.ask_eq hworkers
  rw [run_fixPass_of_plans P.plan_eq]
  constructor
  · have hsame : w.results = P.pool.results := by
      rw [hsound.results_eq hdone, h.sound.results_eq P.isDone]
    rw [hvalue, ← hresults, hsame, batch, Batch.ofResults_eq_of_perm P.collected h.nodup_results]
  · intro l
    rw [hlog, ← hmachine]
    exact hsound.at?_eq hdone h.sound P.isDone l

/-- A pass with workers can be carried through once the linter has been asked. -/
theorem exists_of_evidence {found : Machine} (hn : 0 < n)
    (hplans : m.run (planFiles s (filesOf ds)) = (.ok plans, found))
    (hask : (found.run (askLinter s (askedPaths plans))).1 = .ok evidence) :
    ∃ P : PassInTurns s ds n m, P.plans = plans ∧ P.evidence = evidence := by
  obtain ⟨w, hreaches, hdone, -⟩ := Pool.exists_reaches_start s evidence
    (found.run (askLinter s (askedPaths plans))).2 (tasksOf plans) hn
  exact ⟨⟨plans, found, evidence, _, w, _, hplans, Prod.ext hask rfl, hreaches, hdone, .refl _⟩,
    rfl, rfl⟩

theorem nonempty_iff (hworkers : s.workers ≠ .blank) (hn : 0 < n) :
    Nonempty (PassInTurns s ds n m) ↔ ∃ b, (m.run (fixPass s ds)).1 = .ok b := by
  constructor
  · rintro ⟨P⟩
    rw [run_fixPass_of_plans P.plan_eq]
    exact ⟨_, (run_runTasks_of_evidence P.ask_eq hworkers).1⟩
  · rintro ⟨b, hb⟩
    cases hrun : m.run (fixPass s ds) with
    | mk r m' =>
      rw [hrun] at hb
      cases passed_fixPass hrun with
      | faulty | refused | blank => cases hb
      | done hplans hask =>
        obtain ⟨P, -⟩ := exists_of_evidence hn hplans (congrArg Prod.fst hask)
        exact ⟨P⟩

/-! ### One file in two passes -/

/-- Two passes see the same of a file: its diagnostics, its records of the linter, and what each of
    the paths leads to that the file may be found at, with what the host permits there. -/
structure SameView (P : PassInTurns s ds n m) (P' : PassInTurns s ds' n' m') (file : Text) :
    Prop where
  here : m.workingDirectory = m'.workingDirectory
  diagnostics : (ds.filter fun e => e.file == file) = ds'.filter fun e => e.file == file
  look : ∀ p ∈ pathsOf [s.root, m.workingDirectory] file,
    m.disk.look m.workingDirectory p = m'.disk.look m'.workingDirectory p
  content : ∀ p ∈ pathsOf [s.root, m.workingDirectory] file, m.content? p = m'.content? p
  limits : ∀ p ∈ pathsOf [s.root, m.workingDirectory] file, m.limitsOf p = m'.limitsOf p
  records : ∀ p ∈ pathsOf [s.root, m.workingDirectory] file,
    evidenceFor s P.evidence m.workingDirectory p = evidenceFor s P'.evidence m.workingDirectory p

variable {P' : PassInTurns s ds' n' m'}

theorem SameView.exists_iff (h : SameView P P' file) :
    (∃ e ∈ ds, e.file = file) ↔ ∃ e ∈ ds', e.file = file := by
  have hfilter (es : List Diagnostic) :
      (∃ e ∈ es, e.file = file) ↔ (es.filter fun e => e.file == file) ≠ [] := by
    simp [List.filter_eq_nil_iff]
  rw [hfilter, hfilter, h.diagnostics]

theorem SameView.plan?_eq (h : SameView P P' file) :
    s.plan? m.disk m.workingDirectory (file, ds.filter fun a => a.file == file) =
      s.plan? m'.disk m'.workingDirectory (file, ds'.filter fun a => a.file == file) := by
  have hlook := h.look
  rw [← h.here] at hlook
  rw [Settings.plan?, Settings.plan?, ← h.diagnostics, ← h.here, Disk.firstFile?_congr hlook]

/-- A task for the file comes to the same end in both passes. -/
theorem SameView.alone_eq (h : SameView P P' file)
    (howns : s.Owns m.disk m.workingDirectory file t.path) :
    Pool.alone s P.evidence P.asked t = Pool.alone s P'.evidence P'.asked t := by
  obtain ⟨hpath, hlook⟩ := Disk.firstFile?_eq_some howns.1
  obtain ⟨octets, hcontent⟩ := content?_of_look hlook
  have hcontent' := (h.content _ hpath).symm.trans hcontent
  have hlimits := h.limits _ hpath
  have hrecords := h.records _ hpath
  rw [P.content?_asked] at hcontent
  rw [P'.content?_asked] at hcontent'
  rw [P.limitsOf_asked, P'.limitsOf_asked] at hlimits
  rw [P.here_asked] at hrecords
  exact alone_congr (P.here_asked.symm.trans (h.here.trans P'.here_asked)) hlimits hcontent
    hcontent' hrecords

theorem SameView.resultOf_eq (h : SameView P P' file)
    (hplan : s.plan? m.disk m.workingDirectory (file, ds.filter fun a => a.file == file) =
      .ok plan) : P.resultOf plan = P'.resultOf plan := by
  cases plan with
  | inl r => rw [resultOf, resultOf, Sum.elim_inl, Sum.elim_inl]
  | inr t =>
    rw [resultOf, resultOf, Sum.elim_inr, Sum.elim_inr, h.alone_eq (plan?_eq_task_iff.1 hplan).1]

theorem SameView.mem_details_iff (h : SameView P P' file) (howns : P.OwnsFiles)
    (howns' : P'.OwnsFiles) (hr : r.file = file) :
    r ∈ P.batch.details ↔ r ∈ P'.batch.details := by
  rw [howns.mem_details_iff hr, howns'.mem_details_iff hr, h.exists_iff, ← h.plan?_eq]
  refine and_congr_right fun _ => exists_congr fun plan => and_congr_right fun hplan => ?_
  rw [h.resultOf_eq hplan]

theorem SameView.content?_eq (h : SameView P P' file) (howns : P.OwnsFiles)
    (howns' : P'.OwnsFiles) (hex : ∃ e ∈ ds, e.file = file)
    (hp : s.Owns m.disk m.workingDirectory file p) : P.after.content? p = P'.after.content? p := by
  have hplan : s.plan? m.disk m.workingDirectory (file, ds.filter fun a => a.file == file) =
      .ok (.inr ⟨file, ds.filter fun a => a.file == file, p⟩) :=
    plan?_eq_task_iff.2 ⟨hp, rfl, rfl⟩
  have ht := mem_tasksOf_iff.2 ((mem_of_mapM_eq_ok_iff P.plans_eq).2
    ⟨_, filter_mem_filesOf hex, hplan⟩)
  rw [h.plan?_eq] at hplan
  have ht' := mem_tasksOf_iff.2 ((mem_of_mapM_eq_ok_iff P'.plans_eq).2
    ⟨_, filter_mem_filesOf (h.exists_iff.1 hex), hplan⟩)
  have hleft := howns.sound.content?_eq P.isDone ht
  have hright := howns'.sound.content?_eq P'.isDone ht'
  rw [after, after]
  exact hleft.trans ((congrArg Prod.snd (h.alone_eq hp)).trans hright.symm)

/-- What no task works on stays as it is. -/
theorem OwnsFiles.elsewhere (h : P.OwnsFiles) {l : Location}
    (hl : ∀ e ∈ ds, ∀ p, s.Owns m.disk m.workingDirectory e.file p → m.placeOf p ≠ l) :
    P.after.disk.at? l = m.disk.at? l := by
  rw [P.disk_asked, after]
  refine (h.sound.elsewhere l ?_).symm
  intro t ht
  obtain ⟨⟨e, he, hfile⟩, -, howns⟩ := (mem_tasksOf_filesOf_iff P.plans_eq).1 ht
  rw [← hfile] at howns
  rw [placeOf, ← P.here_asked]
  exact hl e he t.path howns

end PassInTurns

/-- **Files do not disturb each other, unless one cannot be looked for.** -/
theorem fixPass_isolates_files (s : Settings) (ds : List Diagnostic) (m : Machine)
    (hworkers : s.workers ≠ .blank) :
    ((∃ f, (m.run (fixPass s ds)).1 = .error (.source f)) ↔
      ∃ e ∈ ds, s.Stumbles m.disk m.workingDirectory e.file) ∧
    (∀ n, 0 < n → (Nonempty (PassInTurns s ds n m) ↔ ∃ b, (m.run (fixPass s ds)).1 = .ok b)) ∧
    ∀ (n : Nat) (P : PassInTurns s ds n m), P.OwnsFiles →
      -- workers and turns do not matter
      ((m.run (fixPass s ds)).1 = .ok P.batch ∧
        ∀ l, (m.run (fixPass s ds)).2.disk.at? l = P.after.disk.at? l) ∧
      -- one result for each file, in order
      ((P.batch.details.map (·.file)).Pairwise (fun a b => Text.le a b = true ∧ a ≠ b) ∧
        (∀ file, file ∈ P.batch.details.map (·.file) ↔ ∃ e ∈ ds, e.file = file) ∧
        P.batch.total = P.batch.processed ∧
        P.batch.processed = P.batch.fixed + P.batch.failed + P.batch.skipped) ∧
      -- other files do not matter, and are left alone
      (∀ (ds' : List Diagnostic) (n' : Nat) (m' : Machine) (P' : PassInTurns s ds' n' m'),
        P'.OwnsFiles → ∀ e ∈ ds, P.SameView P' e.file →
          (∀ r, r.file = e.file → (r ∈ P.batch.details ↔ r ∈ P'.batch.details)) ∧
          ∀ p, s.Owns m.disk m.workingDirectory e.file p →
            P.after.content? p = P'.after.content? p) ∧
      ∀ l, (∀ e ∈ ds, ∀ p, s.Owns m.disk m.workingDirectory e.file p → m.placeOf p ≠ l) →
        P.after.disk.at? l = m.disk.at? l := by
  refine ⟨fixPass_eq_source_iff, fun n hn => PassInTurns.nonempty_iff hworkers hn, ?_⟩
  intro n P howns
  refine ⟨howns.fixPass_eq hworkers, ⟨howns.strict, fun file => howns.mem_files_iff,
    howns.total_eq, Batch.processed_eq _⟩, ?_, fun l => howns.elsewhere⟩
  intro ds' n' m' P' howns' e he hview
  exact ⟨fun r hr => hview.mem_details_iff howns howns' hr,
    fun p hp => hview.content?_eq howns howns' ⟨e, he, rfl⟩ hp⟩

/-- What becomes of `src/a.ts` is the same with `src/b.ts` and without. -/
theorem fixPass_isolates_files_sample :
    let reply : ToolResult := .finished "[]".toList [] 0
    let m := sampleProject [(["src", "a.ts"], sampleText), (["src", "b.ts"], sampleText)] [] [reply]
    let m' := sampleProject [(["src", "a.ts"], sampleText)] [] [reply]
    let ds := [wholeUnused "src/a.ts", wholeUnused "src/b.ts"]
    sampleSettings.workers ≠ .blank ∧
    ∃ (P : PassInTurns sampleSettings ds 2 m)
      (P' : PassInTurns sampleSettings [wholeUnused "src/a.ts"] 3 m'),
      P.OwnsFiles ∧ P'.OwnsFiles ∧ P.SameView P' "src/a.ts".toList ∧
      (m.run (fixPass sampleSettings ds)).1 = .ok P.batch ∧
      P.after.content? (wholeTask "src/a.ts").path =
        P'.after.content? (wholeTask "src/a.ts").path := by
  intro reply m m' ds
  have hworkers : sampleSettings.workers ≠ .blank := by decide
  have hgroups : groupBy Diagnostic.file ds = [("src/a.ts".toList, [wholeUnused "src/a.ts"]),
      ("src/b.ts".toList, [wholeUnused "src/b.ts"])] := by decide +kernel
  have hfiles : filesOf ds = groupBy Diagnostic.file ds := by
    rw [filesOf, hgroups]
    exact List.mergeSort_of_pairwise (by decide +kernel)
  have hplans : m.run (planFiles sampleSettings (filesOf ds)) =
      (.ok [.inr (wholeTask "src/a.ts"), .inr (wholeTask "src/b.ts")], m) := by
    rw [hfiles]
    decide +kernel
  have hplans' : m'.run (planFiles sampleSettings (filesOf [wholeUnused "src/a.ts"])) =
      (.ok [.inr (wholeTask "src/a.ts")], m') := by decide +kernel
  have hask : (m.run (askLinter sampleSettings
      (askedPaths [.inr (wholeTask "src/a.ts"), .inr (wholeTask "src/b.ts")]))).1 = .ok [] := by
    decide +kernel
  have hask' : (m'.run (askLinter sampleSettings
      (askedPaths [.inr (wholeTask "src/a.ts")]))).1 = .ok [] := by decide +kernel
  obtain ⟨P, hP, hevidence⟩ := PassInTurns.exists_of_evidence (Nat.succ_pos 1) hplans hask
  obtain ⟨P', hP', hevidence'⟩ := PassInTurns.exists_of_evidence (Nat.succ_pos 2) hplans' hask'
  have howns : P.OwnsFiles := by
    rw [PassInTurns.OwnsFiles, hP]
    decide +kernel
  have howns' : P'.OwnsFiles := by
    rw [PassInTurns.OwnsFiles, hP']
    decide +kernel
  have hview : P.SameView P' "src/a.ts".toList := by
    refine ⟨rfl, by decide +kernel, by decide +kernel, by decide +kernel, fun _ _ => rfl, ?_⟩
    intro p _
    rw [hevidence, hevidence']
  obtain ⟨-, -, hpass⟩ := fixPass_isolates_files sampleSettings ds m hworkers
  obtain ⟨⟨hbatch, -⟩, -, hisolated, -⟩ := hpass 2 P howns
  obtain ⟨-, hcontent⟩ := hisolated _ 3 m' P' howns' (wholeUnused "src/a.ts") (by decide) hview
  have hfound : sampleSettings.Owns m.disk m.workingDirectory "src/a.ts".toList
      (wholeTask "src/a.ts").path := ⟨by decide +kernel, by decide +kernel⟩
  exact ⟨hworkers, P, P', howns, howns', hview, hbatch, hcontent _ hfound⟩

/-- A file that does not exist, and whose name is too long to be looked for, keeps `src/a.ts` from
    being fixed. -/
theorem fixPass_blocked_by_long_name :
    let m := sampleProject [(["src", "a.ts"], sampleText)] [] [.finished "[]".toList [] 0]
    let long := "src/".toList ++ List.replicate 256 'x' ++ ".ts".toList
    let ds := [wholeUnused "src/a.ts", { wholeUnused "src/a.ts" with file := long }]
    (m.run (fixPass sampleSettings ds)).1 =
        .error (.source ⟨sampleRoot.join (Path.ofText long), .nameTooLong⟩) ∧
      (m.run (fixPass sampleSettings ds)).2.content? (wholeTask "src/a.ts").path =
        .ok (Utf8.encode sampleText.toList) ∧
      (m.run (fixPass sampleSettings [wholeUnused "src/a.ts"])).2.content?
          (wholeTask "src/a.ts").path =
        .ok (Utf8.encode "import { b } from 'y';\nuse(b);\n".toList) := by
  intro m long ds
  have hgroups : groupBy Diagnostic.file ds = [("src/a.ts".toList, [wholeUnused "src/a.ts"]),
      (long, [{ wholeUnused "src/a.ts" with file := long }])] := by decide +kernel
  have hfiles : filesOf ds = [("src/a.ts".toList, [wholeUnused "src/a.ts"]),
      (long, [{ wholeUnused "src/a.ts" with file := long }])] := by
    rw [filesOf, hgroups]
    exact List.mergeSort_of_pairwise (by decide +kernel)
  have hplans : m.run (planFiles sampleSettings (filesOf ds)) =
      (.error ⟨sampleRoot.join (Path.ofText long), .nameTooLong⟩, m) := by
    rw [hfiles]
    decide +kernel
  rw [run_fixPass_of_fault (congrArg Prod.fst hplans), hplans]
  exact ⟨rfl, by decide +kernel, by decide +kernel⟩

end ImportRepair
