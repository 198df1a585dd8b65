import ImportRepair.Proofs.Fix.OwnFile
import ImportRepair.Proofs.Fix.Tasks
import ImportRepair.Proofs.Tool.Linter

/-!
# The steps of a pass

A pass looks for its files, asks the linter, and runs its tasks.  It ends early
where a file cannot be looked for or the linter's reply cannot be used.
-/

namespace ImportRepair

open Machine

variable {s : Settings} {ds : List Diagnostic} {m m' : Machine} {evidence : List Evidence}
variable {plans : List (FixResult ⊕ FixTask)} {f : PathFault} {d : Disk} {here p : Path}

/-! ### Step by step -/

theorem run_fixPass_of_fault (h : (m.run (planFiles s (filesOf ds))).1 = .error f) :
    m.run (fixPass s ds) = (.error (.source f), (m.run (planFiles s (filesOf ds))).2) := by
  rw [fixPass, run_bind, h]
  rfl

theorem run_fixPass_of_plans (h : m.run (planFiles s (filesOf ds)) = (.ok plans, m')) :
    m.run (fixPass s ds) = m'.run (runTasks s plans) := by
  rw [fixPass, run_bind, h]

theorem run_runTasks_of_error {e : LinterError}
    (h : m.run (askLinter s (askedPaths plans)) = (.error e, m')) :
    m.run (runTasks s plans) = (.error (.linter e), m') := by
  rw [askedPaths, tasksOf] at h
  rw [runTasks, run_bind, h]
  rfl

theorem run_runTasks_of_blank (h : m.run (askLinter s (askedPaths plans)) = (.ok evidence, m'))
    (hworkers : s.workers = .blank) : m.run (runTasks s plans) = (.error .blankWorkers, m') := by
  rw [askedPaths, tasksOf] at h
  rw [runTasks, run_bind, h]
  dsimp only
  rw [if_pos hworkers, run_pure]

theorem run_runTasks_of_evidence (h : m.run (askLinter s (askedPaths plans)) = (.ok evidence, m'))
    (hworkers : s.workers ≠ .blank) :
    (m.run (runTasks s plans)).1 = .ok (Batch.ofResults plans.length
        (settledOf plans ++ (m'.run ((tasksOf plans).mapM (·.run s evidence))).1)) ∧
      OnlyLogs (m'.run ((tasksOf plans).mapM (·.run s evidence))).2
        (m.run (runTasks s plans)).2 := by
  rw [askedPaths, tasksOf] at h
  rw [runTasks, run_bind, h]
  dsimp only
  rw [if_neg hworkers]
  exact ⟨rfl, onlyLogs_log _ _⟩

/-- What a pass may come to. -/
inductive Passed (s : Settings) (ds : List Diagnostic) (m : Machine) :
    Except PassError Batch → Machine → Prop
  /-- A file cannot be looked for. -/
  | faulty {f : PathFault} {m' : Machine}
      (hplans : m.run (planFiles s (filesOf ds)) = (.error f, m')) :
      Passed s ds m (.error (.source f)) m'
  /-- What the linter says cannot be used. -/
  | refused {plans : List (FixResult ⊕ FixTask)} {found : Machine} {e : LinterError} {m' : Machine}
      (hplans : m.run (planFiles s (filesOf ds)) = (.ok plans, found))
      (hask : found.run (askLinter s (askedPaths plans)) = (.error e, m')) :
      Passed s ds m (.error (.linter e)) m'
  | blank {plans : List (FixResult ⊕ FixTask)} {found : Machine} {evidence : List Evidence}
      {m' : Machine} (hplans : m.run (planFiles s (filesOf ds)) = (.ok plans, found))
      (hask : found.run (askLinter s (askedPaths plans)) = (.ok evidence, m'))
      (hworkers : s.workers = .blank) : Passed s ds m (.error .blankWorkers) m'
  /-- All tasks are run. -/
  | done {plans : List (FixResult ⊕ FixTask)} {found : Machine} {evidence : List Evidence}
      {asked m' : Machine} (hplans : m.run (planFiles s (filesOf ds)) = (.ok plans, found))
      (hask : found.run (askLinter s (askedPaths plans)) = (.ok evidence, asked))
      (hworkers : s.workers ≠ .blank)
      (hlogs : OnlyLogs (asked.run ((tasksOf plans).mapM (·.run s evidence))).2 m') :
      Passed s ds m (.ok (Batch.ofResults plans.length
        (settledOf plans ++ (asked.run ((tasksOf plans).mapM (·.run s evidence))).1))) m'

theorem passed_fixPass {r : Except PassError Batch} (h : m.run (fixPass s ds) = (r, m')) :
    Passed s ds m r m' := by
  cases hplans : m.run (planFiles s (filesOf ds)) with
  | mk x found =>
    cases x with
    | error f =>
      rw [run_fixPass_of_fault (congrArg Prod.fst hplans), hplans] at h
      cases h
      exact .faulty hplans
    | ok plans =>
      rw [run_fixPass_of_plans hplans] at h
      cases hask : found.run (askLinter s (askedPaths plans)) with
      | mk a asked =>
        cases a with
        | error e =>
          rw [run_runTasks_of_error hask] at h
          cases h
          exact .refused hplans hask
        | ok evidence =>
          by_cases hworkers : s.workers = .blank
          · rw [run_runTasks_of_blank hask hworkers] at h
            cases h
            exact .blank hplans hask hworkers
          · obtain ⟨hbatch, hlogs⟩ := run_runTasks_of_evidence hask hworkers
            rw [h] at hbatch hlogs
            obtain rfl : r = _ := hbatch
            exact .done hplans hask hworkers hlogs

/-! ### Files that cannot be looked for -/

/-- It cannot be told whether anything is at the path: the path is too long, or a directory on the
    way may not be searched. -/
def Disk.IsUnclear (d : Disk) (here p : Path) : Prop :=
  ∃ f, d.look here p = .error f ∧ f.isAbsence = false

/-- A pass that looks for a file comes to a path of which it cannot be told what is there. -/
def Settings.Stumbles (s : Settings) (d : Disk) (here : Path) (file : Text) : Prop :=
  ∃ before p after, pathsOf [s.root, here] file = before ++ p :: after ∧
    (∀ q ∈ before, d.isFile? here q = .ok false) ∧ d.IsUnclear here p

theorem Disk.isFile?_eq_error_iff :
    (∃ f, d.isFile? here p = .error f) ↔ d.IsUnclear here p := by
  rw [isFile?, IsUnclear]
  cases hlook : d.look here p with
  | ok kind =>
    refine iff_of_false not_exists_ok_eq_error ?_
    rintro ⟨f, h, -⟩
    cases h
  | error e =>
    dsimp only
    split
    · next habsence =>
      refine iff_of_false not_exists_ok_eq_error ?_
      rintro ⟨f, h, hf⟩
      rw [← Except.error.inj h, habsence] at hf
      cases hf
    · next hunclear => exact iff_of_true ⟨_, rfl⟩ ⟨e, rfl, Bool.eq_false_iff.2 hunclear⟩

theorem Disk.firstFile?_eq_error_iff {ps : List Path} : (∃ f, d.firstFile? here ps = .error f) ↔
    ∃ before p after, ps = before ++ p :: after ∧
      (∀ q ∈ before, d.isFile? here q = .ok false) ∧ d.IsUnclear here p := by
  induction ps with
  | nil =>
    constructor
    · rintro ⟨f, h⟩
      cases h
    · rintro ⟨before, p, after, h, -⟩
      cases before <;> cases h
  | cons p ps ih =>
    rw [firstFile?]
    constructor
    · intro h
      cases hfile : d.isFile? here p with
      | error f =>
        exact ⟨[], p, ps, rfl, List.forall_mem_nil _, isFile?_eq_error_iff.1 ⟨f, hfile⟩⟩
      | ok isFile =>
        rw [hfile] at h
        cases isFile with
        | true =>
          obtain ⟨f, h⟩ := h
          cases h
        | false =>
          obtain ⟨before, q, after, rfl, hbefore, hlook⟩ := ih.1 h
          refine ⟨p :: before, q, after, rfl, ?_, hlook⟩
          intro r hr
          rcases List.mem_cons.1 hr with rfl | hr
          · exact hfile
          · exact hbefore r hr
    · rintro ⟨before, q, after, heq, hbefore, hlook⟩
      cases before with
      | nil =>
        obtain ⟨rfl, rfl⟩ := List.cons.inj heq
        obtain ⟨f, hf⟩ := isFile?_eq_error_iff.2 hlook
        exact ⟨f, by rw [hf]⟩
      | cons r before =>
        obtain ⟨rfl, rfl⟩ := List.cons.inj heq
        rw [hbefore p List.mem_cons_self]
        exact ih.2 ⟨before, q, after, rfl, fun r hr => hbefore r (List.mem_cons_of_mem _ hr), hlook⟩

theorem Settings.plan?_eq_error_iff {g : Text × List Diagnostic} :
    (∃ f, s.plan? d here g = .error f) ↔ s.Stumbles d here g.1 := by
  rw [Stumbles, ← Disk.firstFile?_eq_error_iff, plan?]
  cases d.firstFile? here (pathsOf [s.root, here] g.1) with
  | error f => exact iff_of_true ⟨f, rfl⟩ ⟨f, rfl⟩
  | ok found => exact iff_of_false not_exists_ok_eq_error not_exists_ok_eq_error

/-- A pass cannot look for all its files exactly if it stumbles over one of them. -/
theorem planFiles_eq_error_iff : (∃ f, (m.run (planFiles s (filesOf ds))).1 = .error f) ↔
    ∃ e ∈ ds, s.Stumbles m.disk m.workingDirectory e.file := by
  rw [(run_planFiles m s (filesOf ds)).1, exists_mapM_eq_error_iff]
  constructor
  · rintro ⟨g, hg, herror⟩
    obtain ⟨⟨e, he, hfile⟩, -⟩ := mem_filesOf_iff.1 hg
    exact ⟨e, he, hfile ▸ Settings.plan?_eq_error_iff.1 herror⟩
  · rintro ⟨e, he, hstumbles⟩
    exact ⟨_, filter_mem_filesOf ⟨e, he, rfl⟩, Settings.plan?_eq_error_iff.2 hstumbles⟩

theorem fixPass_eq_source_iff : (∃ f, (m.run (fixPass s ds)).1 = .error (.source f)) ↔
    ∃ e ∈ ds, s.Stumbles m.disk m.workingDirectory e.file := by
  rw [← planFiles_eq_error_iff]
  cases hrun : m.run (fixPass s ds) with
  | mk r m' =>
    cases passed_fixPass hrun with
    | @faulty f _ hplans => exact iff_of_true ⟨f, rfl⟩ ⟨f, by rw [hplans]⟩
    | refused hplans | blank hplans | done hplans =>
      rw [hplans]
      exact iff_of_false (fun ⟨_, h⟩ => nomatch h) (fun ⟨_, h⟩ => nomatch h)

/-! ### Tools -/

theorem sameTools_tasks (m : Machine) (s : Settings) (evidence : List Evidence)
    (ts : List FixTask) : SameTools m (m.run (ts.mapM (·.run s evidence))).2 := by
  induction ts generalizing m with
  | nil => exact .refl m
  | cons t ts ih =>
    have hfirst := (Script.worksOn_run s evidence t).sameTools (m := m)
    rw [Script.perform_run] at hfirst
    rw [List.mapM_cons]
    exact hfirst.trans (ih _)

theorem consults_planFiles (m : Machine) (s : Settings) (ds : List Diagnostic) :
    Consults m [] (m.run (planFiles s (filesOf ds))).2 :=
  (run_planFiles m s (filesOf ds)).2.consults

/-- Until its tasks are run a pass only consults the linter. -/
theorem consults_ask (hplans : m.run (planFiles s (filesOf ds)) = (.ok plans, m')) :
    ∃ cs : List ToolCall, cs.length ≤ 1 ∧ (∀ c ∈ cs, s.IsLinterCall c) ∧
      Consults m cs (m'.run (askLinter s (askedPaths plans))).2 := by
  have hplanned := consults_planFiles m s ds
  obtain ⟨cs, hone, hlinter, hasked⟩ := consults_askLinter s m' (askedPaths plans)
  rw [hplans] at hplanned
  exact ⟨cs, hone, hlinter, hplanned.trans hasked⟩

/-- A pass starts the linter at most once, and starts nothing else. -/
theorem started_fixPass (m : Machine) (s : Settings) (ds : List Diagnostic) :
    ∃ cs : List ToolCall, cs.length ≤ 1 ∧ (∀ c ∈ cs, s.IsLinterCall c) ∧
      Started m cs (m.run (fixPass s ds)).2 := by
  cases hrun : m.run (fixPass s ds) with
  | mk r m' =>
    cases passed_fixPass hrun with
    | faulty hplans =>
      have hplanned := (consults_planFiles m s ds).started
      rw [hplans] at hplanned
      exact ⟨[], Nat.zero_le 1, nofun, hplanned⟩
    | refused hplans hask | blank hplans hask =>
      obtain ⟨cs, hone, hlinter, hasked⟩ := consults_ask hplans
      rw [hask] at hasked
      exact ⟨cs, hone, hlinter, hasked.started⟩
    | @done _ _ evidence asked _ hplans hask hworkers hlogs =>
      obtain ⟨cs, hone, hlinter, hasked⟩ := consults_ask hplans
      rw [hask] at hasked
      have htasks := (sameTools_tasks asked s evidence _).trans hlogs.sameTools
      exact ⟨cs, hone, hlinter, SameTools.trans hasked.started htasks⟩

/-- A pass that comes to no end changes nothing. -/
theorem consults_of_fixPass_error {e : PassError} (h : m.run (fixPass s ds) = (.error e, m')) :
    ∃ cs, Consults m cs m' := by
  cases passed_fixPass h with
  | faulty hplans =>
    have hplanned := consults_planFiles m s ds
    rw [hplans] at hplanned
    exact ⟨[], hplanned⟩
  | refused hplans hask | blank hplans hask =>
    obtain ⟨cs, -, -, hasked⟩ := consults_ask hplans
    rw [hask] at hasked
    exact ⟨cs, hasked⟩

end ImportRepair
