import ImportRepair.Diagnostic.Reader
import ImportRepair.Fix.Pass
import ImportRepair.Proofs.Failure
import ImportRepair.Proofs.Grouping
import ImportRepair.Proofs.Host.Machine
import Mathlib.Data.List.Nodup

/-!
# The tasks of a pass

A pass groups its diagnostics by the text that names their file, looks for each
of these files and makes a task of each that it finds and may touch.  So tasks
have distinct texts.  Two texts may still name one file; then the pass has two
tasks for it, and the second one works with lines that the first one has moved.
-/

namespace ImportRepair

open Machine

variable {s : Settings} {ds : List Diagnostic} {d : Disk} {here p q : Path} {file : Text}
variable {plans : List (FixResult ⊕ FixTask)} {m m' : Machine} {f : Text × List Diagnostic}
variable {t u : FixTask}

/-! ### Looking for a file -/

def Disk.isFile? (d : Disk) (here p : Path) : Except PathFault Bool :=
  match d.look here p with
  | .ok kind => .ok (kind == .file)
  | .error f => if f.isAbsence then .ok false else .error ⟨p, f⟩

def Disk.firstFile? (d : Disk) (here : Path) : List Path → Except PathFault (Option Path)
  | [] => .ok none
  | p :: ps =>
    match d.isFile? here p with
    | .error f => .error f
    | .ok true => .ok (some p)
    | .ok false => d.firstFile? here ps

/-- The paths that a text may stand for. -/
def pathsOf (directories : List Path) (file : Text) : List Path :=
  let p := Path.ofText file
  if p.isAbsolute then [p] else directories.map (·.join p)

theorem looks_isFile (p : Path) : Looks (Host.isFile p) fun d here => d.isFile? here p := by
  refine ((looks_look p).bind (w := fun r _ _ => match r with
    | .ok kind => .ok (kind == .file)
    | .error f => if f.isAbsence then .ok false else .error ⟨p, f⟩) fun r => ?_).congr
    fun d here => rfl
  cases r with
  | ok kind => exact looks_pure _
  | error f => exact looks_pure _

theorem looks_findBelow (p : Path) (directories : List Path) :
    Looks (findBelow p directories) fun d here =>
      d.firstFile? here (directories.map (·.join p)) := by
  induction directories with
  | nil => exact looks_pure _
  | cons a directories ih =>
    refine ((looks_isFile (a.join p)).bind (w := fun r d here => match r with
      | .error f => .error f
      | .ok true => .ok (some (a.join p))
      | .ok false => d.firstFile? here (directories.map (·.join p))) fun r => ?_).congr
      fun d here => rfl
    cases r with
    | error f => exact looks_pure _
    | ok isFile =>
      cases isFile with
      | true => exact looks_pure _
      | false => exact ih

theorem looks_findSource (directories : List Path) (file : Text) :
    Looks (findSource directories file) fun d here =>
      d.firstFile? here (pathsOf directories file) := by
  unfold findSource pathsOf
  dsimp only
  split
  · refine ((looks_isFile (Path.ofText file)).bind fun r => looks_pure _).congr fun d here => ?_
    rw [Disk.firstFile?]
    cases d.isFile? here (Path.ofText file) with
    | error f => rfl
    | ok isFile => cases isFile <;> rfl
  · refine ((looks_findBelow (Path.ofText file) directories).bind (w := fun r _ _ => r)
      fun r => ?_).congr fun d here => rfl
    cases r with
    | error f => exact looks_pure _
    | ok found =>
      cases found with
      | none => exact (looks_log _).bind fun _ => looks_pure _
      | some p => exact looks_pure _

/-! ### Planning -/

/-- What a pass is to do with a file. -/
def Settings.planOf (s : Settings) (here : Path) (f : Text × List Diagnostic) :
    Option Path → FixResult ⊕ FixTask
  | none => .inl { file := f.1, message := "File not found" }
  | some p =>
    if s.excludes? here p then .inl { file := f.1, message := "Excluded" } else .inr ⟨f.1, f.2, p⟩

def Settings.plan? (s : Settings) (d : Disk) (here : Path) (f : Text × List Diagnostic) :
    Except PathFault (FixResult ⊕ FixTask) :=
  (d.firstFile? here (pathsOf [s.root, here] f.1)).map (s.planOf here f)

theorem looks_planFile (s : Settings) (file : Text) (ds : List Diagnostic) :
    Looks (planFile s file ds) fun d here => s.plan? d here (file, ds) := by
  refine looks_workingDirectory.bind (w := fun here d here' =>
    (d.firstFile? here' (pathsOf [s.root, here] file)).map (s.planOf here (file, ds)))
    fun here => ?_
  refine ((looks_findSource [s.root, here] file).bind (w := fun r _ _ =>
    r.map (s.planOf here (file, ds))) fun r => ?_).congr fun d here => rfl
  cases r with
  | error f => exact looks_pure _
  | ok found =>
    cases found with
    | none => exact looks_pure _
    | some p =>
      dsimp only [Except.map, Settings.planOf]
      split
      · exact (looks_log _).bind fun _ => looks_pure _
      · exact looks_pure _

theorem looks_planFiles (s : Settings) (files : List (Text × List Diagnostic)) :
    Looks (planFiles s files) fun d here => files.mapM (s.plan? d here) := by
  induction files with
  | nil => exact looks_pure _
  | cons f files ih =>
    unfold planFiles at ih ⊢
    rw [List.mapM_cons, ExceptT.run_bind]
    refine ((looks_planFile s f.1 f.2).bind (w := fun r d here => match r with
      | .error e => .error e
      | .ok plan => (files.mapM (s.plan? d here)).map (plan :: ·)) fun r => ?_).congr
      fun d here => ?_
    · cases r with
      | error e => exact looks_pure _
      | ok plan =>
        dsimp only
        rw [ExceptT.run_bind]
        refine (ih.bind (w := fun r _ _ => r.map (plan :: ·)) fun r => ?_).congr fun d here => rfl
        cases r with
        | error e => exact looks_pure _
        | ok plans => exact looks_pure _
    · cases hplan : s.plan? d here f with
      | error e => exact (mapM_cons_error hplan).symm
      | ok plan => exact (mapM_cons_ok hplan).symm

/-! ### Files of diagnostics -/

theorem mem_filesOf_iff : f ∈ filesOf ds ↔
    (∃ e ∈ ds, e.file = f.1) ∧ f.2 = ds.filter fun e => e.file == f.1 := by
  rw [filesOf, (List.mergeSort_perm _ _).mem_iff, mem_groupBy_iff]
  constructor
  · rintro ⟨hne, heq⟩
    obtain ⟨e, he⟩ := List.exists_mem_of_ne_nil _ hne
    rw [heq, List.mem_filter] at he
    exact ⟨⟨e, he.1, by simpa using he.2⟩, heq⟩
  · rintro ⟨⟨e, he, hfile⟩, heq⟩
    refine ⟨?_, heq⟩
    rw [heq]
    exact List.ne_nil_of_mem (List.mem_filter.2 ⟨he, by simpa using hfile⟩)

theorem filter_mem_filesOf (h : ∃ e ∈ ds, e.file = file) :
    (file, ds.filter fun e => e.file == file) ∈ filesOf ds := mem_filesOf_iff.2 ⟨h, rfl⟩

theorem nodup_filesOf (ds : List Diagnostic) : ((filesOf ds).map (·.1)).Nodup := by
  rw [filesOf, ((List.mergeSort_perm _ _).map _).nodup_iff, map_fst_groupBy]
  exact nodup_eraseDups _

/-! ### Tasks -/

def tasksOf (plans : List (FixResult ⊕ FixTask)) : List FixTask := plans.filterMap Sum.getRight?

def settledOf (plans : List (FixResult ⊕ FixTask)) : List FixResult :=
  plans.filterMap Sum.getLeft?

/-- The files about which a pass asks the linter. -/
def askedPaths (plans : List (FixResult ⊕ FixTask)) : List Path :=
  ((tasksOf plans).filter fun t => !lackPlaces t.diagnostics).map (·.path)

/-- A pass that looks for a file finds it at the path and may touch it there. -/
def Settings.Owns (s : Settings) (d : Disk) (here : Path) (file : Text) (p : Path) : Prop :=
  d.firstFile? here (pathsOf [s.root, here] file) = .ok (some p) ∧ s.excludes? here p = false

theorem mem_tasksOf_iff : t ∈ tasksOf plans ↔ .inr t ∈ plans := by
  rw [tasksOf, List.mem_filterMap]
  constructor
  · rintro ⟨plan, hplan, ht⟩
    rwa [← Sum.getRight?_eq_some_iff.1 ht]
  · exact fun h => ⟨_, h, rfl⟩

theorem plan?_eq_task_iff : s.plan? d here f = .ok (.inr t) ↔
    s.Owns d here f.1 t.path ∧ t.file = f.1 ∧ t.diagnostics = f.2 := by
  rw [Settings.plan?, Settings.Owns]
  cases d.firstFile? here (pathsOf [s.root, here] f.1) with
  | error e => exact ⟨fun h => (nomatch h), fun h => (nomatch h.1.1)⟩
  | ok found =>
    cases found with
    | none => exact ⟨fun h => (nomatch h), fun h => (nomatch h.1.1)⟩
    | some p =>
      obtain ⟨file, diagnostics, path⟩ := t
      simp only [Except.map, Settings.planOf, Except.ok.injEq, Option.some.injEq]
      constructor
      · intro h
        split at h
        · cases h
        · next hallowed =>
          cases h
          exact ⟨⟨rfl, by simpa using hallowed⟩, rfl, rfl⟩
      · rintro ⟨⟨rfl, hallowed⟩, rfl, rfl⟩
        rw [if_neg (by simpa using hallowed)]

/-- The file that a plan is about. -/
def planned : FixResult ⊕ FixTask → Text := Sum.elim (·.file) (·.file)

theorem planned_of_plan? {plan : FixResult ⊕ FixTask} (h : s.plan? d here f = .ok plan) :
    planned plan = f.1 := by
  rw [Settings.plan?] at h
  cases hfound : d.firstFile? here (pathsOf [s.root, here] f.1) with
  | error e =>
    rw [hfound] at h
    cases h
  | ok found =>
    rw [hfound] at h
    rw [← Except.ok.inj h]
    cases found with
    | none => rfl
    | some p =>
      dsimp only [Settings.planOf]
      split <;> rfl

theorem map_planned {files : List (Text × List Diagnostic)}
    (h : files.mapM (s.plan? d here) = .ok plans) : plans.map planned = files.map (·.1) := by
  induction mapM_eq_ok_iff.1 h with
  | nil => rfl
  | cons hplan hrest ih =>
    rw [List.map_cons, List.map_cons, planned_of_plan? hplan, ih (mapM_eq_ok_iff.2 hrest)]

theorem mem_tasksOf_filesOf_iff (h : (filesOf ds).mapM (s.plan? d here) = .ok plans) :
    t ∈ tasksOf plans ↔ (∃ e ∈ ds, e.file = t.file) ∧
      t.diagnostics = ds.filter (fun e => e.file == t.file) ∧ s.Owns d here t.file t.path := by
  rw [mem_tasksOf_iff, mem_of_mapM_eq_ok_iff h]
  constructor
  · rintro ⟨f, hf, hplan⟩
    obtain ⟨howns, hfile, hds⟩ := plan?_eq_task_iff.1 hplan
    obtain ⟨hex, heq⟩ := mem_filesOf_iff.1 hf
    rw [hfile, hds]
    exact ⟨hex, heq, howns⟩
  · rintro ⟨hex, hds, howns⟩
    exact ⟨_, filter_mem_filesOf hex, plan?_eq_task_iff.2 ⟨howns, rfl, hds⟩⟩

theorem nodup_planned (h : (filesOf ds).mapM (s.plan? d here) = .ok plans) :
    (plans.map planned).Nodup := by
  rw [map_planned h]
  exact nodup_filesOf ds

theorem tasksOf_sublist (plans : List (FixResult ⊕ FixTask)) :
    ((tasksOf plans).map (·.file)).Sublist (plans.map planned) := by
  induction plans with
  | nil => exact .slnil
  | cons plan plans ih =>
    cases plan with
    | inl r => exact ih.cons _
    | inr t => exact ih.cons_cons _

theorem nodup_tasksOf (h : (filesOf ds).mapM (s.plan? d here) = .ok plans) :
    ((tasksOf plans).map (·.file)).Nodup :=
  (nodup_planned h).sublist (tasksOf_sublist plans)

/-! ### One task for each file -/

theorem run_planFiles (m : Machine) (s : Settings) (files : List (Text × List Diagnostic)) :
    (m.run (planFiles s files)).1 = files.mapM (s.plan? m.disk m.workingDirectory) ∧
      OnlyLogs m (m.run (planFiles s files)).2 := looks_planFiles s files m

theorem eq_of_mem_tasksOf (h : (filesOf ds).mapM (s.plan? d here) = .ok plans)
    (ht : t ∈ tasksOf plans) (hu : u ∈ tasksOf plans) (hfile : t.file = u.file) : t = u := by
  have hinj := List.inj_on_of_nodup_map (nodup_tasksOf h)
  exact hinj ht hu hfile

theorem nodup_resolve_iff (h : (filesOf ds).mapM (s.plan? d here) = .ok plans) :
    ((tasksOf plans).map fun t => t.path.resolve here).Nodup ↔
      ∀ e ∈ ds, ∀ e' ∈ ds, ∀ p p', s.Owns d here e.file p → s.Owns d here e'.file p' →
        p.resolve here = p'.resolve here → e.file = e'.file := by
  rw [List.nodup_map_iff_inj_on (List.Nodup.of_map _ (nodup_tasksOf h))]
  constructor
  · intro hinj e he e' he' p p' howns howns' hsame
    have ht := (mem_tasksOf_filesOf_iff h
      (t := ⟨e.file, ds.filter fun a => a.file == e.file, p⟩)).2 ⟨⟨e, he, rfl⟩, rfl, howns⟩
    have ht' := (mem_tasksOf_filesOf_iff h
      (t := ⟨e'.file, ds.filter fun a => a.file == e'.file, p'⟩)).2 ⟨⟨e', he', rfl⟩, rfl, howns'⟩
    exact congrArg FixTask.file (hinj _ ht _ ht' hsame)
  · intro hfiles t ht u hu hsame
    obtain ⟨⟨e, he, hte⟩, -, howns⟩ := (mem_tasksOf_filesOf_iff h).1 ht
    obtain ⟨⟨e', he', hue⟩, -, howns'⟩ := (mem_tasksOf_filesOf_iff h).1 hu
    rw [← hte] at howns
    rw [← hue] at howns'
    have hfile := hfiles e he e' he' t.path u.path howns howns' hsame
    rw [hte, hue] at hfile
    exact eq_of_mem_tasksOf h ht hu hfile

/-- **Two tasks work on one file exactly if two texts name it.** -/
theorem tasks_own_files_iff (h : m.run (planFiles s (filesOf ds)) = (.ok plans, m')) :
    ((tasksOf plans).map (·.file)).Nodup ∧
    (((tasksOf plans).map fun t => t.path.resolve m.workingDirectory).Nodup ↔
      ∀ e ∈ ds, ∀ e' ∈ ds, ∀ p p', s.Owns m.disk m.workingDirectory e.file p →
        s.Owns m.disk m.workingDirectory e'.file p' →
        p.resolve m.workingDirectory = p'.resolve m.workingDirectory → e.file = e'.file) := by
  have hplans : (filesOf ds).mapM (s.plan? m.disk m.workingDirectory) = .ok plans := by
    rw [← (run_planFiles m s (filesOf ds)).1, h]
  exact ⟨nodup_tasksOf hplans, nodup_resolve_iff hplans⟩

/-! ### A project -/

def sampleRoot : Path := ⟨.slash, ["p".toList]⟩

def sampleSettings : Settings := { root := sampleRoot, targets := [sampleRoot] }

/-- A machine with the files of a project and what its tools will say. -/
def sampleProject (files : List (List String × String)) (compiler linter : List ToolResult) :
    Machine where
  disk := files.foldl (fun d f =>
    d.putFile (sampleRoot.names ++ f.1.map String.toList) (Utf8.encode f.2.toList)) {}
  workingDirectory := sampleRoot
  clock := { year := 2024, month := 1, day := 2 }
  compiler := compiler
  linter := linter

/-- A source text that uses the second of its imports only. -/
def sampleText : String := "import { a } from 'x';\nimport { b } from 'y';\nuse(b);\n"

/-- The complaint that all imports of the first line are unused. -/
def wholeUnused (file : String) : Diagnostic :=
  { file := file.toList, line := 1, column := 1, code := "TS6192".toList
    message := "All imports in import declaration are unused.".toList, category := .importExport }

/-- The task that follows from this complaint. -/
def wholeTask (file : String) : FixTask :=
  ⟨file.toList, [wholeUnused file], sampleRoot.join (Path.ofText file.toList)⟩

theorem tasks_own_files_sample :
    let m := sampleProject [(["src", "a.ts"], sampleText), (["src", "b.ts"], sampleText)] [] []
    let ds := [wholeUnused "src/a.ts", wholeUnused "src/b.ts"]
    let plans := [.inr (wholeTask "src/a.ts"), .inr (wholeTask "src/b.ts")]
    m.run (planFiles sampleSettings (filesOf ds)) = (.ok plans, m) ∧
      ((tasksOf plans).map (·.file)).Nodup ∧
      ∀ e ∈ ds, ∀ e' ∈ ds, ∀ p p', sampleSettings.Owns m.disk m.workingDirectory e.file p →
        sampleSettings.Owns m.disk m.workingDirectory e'.file p' →
        p.resolve m.workingDirectory = p'.resolve m.workingDirectory → e.file = e'.file := by
  intro m ds plans
  have hgroups : groupBy Diagnostic.file ds = [("src/a.ts".toList, [wholeUnused "src/a.ts"]),
      ("src/b.ts".toList, [wholeUnused "src/b.ts"])] := by decide +kernel
  have hfiles : filesOf ds = groupBy Diagnostic.file ds := by
    rw [filesOf, hgroups]
    exact List.mergeSort_of_pairwise (by decide +kernel)
  have hrun : m.run (planFiles sampleSettings (filesOf ds)) = (.ok plans, m) := by
    rw [hfiles]
    decide +kernel
  obtain ⟨hfile, howns⟩ := tasks_own_files_iff hrun
  exact ⟨hrun, hfile, howns.1 (by decide +kernel)⟩

/-- The compiler names one file in two ways.  Both tasks delete the first line, and the second
    task meets there the import that is used. -/
theorem tasks_own_file_twice :
    let m := sampleProject [(["src", "m.ts"], sampleText)] [] []
    let ds := diagnosticsOf sampleRoot.text true
      ("src/./m.ts(1,1): error TS6192: All imports in import declaration are unused.\n" ++
        "src/m.ts(1,1): error TS6192: All imports in import declaration are unused.\n").toList
    let plans := [.inr (wholeTask "src/./m.ts"), .inr (wholeTask "src/m.ts")]
    (m.run (planFiles sampleSettings (filesOf ds))).1 = .ok plans ∧
      ¬ ((tasksOf plans).map fun t => t.path.resolve m.workingDirectory).Nodup ∧
      (m.run (fixPass sampleSettings ds)).2.content? (wholeTask "src/m.ts").path =
        .ok (Utf8.encode "use(b);\n".toList) := by
  intro m ds plans
  have hread : Layout.parenthesised.diagnostics sampleRoot.text true
      (Text.lines (Text.unifyLineEnds (dropColours 0
        ("src/./m.ts(1,1): error TS6192: All imports in import declaration are unused.\n" ++
          "src/m.ts(1,1): error TS6192: All imports in import declaration are unused.\n").toList))) =
      .ok [wholeUnused "src/./m.ts", wholeUnused "src/m.ts"] := by decide +kernel
  have hds : ds = [wholeUnused "src/./m.ts", wholeUnused "src/m.ts"] := by
    change diagnosticsOf _ _ _ = _
    rw [diagnosticsOf, readOutput, if_neg (by decide +kernel), Tier.ladder, readTiers]
    simp only [Tier.read, hread]
    exact List.mergeSort_of_pairwise (by decide +kernel)
  have hgroups : groupBy Diagnostic.file ds = [("src/./m.ts".toList, [wholeUnused "src/./m.ts"]),
      ("src/m.ts".toList, [wholeUnused "src/m.ts"])] := by
    rw [hds]
    decide +kernel
  have hfiles : filesOf ds = [("src/./m.ts".toList, [wholeUnused "src/./m.ts"]),
      ("src/m.ts".toList, [wholeUnused "src/m.ts"])] := by
    rw [filesOf, hgroups]
    exact List.mergeSort_of_pairwise (by decide +kernel)
  simp only [fixPass, hfiles]
  exact ⟨by decide +kernel, by decide +kernel, by decide +kernel⟩

end ImportRepair
