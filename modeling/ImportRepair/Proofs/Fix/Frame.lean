import ImportRepair.Proofs.Fix.Change
import ImportRepair.Proofs.Fix.Isolation

/-!
# What a pass leaves alone

A pass writes to the files of its tasks and to nothing else, whoever has the
next turn and whether or not two tasks share a file.  In a dry run it writes
nothing at all.  What no task writes to is still there afterwards, and so is a
file whose result says that it was not fixed, unless the write of the fix was
broken off.
-/

namespace ImportRepair

open Machine

variable {α β : Type} {s : Settings} {evidence : List Evidence} {m m' : Machine} {t : FixTask}
variable {ts : List FixTask} {ds : List Diagnostic} {n workers : Nat} {p : Path} {l : Location}
variable {octets : List UInt8} {r : FixResult} {file : Text}

/-! ### Requests that a script makes -/

namespace Script

variable {C : Request → Prop} {x : Script α} {f : α → Script β}

/-- All requests of the script are of one kind. -/
def Asks (C : Request → Prop) : Script α → Prop
  | done _ => True
  | ask q next => C q ∧ ∀ r, Asks C (next r)

theorem WorksOn.asks {P : α → Prop} (h : x.WorksOn p P) : x.Asks (Request.Concerns p) := by
  induction x with
  | done a => exact trivial
  | ask q next ih => exact ⟨h.1, fun r => ih r (h.2 r)⟩

theorem Asks.bind (hx : x.Asks C) (hf : ∀ a, (f a).Asks C) : (x >>= f).Asks C := by
  induction x with
  | done a => exact hf a
  | ask q next ih => exact ⟨hx.1, fun r => ih r (hx.2 r)⟩

end Script

/-- The request writes nothing. -/
def Request.IsQuiet : Request → Prop
  | write _ _ => False
  | _ => True

theorem Request.IsQuiet.disk_eq {q : Request} (hq : q.IsQuiet) (m : Machine) :
    (m.run q.perform).2.disk = m.disk := by
  cases q with
  | write => exact hq.elim
  | start c => exact (consults_start m c).disk.symm
  | _ => rfl

namespace Script

theorem quiet_logAll (records : List LogRecord) :
    (Host.logAll records : Script Unit).Asks Request.IsQuiet := by
  induction records with
  | nil => exact trivial
  | cons r records ih => exact ⟨trivial, fun _ => ih⟩

theorem quiet_loadSource (p : Path) : (loadSource p : Script _).Asks Request.IsQuiet := by
  have hread : (Host.read p : Script _).Asks Request.IsQuiet := ⟨trivial, fun _ => trivial⟩
  apply hread.bind
  intro r
  cases r with
  | error f => exact trivial
  | ok octets =>
    dsimp only
    cases Utf8.decode octets <;> exact trivial

theorem quiet_apply (method : FixMethod) (file : Text) (p : Path) :
    (method.apply true file p : Script _).Asks Request.IsQuiet := by
  apply (quiet_loadSource p).bind
  intro r
  cases r with
  | error e => exact trivial
  | ok before =>
    apply (quiet_logAll _).bind
    intro _
    cases method.obstacle with
    | some e => exact trivial
    | none =>
      dsimp only
      split
      · exact (quiet_logAll _).bind fun _ => trivial
      · exact trivial

theorem quiet_settle (source : LogSource) (file : Text) (p : Path)
    (r : Except SourceError FixResult) :
    (settle source file p r : Script _).Asks Request.IsQuiet := by
  cases r with
  | ok result => exact trivial
  | error e =>
    unfold settle
    dsimp only
    split
    · exact ⟨trivial, fun _ => trivial⟩
    · exact trivial

theorem quiet_fixSource (hdry : s.dryRun = true) (file : Text) (ds : List Diagnostic) (p : Path)
    (evidence : List Evidence) :
    (fixSource s file ds p evidence : Script _).Asks Request.IsQuiet := by
  have hmethod (source : LogSource) (method : FixMethod) :
      (method.apply true file p >>= settle source file p : Script _).Asks Request.IsQuiet :=
    (quiet_apply method file p).bind (quiet_settle source file p)
  unfold fixSource fixWithoutEvidence
  rw [hdry]
  split
  · split
    · exact ⟨trivial, fun _ => hmethod _ _⟩
    · exact trivial
  · exact hmethod _ _

/-- **In a dry run a task writes nothing.** -/
theorem quiet_run (hdry : s.dryRun = true) (evidence : List Evidence) (t : FixTask) :
    (t.run s evidence : Script FixResult).Asks Request.IsQuiet := by
  refine ⟨trivial, fun here => ?_⟩
  apply (quiet_fixSource hdry t.file t.diagnostics t.path _).bind
  intro r
  cases r with
  | ok result => exact trivial
  | error e => exact ⟨trivial, fun _ => trivial⟩

end Script

/-! ### What all requests keep, all schedules keep -/

namespace Pool

variable {C : FixTask → Request → Prop} {I : Machine → Prop} {w w' : Pool}

/-- The machine of the pool has a property, and what is left to do keeps to its requests. -/
structure Keeps (s : Settings) (evidence : List Evidence) (ts : List FixTask)
    (C : FixTask → Request → Prop) (I : Machine → Prop) (w : Pool) : Prop where
  machine : I w.machine
  jobs : ∀ j ∈ w.jobs, j.1 ∈ ts ∧ (j.2.rest s evidence j.1).Asks (C j.1)

theorem Keeps.step (h : Keeps s evidence ts C I w)
    (hkeep : ∀ t ∈ ts, ∀ q, C t q → ∀ m, I m → I (m.run q.perform).2)
    (hstep : Step s evidence workers w w') : Keeps s evidence ts C I w' := by
  obtain ⟨hmachine, hjobs⟩ := h
  cases hstep with
  | begin m t before after hfree =>
    obtain ⟨hjob, hothers⟩ := forall_mem_jobs_iff.1 hjobs
    exact ⟨hmachine, forall_mem_jobs_iff.2 ⟨hjob, hothers⟩⟩
  | turn m t q next before after =>
    obtain ⟨⟨ht, hq, hnext⟩, hothers⟩ := forall_mem_jobs_iff.1 hjobs
    exact ⟨hkeep t ht q hq m hmachine, forall_mem_jobs_iff.2 ⟨⟨ht, hnext _⟩, hothers⟩⟩
  | finish m t r before after =>
    obtain ⟨hjob, hothers⟩ := forall_mem_jobs_iff.1 hjobs
    exact ⟨hmachine, forall_mem_jobs_iff.2 ⟨hjob, hothers⟩⟩

theorem keeps_of_reaches (hasks : ∀ t ∈ ts, (t.run s evidence : Script FixResult).Asks (C t))
    (hkeep : ∀ t ∈ ts, ∀ q, C t q → ∀ m, I m → I (m.run q.perform).2) (hm : I m)
    (hreaches : Reaches s evidence workers (start m ts) w) : Keeps s evidence ts C I w := by
  induction hreaches with
  | refl =>
    refine ⟨hm, ?_⟩
    rintro j hj
    obtain ⟨t, ht, rfl⟩ := List.mem_map.1 hj
    exact ⟨ht, hasks t ht⟩
  | tail _ hstep ih => exact ih.step hkeep hstep

end Pool

/-! ### Machines that differ in some files -/

/-- The second machine differs from the first one, as to files, in what the files of the tasks
    hold. -/
structure Confined (m : Machine) (ts : List FixTask) (m' : Machine) : Prop where
  here : m.workingDirectory = m'.workingDirectory
  shape : m.disk.SameShape m'.disk
  elsewhere : ∀ l, (∀ t ∈ ts, m.placeOf t.path ≠ l) → m.disk.at? l = m'.disk.at? l

namespace Confined

theorem look_eq (h : Confined m ts m') (p : Path) :
    m'.disk.look m'.workingDirectory p = m.disk.look m.workingDirectory p := by
  rw [← h.here, ← h.shape.look]

theorem content?_eq (h : Confined m ts m')
    (hfile : m.disk.look m.workingDirectory p = .ok .file)
    (hp : ∀ t ∈ ts, m.placeOf t.path ≠ m.placeOf p) : m'.content? p = m.content? p := by
  obtain ⟨octets, hcontent⟩ := content?_of_look hfile
  obtain ⟨hlocate, hat⟩ := exists_at?_of_content? hcontent
  rw [h.elsewhere _ hp] at hat
  rw [h.shape.locate, h.here] at hlocate
  rw [hcontent]
  exact Disk.content_of_at? hlocate hat

/-- A place that has changed had a file, and it is the place of a task. -/
theorem exists_task (h : Confined m ts m')
    (hts : ∀ t ∈ ts, m.disk.look m.workingDirectory t.path = .ok .file)
    (hl : m'.disk.at? l ≠ m.disk.at? l) : ∃ t ∈ ts, m.placeOf t.path = l ∧
      ∃ old new, m.disk.at? l = some (.file old) ∧ m'.disk.at? l = some (.file new) := by
  by_contra hnone
  apply hl
  refine (h.elsewhere l ?_).symm
  rintro t ht rfl
  obtain ⟨old, hold⟩ := content?_of_look (hts t ht)
  obtain ⟨new, hnew⟩ := content?_of_look ((h.look_eq t.path).trans (hts t ht))
  have hat := (exists_at?_of_content? hnew).2
  rw [placeOf, ← h.here] at hat
  exact hnone ⟨t, ht, rfl, old, new, (exists_at?_of_content? hold).2, hat⟩

theorem perform {q : Request} (h : Confined m ts m')
    (hts : ∀ t ∈ ts, m.disk.look m.workingDirectory t.path = .ok .file) (ht : t ∈ ts)
    (hq : q.Concerns t.path) : Confined m ts (m'.run q.perform).2 := by
  obtain ⟨octets, hcontent⟩ := content?_of_look ((h.look_eq t.path).trans (hts t ht))
  obtain ⟨-, hrewrites⟩ := hq.rewrites hcontent
  refine ⟨h.here.trans hrewrites.here, h.shape.trans hrewrites.shape, ?_⟩
  intro l hl
  rw [h.elsewhere l hl]
  apply hrewrites.elsewhere
  rw [placeOf, ← h.here]
  exact (hl t ht).symm

end Confined

/-! ### Passes -/

namespace PassInTurns

variable (P : PassInTurns s ds n m)

theorem look_of_mem (ht : t ∈ tasksOf P.plans) :
    m.disk.look m.workingDirectory t.path = .ok .file := by
  obtain ⟨-, -, howns, -⟩ := (mem_tasksOf_filesOf_iff P.plans_eq).1 ht
  exact (Disk.firstFile?_eq_some howns).2

/-- **A pass writes to the files of its tasks only.** -/
theorem confined : Confined m (tasksOf P.plans) P.after := by
  have hasked : Confined m (tasksOf P.plans) P.asked :=
    ⟨P.here_asked, P.disk_asked ▸ .refl m.disk, fun l _ => congrArg (·.at? l) P.disk_asked⟩
  have hasks : ∀ t ∈ tasksOf P.plans,
      (t.run s P.evidence : Script FixResult).Asks (Request.Concerns t.path) :=
    fun t _ => (Script.worksOn_run s P.evidence t).asks
  refine (Pool.keeps_of_reaches hasks ?_ hasked P.reaches).machine
  intro t ht q hq w hw
  exact hw.perform (fun t => P.look_of_mem) ht hq

/-- **A dry pass writes nothing.** -/
theorem disk_eq_of_dryRun (hdry : s.dryRun = true) : P.after.disk = m.disk := by
  have hasks : ∀ t ∈ tasksOf P.plans,
      (t.run s P.evidence : Script FixResult).Asks Request.IsQuiet :=
    fun t _ => Script.quiet_run hdry P.evidence t
  refine (Pool.keeps_of_reaches (I := fun w => w.disk = m.disk) hasks ?_ P.disk_asked.symm
    P.reaches).machine
  intro t _ q hq w hw
  exact (hq.disk_eq w).trans hw

/-- What a task comes to alone, and what it leaves in its file. -/
theorem taskEnd_alone (hm : m.content? t.path = .ok octets) :
    ∃ m', TaskEnd s.dryRun t.file t.path P.asked
        (t.find s (evidenceFor s P.evidence m.workingDirectory t.path) (m.read? t.path))
        (Pool.alone s P.evidence P.asked t).1 m' ∧
      m'.content? t.path = (Pool.alone s P.evidence P.asked t).2 := by
  rw [P.content?_asked] at hm
  rw [P.read?_asked]
  have hend := taskEnd_run s P.evidence hm
  rw [← P.here_asked] at hend
  rw [Pool.alone, Script.outcome, Script.perform_run]
  exact ⟨_, hend, rfl⟩

end PassInTurns

/-! ### Files that may be touched -/

/-- A pass that looks for a file finds it at the path. -/
def Settings.Finds (s : Settings) (d : Disk) (here : Path) (file : Text) (p : Path) : Prop :=
  d.firstFile? here (pathsOf [s.root, here] file) = .ok (some p)

theorem finds_iff : s.Finds m.disk m.workingDirectory file p ↔
    (m.run (findSource [s.root, m.workingDirectory] file)).1 = .ok (some p) := by
  rw [Settings.Finds, (looks_findSource [s.root, m.workingDirectory] file m).1]

/-- The path is that of a file that may be touched. -/
structure Settings.Permits (s : Settings) (here p : Path) : Prop where
  extension : Text.lower p.suffix ∈ s.extensions
  test : s.includeTests = false → isTestPath p.text = false
  excluded : ∀ name ∈ s.excludes, name ∉ p.parts
  within : ∃ target ∈ s.targets, (p.resolve here).isWithin target = true

/-- The place is that of a file that is found for a diagnostic and may be touched. -/
def Settings.MayWrite (s : Settings) (m : Machine) (ds : List Diagnostic) (l : Location) : Prop :=
  ∃ e ∈ ds, ∃ p, s.Finds m.disk m.workingDirectory e.file p ∧ s.Permits m.workingDirectory p ∧
    m.placeOf p = l

/-- At the place there is a file that may be written, now with other contents. -/
def Settings.Rewrites (s : Settings) (m : Machine) (ds : List Diagnostic) (m' : Machine)
    (l : Location) : Prop :=
  s.dryRun = false ∧ s.MayWrite m ds l ∧
    ∃ old new, m.disk.at? l = some (.file old) ∧ m'.disk.at? l = some (.file new)

/-- Files whose result says that they were not fixed hold what they held, or the first part of a fix
    if the result says that the device failed in the write. -/
def Settings.Spares (s : Settings) (m : Machine) (ds : List Diagnostic) (b : Batch)
    (m' : Machine) : Prop :=
  ∀ r ∈ b.details, r.fixed = false → ∀ p, s.Finds m.disk m.workingDirectory r.file p →
    m'.content? p = m.content? p ∨ ∃ own,
      BreaksOff m p (FixTask.find s own ⟨r.file, ds.filter (·.file == r.file), p⟩ (m.read? p)) r m'

theorem Settings.Rewrites.of_consults {m₀ m₁ : Machine} {cs cs' : List ToolCall}
    (h : s.Rewrites m ds m' l) (hbefore : Consults m₀ cs m) (hafter : Consults m' cs' m₁) :
    s.Rewrites m₀ ds m₁ l := by
  unfold Settings.Rewrites Settings.MayWrite placeOf at h ⊢
  rwa [← hbefore.disk, ← hbefore.here, hafter.disk] at h

theorem Settings.Spares.of_consults {m₀ m₁ : Machine} {b : Batch} {cs cs' : List ToolCall}
    (h : s.Spares m ds b m') (hbefore : Consults m₀ cs m) (hafter : Consults m' cs' m₁) :
    s.Spares m₀ ds b m₁ := by
  intro r hr hfixed p hp
  rw [hbefore.disk, hbefore.here] at hp
  rw [hafter.content?_eq, ← hbefore.content?_eq]
  refine (h r hr hfixed p hp).imp_right ?_
  rintro ⟨own, hbreaks⟩
  rw [hbefore.read?_eq] at hbreaks
  exact ⟨own, hbreaks.congr (hbefore.limitsOf_eq p).symm (hafter.content?_eq p)⟩

theorem permits_iff {here : Path} : s.Permits here p ↔ s.excludes? here p = false := by
  simp only [Settings.excludes?, Settings.excludesNames?, Bool.or_eq_false_iff,
    Bool.not_eq_false', List.contains_iff_mem, Bool.and_eq_false_iff,
    List.any_eq_false, List.any_eq_true]
  constructor
  · rintro ⟨hextension, htest, hexcluded, target, hmem, hwithin⟩
    refine ⟨⟨⟨hextension, ?_⟩, hexcluded⟩, target, hmem, hwithin⟩
    cases hinclude : s.includeTests with
    | true => exact .inl rfl
    | false => exact .inr (htest hinclude)
  · rintro ⟨⟨⟨hextension, htest⟩, hexcluded⟩, target, hmem, hwithin⟩
    refine ⟨hextension, ?_, hexcluded, target, hmem, hwithin⟩
    intro hinclude
    rcases htest with htest | htest
    · cases hinclude.symm.trans htest
    · exact htest

namespace PassInTurns

variable {P : PassInTurns s ds n m}

/-- **What a pass has changed is a file that may be touched.** -/
theorem rewrites_of_changed (hl : P.after.disk.at? l ≠ m.disk.at? l) :
    s.Rewrites m ds P.after l := by
  obtain ⟨t, ht, hplace, hfiles⟩ := P.confined.exists_task (fun t => P.look_of_mem) hl
  obtain ⟨⟨e, he, hfile⟩, -, hfinds, hpermits⟩ := (mem_tasksOf_filesOf_iff P.plans_eq).1 ht
  refine ⟨?_, ⟨e, he, t.path, hfile ▸ hfinds, permits_iff.2 hpermits, hplace⟩, hfiles⟩
  rw [Bool.eq_false_iff]
  intro hdry
  exact hl (congrArg (·.at? l) (P.disk_eq_of_dryRun hdry))

/-- A pass that came to an end is one of a single worker. -/
theorem exists_of_run {b : Batch} (h : m.run (fixPass s ds) = (.ok b, m')) :
    ∃ P : PassInTurns s ds 1 m, P.batch = b ∧ OnlyLogs P.after m' := by
  cases passed_fixPass h with
  | @done plans found evidence asked _ hplans hask hworkers hlogs =>
    obtain ⟨w, hreaches, hdone, hmachine, hresults⟩ := Pool.exists_reaches_start s evidence asked
      (tasksOf plans) Nat.one_pos
    rw [← hmachine] at hlogs
    rw [← hresults]
    exact ⟨⟨plans, found, evidence, asked, w, _, hplans, hask, hreaches, hdone, .refl _⟩, rfl, hlogs⟩

end PassInTurns

end ImportRepair
