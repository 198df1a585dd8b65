import ImportRepair.Proofs.Host.Machine
import ImportRepair.Proofs.Host.Script

/-!
# A task and its own file

The script of a task asks for the working directory, reads and writes the file
of the task, and logs.  So what it gives and what it leaves in its file depends
on the working directory, on what the file holds and on what the host permits
there, and on nothing else; and it leaves everything else as it is.
-/

namespace ImportRepair

open Machine

variable {α β : Type} {p : Path} {m m' : Machine} {octets : List UInt8} {file : Text}

/-! ### Scripts that work on one path -/

/-- The request is about what the path leads to, or about no file at all. -/
def Request.Concerns (p : Path) : Request → Prop
  | workingDirectory | log _ => True
  | read q | write q _ => q = p
  | look _ | start _ | now | print _ => False

namespace Script

variable {P : α → Prop} {Q : β → Prop} {x : Script α} {f : α → Script β}

/-- The requests of the script concern one path, and what it gives has a property. -/
def WorksOn (p : Path) (P : α → Prop) : Script α → Prop
  | done a => P a
  | ask q next => q.Concerns p ∧ ∀ r, WorksOn p P (next r)

theorem worksOn_pure {a : α} (h : P a) : WorksOn p P (pure a) := h

theorem worksOn_log (r : LogRecord) : WorksOn p (fun _ => True) (Host.log r) :=
  ⟨trivial, fun _ => trivial⟩

theorem WorksOn.bind (hx : WorksOn p P x) (hf : ∀ a, P a → WorksOn p Q (f a)) :
    WorksOn p Q (x >>= f) := by
  induction x with
  | done a => exact hf a hx
  | ask q next ih => exact ⟨hx.1, fun r => ih r (hx.2 r)⟩

theorem worksOn_logAll (records : List LogRecord) :
    WorksOn p (fun _ => True) (Host.logAll records) := by
  induction records with
  | nil => exact trivial
  | cons r records ih => exact (worksOn_log r).bind fun _ _ => ih

/-! ### The script of a task -/

/-- A result, if there is one, is about the file. -/
def IsAbout (file : Text) (r : Except SourceError FixResult) : Prop :=
  ∀ result, r = .ok result → result.file = file

theorem isAbout_error (e : SourceError) : IsAbout file (.error e) := fun _ h => nomatch h

theorem isAbout_ok {r : FixResult} (h : r.file = file) : IsAbout file (.ok r) :=
  fun _ heq => (Except.ok.inj heq) ▸ h

theorem worksOn_loadSource (p : Path) : WorksOn p (fun _ => True) (loadSource p) := by
  have hread : WorksOn p (fun _ => True) (Host.read p) := ⟨rfl, fun _ => trivial⟩
  refine hread.bind fun r _ => ?_
  cases r with
  | error f => exact worksOn_pure trivial
  | ok octets =>
    dsimp only
    cases Utf8.decode octets with
    | error f => exact worksOn_pure trivial
    | ok t => exact worksOn_pure trivial

theorem worksOn_storeSource (p : Path) (t : Text) :
    WorksOn p (fun _ => True) (storeSource p t) := by
  refine ⟨rfl, fun r => ?_⟩
  cases r <;> exact trivial

theorem worksOn_store (method : FixMethod) (dryRun : Bool) (file : Text) (p : Path)
    (before : Text) (fix : TextFix) :
    WorksOn p (IsAbout file) (method.store dryRun file p before fix) := by
  unfold FixMethod.store
  cases dryRun with
  | true => exact worksOn_pure (isAbout_ok rfl)
  | false =>
    refine (worksOn_storeSource p _).bind fun r _ => ?_
    cases r with
    | error e => exact worksOn_pure (isAbout_error e)
    | ok _ => exact (worksOn_logAll _).bind fun _ _ => worksOn_pure (isAbout_ok rfl)

theorem worksOn_apply (method : FixMethod) (dryRun : Bool) (file : Text) (p : Path) :
    WorksOn p (IsAbout file) (method.apply dryRun file p) := by
  refine (worksOn_loadSource p).bind fun r _ => ?_
  cases r with
  | error e => exact worksOn_pure (isAbout_error e)
  | ok before =>
    refine (worksOn_logAll _).bind fun _ _ => ?_
    cases method.obstacle with
    | some e => exact worksOn_pure (isAbout_error e)
    | none =>
      dsimp only
      split
      · exact (worksOn_logAll _).bind fun _ _ => worksOn_pure (isAbout_ok rfl)
      · exact worksOn_store method dryRun file p before _

theorem worksOn_settle (source : LogSource) {r : Except SourceError FixResult}
    (h : IsAbout file r) : WorksOn p (IsAbout file) (settle source file p r) := by
  cases r with
  | ok result => exact worksOn_pure h
  | error e =>
    unfold settle
    dsimp only
    split
    · exact (worksOn_log _).bind fun _ _ => worksOn_pure (isAbout_ok rfl)
    · exact worksOn_pure (isAbout_error e)

theorem worksOn_fixSource (s : Settings) (file : Text) (ds : List Diagnostic) (p : Path)
    (evidence : List Evidence) :
    WorksOn p (IsAbout file) (fixSource s file ds p evidence) := by
  have hmethod (source : LogSource) (method : FixMethod) :
      WorksOn p (IsAbout file) (method.apply s.dryRun file p >>= settle source file p) :=
    (worksOn_apply method s.dryRun file p).bind fun r hr => worksOn_settle source hr
  unfold fixSource
  split
  · next hplaces =>
    split
    · unfold fixWithoutEvidence
      rw [if_pos hplaces]
      exact (worksOn_log _).bind fun _ _ => hmethod _ _
    · exact worksOn_pure (isAbout_ok rfl)
  · exact hmethod _ _

/-- **A task works on its own file, and its result is about this file.** -/
theorem worksOn_run (s : Settings) (evidence : List Evidence) (t : FixTask) :
    WorksOn t.path (fun r => r.file = t.file) (t.run s evidence) := by
  refine ⟨trivial, fun here => ?_⟩
  refine (worksOn_fixSource s t.file t.diagnostics t.path _).bind fun r hr => ?_
  cases r with
  | ok result => exact worksOn_pure (hr result rfl)
  | error e => exact (worksOn_log _).bind fun _ _ => worksOn_pure rfl

/-! ### Outcomes -/

/-- What a script gives on a machine, and what it leaves in the file at a path. -/
def outcome (x : Script α) (p : Path) (m : Machine) : α × Except FileFault (List UInt8) :=
  ((m.run x.perform).1, (m.run x.perform).2.content? p)

theorem outcome_ask (q : Request) (next : q.Answer → Script α) (p : Path) (m : Machine) :
    outcome (ask q next) p m = outcome (next (m.run q.perform).1) p (m.run q.perform).2 := rfl

end Script

/-- Requests that concern a file leave all other files as they are. -/
theorem Request.Concerns.rewrites {q : Request} (hq : q.Concerns p)
    (hm : m.content? p = .ok octets) :
    (∃ new, (m.run q.perform).2.content? p = .ok new) ∧
      Rewrites (m.placeOf p) m (m.run q.perform).2 := by
  cases q with
  | workingDirectory => exact ⟨⟨octets, hm⟩, .refl _ m⟩
  | log r => exact ⟨⟨octets, hm⟩, (onlyLogs_log m r).rewrites _⟩
  | read q => exact ⟨⟨octets, hm⟩, .refl _ m⟩
  | write q new =>
    cases hq
    obtain ⟨-, hnew, hrewrites⟩ := write_of_content? hm new
    exact ⟨⟨_, hnew⟩, hrewrites⟩
  | look | start | now | print => exact hq.elim

/-- They are answered alike where the file is alike. -/
theorem Request.Concerns.congr {q : Request} (hq : q.Concerns p)
    (hhere : m.workingDirectory = m'.workingDirectory) (hlimits : m.limitsOf p = m'.limitsOf p)
    (hm : m.content? p = .ok octets) (hm' : m'.content? p = .ok octets) :
    (m.run q.perform).1 = (m'.run q.perform).1 ∧
      (m.run q.perform).2.content? p = (m'.run q.perform).2.content? p := by
  cases q with
  | workingDirectory => exact ⟨hhere, hm.trans hm'.symm⟩
  | log r => exact ⟨rfl, hm.trans hm'.symm⟩
  | read q =>
    cases hq
    refine ⟨?_, hm.trans hm'.symm⟩
    change m.read? p = m'.read? p
    rw [read?_of_content? hm, read?_of_content? hm', hlimits]
  | write q new =>
    cases hq
    obtain ⟨hdone, hnew, -⟩ := write_of_content? hm new
    obtain ⟨hdone', hnew', -⟩ := write_of_content? hm' new
    rw [← hlimits] at hdone' hnew'
    exact ⟨hdone.trans hdone'.symm, hnew.trans hnew'.symm⟩
  | look | start | now | print => exact hq.elim

theorem Request.Concerns.sameTools {q : Request} (hq : q.Concerns p) :
    SameTools m (m.run q.perform).2 := by
  cases q with
  | workingDirectory | log | read => exact ⟨rfl, rfl, rfl⟩
  | write q new =>
    exact ⟨rfl, rfl, rfl⟩
  | look | start | now | print => exact hq.elim

namespace Script

variable {P : α → Prop} {x : Script α}

theorem WorksOn.sameTools (hx : WorksOn p P x) : SameTools m (m.run x.perform).2 := by
  induction x generalizing m with
  | done a => exact .refl m
  | ask q next ih => exact hx.1.sameTools.trans (ih _ (hx.2 _))

/-- **The outcome depends only on the working directory and the own file.** -/
theorem outcome_congr (hx : WorksOn p P x) (hhere : m.workingDirectory = m'.workingDirectory)
    (hlimits : m.limitsOf p = m'.limitsOf p) (hm : m.content? p = .ok octets)
    (hm' : m'.content? p = .ok octets) :
    outcome x p m = outcome x p m' := by
  induction x generalizing m m' octets with
  | done a => exact Prod.ext rfl (hm.trans hm'.symm)
  | ask q next ih =>
    obtain ⟨hq, hnext⟩ := hx
    obtain ⟨⟨new, hnew⟩, hrewrites⟩ := hq.rewrites hm
    obtain ⟨-, hrewrites'⟩ := hq.rewrites hm'
    obtain ⟨hanswer, hcontent⟩ := hq.congr hhere hlimits hm hm'
    have hhere' := hrewrites.here.symm.trans (hhere.trans hrewrites'.here)
    have hlimits' := (hrewrites.limitsOf_eq p).trans
      (hlimits.trans (hrewrites'.limitsOf_eq p).symm)
    rw [outcome_ask, outcome_ask, ← hanswer]
    exact ih _ (hnext _) hhere' hlimits' hnew (hcontent ▸ hnew)

theorem WorksOn.holds (hx : WorksOn p P x) : P (m.run x.perform).1 := by
  induction x generalizing m with
  | done a => exact hx
  | ask q next ih => exact ih _ (hx.2 _)

end Script

end ImportRepair
