import ImportRepair.Proofs.Fix.OwnFile
import Mathlib.Data.List.Nodup
import Mathlib.Logic.Relation

/-!
# Tasks in turns

Some workers run the tasks of a pass.  A worker takes up any task that waits,
and of the tasks that are taken up any may make its next request.  All schedules
are runs of this system, whatever the number of workers.

One invariant carries everything: what is left of a task, run to its end from
now on, has the outcome that the whole task would have had alone at the
beginning.  A turn of one task keeps this for the others because it leaves
their files as they are.
-/

namespace ImportRepair

open Machine

variable {s : Settings} {evidence : List Evidence} {workers : Nat} {m m' : Machine}
variable {ts : List FixTask} {t : FixTask}

/-! ### Pools -/

/-- How far a task has come. -/
inductive Progress where
  | waiting
  /-- The task is taken up, and this is left to do. -/
  | working (rest : Script FixResult)
  | finished (r : FixResult)

namespace Progress

def isWorking : Progress → Bool
  | working _ => true
  | _ => false

def result? : Progress → Option FixResult
  | finished r => some r
  | _ => none

def rest (s : Settings) (evidence : List Evidence) (t : FixTask) : Progress → Script FixResult
  | waiting => t.run s evidence
  | working x => x
  | finished r => .done r

end Progress

structure Pool where
  machine : Machine
  jobs : List (FixTask × Progress)

namespace Pool

variable {w w' : Pool} {before after : List (FixTask × Progress)}

def start (m : Machine) (ts : List FixTask) : Pool := ⟨m, ts.map (·, .waiting)⟩

def results (w : Pool) : List FixResult := w.jobs.filterMap (·.2.result?)

def IsDone (w : Pool) : Prop := ∀ j ∈ w.jobs, ∃ r, j.2 = .finished r

inductive Step (s : Settings) (evidence : List Evidence) (workers : Nat) : Pool → Pool → Prop
  /-- A worker takes up a task. -/
  | begin (m : Machine) (t : FixTask) (before after : List (FixTask × Progress))
      (h : (before ++ after).countP (·.2.isWorking) < workers) :
      Step s evidence workers ⟨m, before ++ (t, .waiting) :: after⟩
        ⟨m, before ++ (t, .working (t.run s evidence)) :: after⟩
  /-- A task makes its next request. -/
  | turn (m : Machine) (t : FixTask) (q : Request) (next : q.Answer → Script FixResult)
      (before after : List (FixTask × Progress)) :
      Step s evidence workers ⟨m, before ++ (t, .working (.ask q next)) :: after⟩
        ⟨(m.run q.perform).2, before ++ (t, .working (next (m.run q.perform).1)) :: after⟩
  /-- A task has its result. -/
  | finish (m : Machine) (t : FixTask) (r : FixResult) (before after : List (FixTask × Progress)) :
      Step s evidence workers ⟨m, before ++ (t, .working (.done r)) :: after⟩
        ⟨m, before ++ (t, .finished r) :: after⟩

def Reaches (s : Settings) (evidence : List Evidence) (workers : Nat) : Pool → Pool → Prop :=
  Relation.ReflTransGen (Step s evidence workers)

/-! ### The invariant -/

/-- The outcome that a task has if it is run alone. -/
def alone (s : Settings) (evidence : List Evidence) (m : Machine) (t : FixTask) :
    FixResult × Except FileFault (List UInt8) :=
  (t.run s evidence : Script FixResult).outcome t.path m

/-- A task of the pool is on the way to the outcome that it had alone on the machine `m`. -/
structure OnTheWay (s : Settings) (evidence : List Evidence) (m : Machine) (w : Machine)
    (j : FixTask × Progress) : Prop where
  works : (j.2.rest s evidence j.1).WorksOn j.1.path fun r => r.file = j.1.file
  isFile : ∃ octets, w.content? j.1.path = .ok octets
  outcome : (j.2.rest s evidence j.1).outcome j.1.path w = alone s evidence m j.1

/-- What holds of a pool with the tasks `ts` that started on the machine `m`. -/
structure Sound (s : Settings) (evidence : List Evidence) (m : Machine) (ts : List FixTask)
    (w : Pool) : Prop where
  tasks : w.jobs.map (·.1) = ts
  here : m.workingDirectory = w.machine.workingDirectory
  tools : SameTools m w.machine
  shape : m.disk.SameShape w.machine.disk
  elsewhere : ∀ l, (∀ t ∈ ts, m.placeOf t.path ≠ l) → m.disk.at? l = w.machine.disk.at? l
  jobs : ∀ j ∈ w.jobs, OnTheWay s evidence m w.machine j

theorem sound_start (hts : ∀ t ∈ ts, ∃ octets, m.content? t.path = .ok octets) :
    Sound s evidence m ts (start m ts) where
  tasks := by
    rw [start, List.map_map]
    exact List.map_id ts
  here := rfl
  tools := .refl m
  shape := .refl m.disk
  elsewhere _ _ := rfl
  jobs := by
    rintro j hj
    obtain ⟨t, ht, rfl⟩ := List.mem_map.1 hj
    exact ⟨Script.worksOn_run s evidence t, hts t ht, rfl⟩

theorem forall_mem_jobs_iff {P : FixTask × Progress → Prop} {a : Progress} :
    (∀ j ∈ before ++ (t, a) :: after, P j) ↔ P (t, a) ∧ ∀ j ∈ before ++ after, P j := by
  constructor
  · intro h
    refine ⟨h _ (List.mem_append_right _ List.mem_cons_self), ?_⟩
    intro j hj
    rcases List.mem_append.1 hj with hj | hj
    · exact h j (List.mem_append_left _ hj)
    · exact h j (List.mem_append_right _ (List.mem_cons_of_mem _ hj))
  · rintro ⟨ht, h⟩ j hj
    rcases List.mem_append.1 hj with hj | hj
    · exact h j (List.mem_append_left _ hj)
    · rcases List.mem_cons.1 hj with rfl | hj
      · exact ht
      · exact h j (List.mem_append_right _ hj)

theorem map_fst_jobs (a b : Progress) :
    (before ++ (t, a) :: after).map (·.1) = (before ++ (t, b) :: after).map (·.1) := by
  rw [List.map_append, List.map_append, List.map_cons, List.map_cons]

theorem Sound.placeOf_eq (h : Sound s evidence m ts w) (p : Path) :
    w.machine.placeOf p = m.placeOf p := by
  rw [placeOf, placeOf, h.here]

/-- The other tasks work at other places. -/
theorem Sound.placeOf_ne {machine : Machine} {a : Progress}
    (h : Sound s evidence m ts ⟨machine, before ++ (t, a) :: after⟩)
    (hts : (ts.map fun t => m.placeOf t.path).Nodup) {j : FixTask × Progress}
    (hj : j ∈ before ++ after) : machine.placeOf j.1.path ≠ machine.placeOf t.path := by
  rw [h.placeOf_eq, h.placeOf_eq]
  rw [← h.tasks, List.map_map, List.map_append, List.map_cons, List.nodup_middle,
    ← List.map_append, List.nodup_cons] at hts
  intro heq
  exact hts.1 (List.mem_map.2 ⟨j, hj, heq⟩)

/-- The progress of a task may be told in another way. -/
theorem Sound.relabel {machine : Machine} {a b : Progress}
    (h : Sound s evidence m ts ⟨machine, before ++ (t, a) :: after⟩)
    (hrest : b.rest s evidence t = a.rest s evidence t) :
    Sound s evidence m ts ⟨machine, before ++ (t, b) :: after⟩ where
  tasks := (map_fst_jobs b a).trans h.tasks
  here := h.here
  tools := h.tools
  shape := h.shape
  elsewhere := h.elsewhere
  jobs := by
    obtain ⟨hjob, hothers⟩ := forall_mem_jobs_iff.1 h.jobs
    have hjob' : OnTheWay s evidence m machine (t, b) :=
      ⟨hrest ▸ hjob.works, hjob.isFile, hrest ▸ hjob.outcome⟩
    exact forall_mem_jobs_iff.2 ⟨hjob', hothers⟩

/-- A turn of another task does not matter. -/
theorem OnTheWay.rewrites {machine machine' : Machine} {l : Location} {j : FixTask × Progress}
    (h : OnTheWay s evidence m machine j) (hrewrites : Rewrites l machine machine')
    (hne : machine.placeOf j.1.path ≠ l) : OnTheWay s evidence m machine' j := by
  obtain ⟨octets, hcontent⟩ := h.isFile
  have hcontent' := hrewrites.content?_eq hcontent hne
  refine ⟨h.works, ⟨octets, hcontent'⟩, ?_⟩
  rw [← h.outcome]
  exact Script.outcome_congr h.works hrewrites.here.symm (hrewrites.limitsOf_eq _) hcontent'
    hcontent

theorem Sound.turn {machine : Machine} {q : Request} {next : q.Answer → Script FixResult}
    (h : Sound s evidence m ts ⟨machine, before ++ (t, .working (.ask q next)) :: after⟩)
    (hts : (ts.map fun t => m.placeOf t.path).Nodup) :
    Sound s evidence m ts ⟨(machine.run q.perform).2,
      before ++ (t, .working (next (machine.run q.perform).1)) :: after⟩ := by
  obtain ⟨hjob, hothers⟩ := forall_mem_jobs_iff.1 h.jobs
  obtain ⟨octets, hcontent⟩ := hjob.isFile
  obtain ⟨hq, hnext⟩ := hjob.works
  obtain ⟨hfile, hrewrites⟩ := hq.rewrites hcontent
  refine ⟨(map_fst_jobs _ _).trans h.tasks, h.here.trans hrewrites.here,
    h.tools.trans hrewrites.tools, h.shape.trans hrewrites.shape, ?_, ?_⟩
  · intro l hl
    rw [h.elsewhere l hl]
    apply hrewrites.elsewhere
    rw [h.placeOf_eq]
    exact (hl t (h.tasks ▸ by simp)).symm
  · -- the task whose turn it is has done the first request of what was left to do
    refine forall_mem_jobs_iff.2 ⟨⟨hnext _, hfile, hjob.outcome⟩, ?_⟩
    intro j hj
    exact (hothers j hj).rewrites hrewrites (h.placeOf_ne hts hj)

/-- **A step keeps every task on its way.** -/
theorem Sound.step (h : Sound s evidence m ts w) (hts : (ts.map fun t => m.placeOf t.path).Nodup)
    (hstep : Step s evidence workers w w') : Sound s evidence m ts w' := by
  cases hstep with
  | begin machine t before after hfree => exact h.relabel rfl
  | turn machine t q next before after => exact h.turn hts
  | finish machine t r before after => exact h.relabel rfl

theorem Sound.reaches (h : Sound s evidence m ts w)
    (hts : (ts.map fun t => m.placeOf t.path).Nodup) (hreaches : Reaches s evidence workers w w') :
    Sound s evidence m ts w' := by
  induction hreaches with
  | refl => exact h
  | tail _ hstep ih => exact ih.step hts hstep

/-! ### The end -/

theorem Sound.results_eq (h : Sound s evidence m ts w) (hdone : w.IsDone) :
    w.results = ts.map fun t => (alone s evidence m t).1 := by
  rw [← h.tasks, List.map_map, results]
  have hjobs : ∀ j ∈ w.jobs, j.2.result? = some (alone s evidence m j.1).1 := by
    intro j hj
    obtain ⟨r, hr⟩ := hdone j hj
    rw [← (h.jobs j hj).outcome, hr]
    rfl
  rw [List.filterMap_congr hjobs]
  exact congrFun (List.filterMap_eq_map
    (f := fun j : FixTask × Progress => (alone s evidence m j.1).1)) _

theorem Sound.isFile (h : Sound s evidence m ts w) (ht : t ∈ ts) :
    ∃ octets, w.machine.content? t.path = .ok octets := by
  rw [← h.tasks] at ht
  obtain ⟨j, hj, rfl⟩ := List.mem_map.1 ht
  exact (h.jobs j hj).isFile

theorem Sound.content?_eq (h : Sound s evidence m ts w) (hdone : w.IsDone) (ht : t ∈ ts) :
    w.machine.content? t.path = (alone s evidence m t).2 := by
  rw [← h.tasks] at ht
  obtain ⟨j, hj, rfl⟩ := List.mem_map.1 ht
  obtain ⟨r, hr⟩ := hdone j hj
  rw [← (h.jobs j hj).outcome, hr]
  rfl

/-- Schedules end alike. -/
theorem Sound.at?_eq (h : Sound s evidence m ts w) (hdone : w.IsDone)
    (h' : Sound s evidence m ts w') (hdone' : w'.IsDone) (l : Location) :
    w.machine.disk.at? l = w'.machine.disk.at? l := by
  by_cases hl : ∃ t ∈ ts, m.placeOf t.path = l
  · obtain ⟨t, ht, rfl⟩ := hl
    have hcontent := h.content?_eq hdone ht
    have hcontent' := h'.content?_eq hdone' ht
    obtain ⟨octets, hfile⟩ := h.isFile ht
    rw [hfile] at hcontent
    rw [← hcontent] at hcontent'
    have hat := (exists_at?_of_content? hfile).2
    have hat' := (exists_at?_of_content? hcontent').2
    rw [placeOf, ← h.here] at hat
    rw [placeOf, ← h'.here] at hat'
    rw [placeOf, hat, hat']
  · have hne : ∀ t ∈ ts, m.placeOf t.path ≠ l := fun t ht heq => hl ⟨t, ht, heq⟩
    rw [← h.elsewhere l hne, h'.elsewhere l hne]

/-! ### One task after the other -/

theorem reaches_of_working (m : Machine) (t : FixTask) (before after : List (FixTask × Progress))
    (x : Script FixResult) : Reaches s evidence workers ⟨m, before ++ (t, .working x) :: after⟩
      ⟨(m.run x.perform).2, before ++ (t, .finished (m.run x.perform).1) :: after⟩ := by
  induction x generalizing m with
  | done r => exact .single (.finish m t r before after)
  | ask q next ih => exact .head (.turn m t q next before after) (ih _ _)

/-- One worker is enough. -/
theorem exists_reaches_tasks (m : Machine) (ts : List FixTask) (hworkers : 0 < workers)
    (hbefore : ∀ j ∈ before, j.2.isWorking = false) :
    ∃ jobs, Reaches s evidence workers ⟨m, before ++ ts.map (·, .waiting)⟩
        ⟨(m.run (ts.mapM (·.run s evidence))).2, before ++ jobs⟩ ∧
      (∀ j ∈ jobs, ∃ r, j.2 = .finished r) ∧
      jobs.filterMap (·.2.result?) = (m.run (ts.mapM (·.run s evidence))).1 := by
  induction ts generalizing before m with
  | nil => exact ⟨[], .refl, nofun, rfl⟩
  | cons t ts ih =>
    have hfree : (before ++ ts.map (·, Progress.waiting)).countP (·.2.isWorking) < workers := by
      rw [List.countP_eq_zero.2]
      · exact hworkers
      · intro j hj
        rcases List.mem_append.1 hj with hj | hj
        · simp [hbefore j hj]
        · obtain ⟨u, -, rfl⟩ := List.mem_map.1 hj
          exact Bool.false_ne_true
    have hfirst : Reaches s evidence workers _ _ :=
      reaches_of_working m t before (ts.map (·, .waiting)) (t.run s evidence)
    rw [Script.perform_run] at hfirst
    have hdone : ∀ j ∈ before ++ [(t, .finished (m.run (t.run s evidence)).1)],
        j.2.isWorking = false := by
      intro j hj
      rcases List.mem_append.1 hj with hj | hj
      · exact hbefore j hj
      · rw [List.mem_singleton.1 hj]
        rfl
    obtain ⟨jobs, hrest, hfinished, hresults⟩ := ih (m.run (t.run s evidence)).2 hdone
    rw [List.append_assoc, List.append_assoc] at hrest
    rw [List.mapM_cons]
    refine ⟨(t, .finished (m.run (t.run s evidence)).1) :: jobs,
      .head (.begin m t before _ hfree) (hfirst.trans hrest), ?_, ?_⟩
    · intro j hj
      rcases List.mem_cons.1 hj with rfl | hj
      · exact ⟨_, rfl⟩
      · exact hfinished j hj
    · exact congrArg (_ :: ·) hresults

theorem exists_reaches_start (s : Settings) (evidence : List Evidence) (m : Machine)
    (ts : List FixTask) (hworkers : 0 < workers) :
    ∃ w, Reaches s evidence workers (start m ts) w ∧ w.IsDone ∧
      w.machine = (m.run (ts.mapM (·.run s evidence))).2 ∧
      w.results = (m.run (ts.mapM (·.run s evidence))).1 := by
  have hnone : ∀ j ∈ ([] : List (FixTask × Progress)), j.2.isWorking = false := nofun
  obtain ⟨jobs, hreaches, hdone, hresults⟩ := exists_reaches_tasks m ts hworkers hnone
  exact ⟨_, hreaches, hdone, rfl, hresults⟩

end Pool

end ImportRepair
