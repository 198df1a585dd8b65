import ImportRepair.Proofs.Run.Verdict

/-!
# Runs one after the other

A program may run more than once.  The phases are kept from run to run, so the
report of a run has the phases of all runs before it, of those too that came to
no report.  Only the first run has a course of its own in its report.
-/

namespace ImportRepair

open Machine

variable {s : Settings} {m m' : Machine} {ps ps' own : List Phase} {r : RunReport}
variable {x : Except RunError RunReport} {xs : List (Except RunError RunReport)}
variable {owns : List (List Phase)} {k : Nat}

/-! ### One run -/

/-- The phases that a run goes through itself, by its result. -/
inductive IsOwn (s : Settings) : Except RunError RunReport → List Phase → Prop
  /-- The first check fails. -/
  | unchecked (e : CompilerError) : IsOwn s (.error (.compiler e)) [.checking]
  | unfixed (e : PassError) : IsOwn s (.error (.fix e)) [.checking, .fixing]
  /-- The second check fails. -/
  | unreverified (e : CompilerError) :
      IsOwn s (.error (.compiler e)) [.checking, .fixing, .reverifying]
  /-- The run has gone its course; no run is idle again. -/
  | reported (r : RunReport) : IsOwn s (.ok r) (Course.of s r.initial).phases.tail

theorem Course.initialPhases_append (c : Course) : initialPhases ++ c.phases.tail = c.phases := by
  cases c <;> rfl

theorem IsOwn.of_course {c : Course} (h : Course.of s r.initial = c) :
    IsOwn s (.ok r) c.phases.tail := by
  rw [← h]
  exact .reported r

/-- A run adds its own phases to those gone through before, and reports all of them. -/
theorem own_of_ran (h : Ran s m ps x ps' m') :
    ∃ own, IsOwn s x own ∧ ps' = ps ++ own ∧ ∀ r, x = .ok r → r.phases = ps ++ own := by
  have hreport : ∀ {r' : RunReport} {phases : List Phase}, r'.phases = phases →
      ∀ r, (.ok r' : Except RunError RunReport) = .ok r → r.phases = phases := by
    intro r' phases hphases r hr
    rw [← Except.ok.inj hr, hphases]
  cases h with
  | unstarted | unchecked => exact ⟨_, .unchecked _, rfl, fun r hr => by cases hr⟩
  | unfixed => exact ⟨_, .unfixed _, rfl, fun r hr => by cases hr⟩
  | unreverified => exact ⟨_, .unreverified _, rfl, fun r hr => by cases hr⟩
  | clean => exact ⟨_, .of_course (Course.of_eq_checked (.inl rfl)), rfl, hreport rfl⟩
  | listed h hds hfix =>
    exact ⟨_, .of_course (Course.of_eq_checked (.inr hfix)), rfl, hreport rfl⟩
  | shown h hdry => exact ⟨_, .of_course (h.course.trans (if_pos hdry)), rfl, hreport rfl⟩
  | verified h hdry =>
    have hcourse := h.course.trans (if_neg (Bool.eq_false_iff.1 hdry))
    exact ⟨_, .of_course hcourse, rfl, hreport rfl⟩

namespace IsOwn

theorem head?_eq (h : IsOwn s x own) : own.head? = some .checking := by
  cases h with
  | unchecked | unfixed | unreverified => rfl
  | reported r => cases Course.of s r.initial <;> rfl

theorem count_checking (h : IsOwn s x own) : own.count .checking = 1 := by
  cases h with
  | unchecked | unfixed | unreverified => rfl
  | reported r => cases Course.of s r.initial <;> rfl

theorem count_done (h : IsOwn s x own) : own.count .done = if x.isOk then 1 else 0 := by
  cases h with
  | unchecked | unfixed | unreverified => rfl
  | reported r => cases Course.of s r.initial <;> rfl

theorem getLast?_of_ok (h : IsOwn s (.ok r) own) : own.getLast? = some .done := by
  cases h with
  | reported => cases Course.of s r.initial <;> rfl

end IsOwn

/-! ### Many runs -/

theorem run_runs_succ (s : Settings) (m : Machine) (ps : List Phase) (n : Nat) :
    (m.run (runs s ps (n + 1))).1 = (m.phased ps (run s)).1.1 ::
      ((m.phased ps (run s)).2.run (runs s (m.phased ps (run s)).1.2 n)).1 := rfl

/-- Each report has the phases `ps` and the own phases of all runs so far. -/
def Accumulate (ps : List Phase) (xs : List (Except RunError RunReport))
    (owns : List (List Phase)) : Prop :=
  ∀ k r, xs[k]? = some (.ok r) → r.phases = ps ++ (owns.take (k + 1)).flatten

theorem Accumulate.cons (hx : ∀ r, x = .ok r → r.phases = ps ++ own)
    (hxs : Accumulate (ps ++ own) xs owns) : Accumulate ps (x :: xs) (own :: owns) := by
  intro k r hk
  cases k with
  | zero => simpa using hx r (Option.some.inj hk)
  | succ k => simpa using hxs k r hk

theorem runs_accumulate (s : Settings) (m : Machine) (ps : List Phase) (n : Nat) :
    (m.run (runs s ps n)).1.length = n ∧
      ∃ owns, List.Forall₂ (IsOwn s) (m.run (runs s ps n)).1 owns ∧
        Accumulate ps (m.run (runs s ps n)).1 owns := by
  induction n generalizing m ps with
  | zero => exact ⟨rfl, [], .nil, fun k r hk => by cases hk⟩
  | succ n ih =>
    obtain ⟨x, ps', m', heq, hran⟩ := comesTo_run s m ps
    obtain ⟨own, hown, rfl, hphases⟩ := own_of_ran hran
    obtain ⟨hlength, owns, howns, hrest⟩ := ih m' (ps ++ own)
    rw [run_runs_succ, heq]
    exact ⟨congrArg (· + 1) hlength, own :: owns, .cons hown howns, .cons hphases hrest⟩

/-! ### What the later reports say -/

theorem count_checking_flatten (h : List.Forall₂ (IsOwn s) xs owns) :
    owns.flatten.count .checking = xs.length := by
  induction h with
  | nil => rfl
  | cons hx _ ih =>
    rw [List.flatten_cons, List.count_append, hx.count_checking, ih, List.length_cons, Nat.add_comm]

theorem count_done_flatten (h : List.Forall₂ (IsOwn s) xs owns) :
    owns.flatten.count .done = xs.countP (·.isOk) := by
  induction h with
  | nil => rfl
  | cons hx _ ih =>
    rw [List.flatten_cons, List.count_append, hx.count_done, ih, List.countP_cons, Nat.add_comm]

theorem start_of_nonempty (h : List.Forall₂ (IsOwn s) xs owns) (hxs : xs ≠ []) :
    [.idle, .checking] <+: initialPhases ++ owns.flatten := by
  cases h with
  | nil => exact absurd rfl hxs
  | cons hx _ =>
    obtain ⟨rest, hrest⟩ := List.head?_eq_some_iff.1 hx.head?_eq
    rw [List.flatten_cons, hrest]
    exact ⟨_, rfl⟩

theorem last_of_report (h : List.Forall₂ (IsOwn s) xs owns) (hk : xs[k]? = some (.ok r)) :
    (initialPhases ++ (owns.take (k + 1)).flatten).getLast? = some .done := by
  obtain ⟨hlt, hget⟩ := List.getElem?_eq_some_iff.1 hk
  have hlt' : k < owns.length := h.length_eq ▸ hlt
  have hown : IsOwn s (.ok r) owns[k] := hget ▸ h.get hlt hlt'
  rw [List.take_succ_eq_append_getElem hlt', List.flatten_append, List.flatten_singleton,
    ← List.append_assoc, List.getLast?_append, hown.getLast?_of_ok]
  rfl

/-- The first run reports its course. -/
theorem Accumulate.phases_of_first (h : Accumulate initialPhases xs owns)
    (howns : List.Forall₂ (IsOwn s) xs owns) (hk : xs[0]? = some (.ok r)) :
    r.phases = (Course.of s r.initial).phases := by
  have hphases := h 0 r hk
  cases howns with
  | nil => cases hk
  | cons hx _ =>
    obtain rfl := Option.some.inj hk
    cases hx
    simpa [Course.initialPhases_append] using hphases

/-- What the report of the run `k` says of its phases, where the runs gave `xs` and went through
    `owns`. -/
structure ReportsAll (s : Settings) (xs : List (Except RunError RunReport))
    (owns : List (List Phase)) (k : Nat) (r : RunReport) : Prop where
  phases : r.phases = initialPhases ++ (owns.take (k + 1)).flatten
  start : [.idle, .checking] <+: r.phases
  last : r.phases.getLast? = some .done
  checks : r.phases.count .checking = k + 1
  reports : r.phases.count .done = (xs.take (k + 1)).countP (·.isOk)
  course : r.phases = (Course.of s r.initial).phases ↔ k = 0
  courses : (∃ c : Course, r.phases = c.phases) ↔ k = 0

theorem Accumulate.reportsAll (h : Accumulate initialPhases xs owns)
    (howns : List.Forall₂ (IsOwn s) xs owns) (hk : xs[k]? = some (.ok r)) :
    ReportsAll s xs owns k r := by
  have hlt : k < xs.length := (List.getElem?_eq_some_iff.1 hk).1
  have htaken : List.Forall₂ (IsOwn s) (xs.take (k + 1)) (owns.take (k + 1)) :=
    List.forall₂_take _ howns
  have hlength : (xs.take (k + 1)).length = k + 1 := List.length_take_of_le hlt
  have hphases := h k r hk
  have hchecks : r.phases.count .checking = k + 1 := by
    rw [hphases, List.count_append, count_checking_flatten htaken, hlength]
    exact Nat.zero_add _
  have hcourses : (∃ c : Course, r.phases = c.phases) → k = 0 := by
    rintro ⟨c, hc⟩
    have hone : c.phases.count .checking = 1 := by cases c <;> rfl
    rw [hc, hone] at hchecks
    omega
  have hcourse : k = 0 → r.phases = (Course.of s r.initial).phases := by
    rintro rfl
    exact h.phases_of_first howns hk
  exact {
    phases := hphases
    start := by
      rw [hphases]
      exact start_of_nonempty htaken (List.ne_nil_of_length_eq_add_one hlength)
    last := by
      rw [hphases]
      exact last_of_report howns hk
    checks := hchecks
    reports := by
      rw [hphases, List.count_append, count_done_flatten htaken]
      exact Nat.zero_add _
    course := ⟨fun hc => hcourses ⟨_, hc⟩, hcourse⟩
    courses := ⟨hcourses, fun hk => ⟨_, hcourse hk⟩⟩ }

/-- **The report of a run has the phases of all runs so far.**  It is one of the three courses for
    the first run only. -/
theorem runs_reportsAll (s : Settings) (m : Machine) (n : Nat) :
    (m.run (runs s initialPhases n)).1.length = n ∧
      ∃ owns, List.Forall₂ (IsOwn s) (m.run (runs s initialPhases n)).1 owns ∧
        ∀ k r, (m.run (runs s initialPhases n)).1[k]? = some (.ok r) →
          ReportsAll s (m.run (runs s initialPhases n)).1 owns k r := by
  obtain ⟨hlength, owns, howns, hall⟩ := runs_accumulate s m initialPhases n
  exact ⟨hlength, owns, howns, fun k r hk => hall.reportsAll howns hk⟩

/-- A project without a fault is checked twice, and the second report has both checks. -/
theorem runs_reportsAll_twice :
    ∃ first second, ((sampleProject [] [] []).run (runs sampleSettings initialPhases 2)).1 =
        [.ok first, .ok second] ∧
      first.phases = [.idle, .checking, .done] ∧
      second.phases = [.idle, .checking, .done, .checking, .done] ∧
      ¬ ∃ c : Course, second.phases = c.phases := by
  have hphases : ((sampleProject [] [] []).run (runs sampleSettings initialPhases 2)).1.map
        (·.map (·.phases)) =
      [.ok [.idle, .checking, .done], .ok [.idle, .checking, .done, .checking, .done]] := by
    decide +kernel
  obtain ⟨x, xs, hrun, hx, hxs⟩ := List.map_eq_cons_iff.1 hphases
  obtain ⟨y, ys, rfl, hy, hys⟩ := List.map_eq_cons_iff.1 hxs
  obtain rfl := List.map_eq_nil_iff.1 hys
  cases x with
  | error e => cases hx
  | ok first =>
    cases y with
    | error e => cases hy
    | ok second =>
      have hsecond : second.phases = _ := Except.ok.inj hy
      refine ⟨first, second, hrun, Except.ok.inj hx, hsecond, ?_⟩
      rintro ⟨c, hc⟩
      rw [hsecond] at hc
      cases c <;> cases hc

end ImportRepair
