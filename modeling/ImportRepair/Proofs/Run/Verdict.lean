import ImportRepair.Proofs.Run.Course

/-!
# The verdict of a run

A run takes one of three courses to its report: it only checks, it checks and
shows fixes, or it checks, fixes and checks again.  What the first check finds
and the settings decide the course, and the course decides the phases, the
tools that are started, and which parts the report has.  The last check alone
decides whether the run succeeds.
-/

namespace ImportRepair

open Machine

/-! ### Courses -/

inductive Course where
  | checked
  /-- Fixes are shown, but nothing is written, so there is nothing to check again. -/
  | shown
  | verified
deriving DecidableEq, Repr

namespace Course

/-- The course of a run whose first check found some diagnostics. -/
def of (s : Settings) (initial : List Diagnostic) : Course :=
  if initial = [] ∨ s.fix = false then .checked
  else if s.dryRun = true then .shown
  else .verified

def phases : Course → List Phase
  | checked => [.idle, .checking, .done]
  | shown => [.idle, .checking, .fixing, .done]
  | verified => [.idle, .checking, .fixing, .reverifying, .done]

/-- The tools that are started, where `c` is the call of the compiler and `asked` are the calls of
    the fix pass. -/
def calls (c : ToolCall) (asked : List ToolCall) : Course → List ToolCall
  | checked => [c]
  | shown => c :: asked
  | verified => c :: asked ++ [c]

def lastCheck? (replies : List ToolResult) : Course → Option ToolResult
  | checked | shown => replies.head?
  | verified => replies.getLast?

end Course

/-- The diagnostics in the output of a compiler that has ended. -/
def Settings.diagnosticsIn? (s : Settings) : ToolResult → Option (List Diagnostic)
  | .finished stdout stderr _ => some (diagnosticsOf s.root.text true (stdout ++ '\n' :: stderr))
  | _ => none

/-- The compiler returned 0 and complained of nothing. -/
def Settings.Succeeded (s : Settings) (reply : ToolResult) : Prop :=
  (∃ stdout stderr, reply = .finished stdout stderr 0) ∧ s.diagnosticsIn? reply = some []

variable {s : Settings} {m m₁ m₂ m' : Machine} {c : ToolCall} {ds final : List Diagnostic}
variable {first second : CompilerResult} {b : Batch} {r : RunReport} {ps : List Phase}
variable {reply : ToolResult}

/-! ### Checks -/

theorem diagnosticsIn?_of_checkResult (h : s.checkResult c reply = .ok (ds, first)) :
    s.diagnosticsIn? reply = some ds := by
  cases reply with
  | finished stdout stderr code => exact congrArg (some ·.1) (Except.ok.inj h)
  | notFound | denied | timedOut | broken => cases h

theorem succeeded_iff_of_checkResult (h : s.checkResult c reply = .ok (ds, first)) :
    s.Succeeded reply ↔ first.success = true ∧ ds = [] := by
  rw [Settings.Succeeded, diagnosticsIn?_of_checkResult h, Option.some.injEq]
  refine and_congr_left fun _ => ?_
  cases reply with
  | finished stdout stderr code =>
    have hfirst : first.code = code := by
      rw [← (Prod.mk.inj (Except.ok.inj h)).2]
    rw [CompilerResult.success, hfirst, beq_iff_eq]
    constructor
    · rintro ⟨_, _, heq⟩
      exact (ToolResult.finished.inj heq).2.2
    · rintro rfl
      exact ⟨stdout, stderr, rfl⟩
  | notFound | denied | timedOut | broken => cases h

/-! ### Outcomes -/

theorem outcomeOf_zero (initial : Int) (success : Bool) :
    Verification.outcomeOf initial 0 success = if success then .passed else .unparsed := by
  rw [Verification.outcomeOf, if_pos rfl]

theorem outcomeOf_of_lt {n k : Nat} (h : 0 < k) (hlt : k < n) (success : Bool) :
    Verification.outcomeOf n k success = .improved := by
  rw [Verification.outcomeOf, if_neg (by omega), if_pos (by omega)]

theorem outcomeOf_self {n : Nat} (h : 0 < n) (success : Bool) :
    Verification.outcomeOf n n success = .unchanged := by
  rw [Verification.outcomeOf, if_neg (by omega), if_neg (by omega), if_pos rfl]

theorem outcomeOf_of_gt {n k : Nat} (h : n < k) (success : Bool) :
    Verification.outcomeOf n k success = .regression := by
  rw [Verification.outcomeOf, if_neg (by omega), if_neg (by omega), if_neg (by omega)]

theorem outcomeOf_eq_passed_iff {n k : Nat} {success : Bool} :
    Verification.outcomeOf n k success = .passed ↔ k = 0 ∧ success = true := by
  rcases Nat.eq_zero_or_pos k with rfl | hk
  · rw [Int.natCast_zero, outcomeOf_zero]
    cases success <;> decide
  · have hne : ¬ (k = 0 ∧ success = true) := by omega
    simp only [hne, iff_false]
    rcases Nat.lt_trichotomy k n with h | rfl | h
    · rw [outcomeOf_of_lt hk h]
      decide
    · rw [outcomeOf_self hk]
      decide
    · rw [outcomeOf_of_gt h]
      decide

/-- The numbers of diagnostics decide the outcome. -/
theorem outcomeOf_iff {n k : Nat} (hn : 0 < n) (success : Bool) :
    (Verification.outcomeOf n k success = .regression ↔ n < k) ∧
      (Verification.outcomeOf n k success = .unchanged ↔ k = n) ∧
      (Verification.outcomeOf n k success = .improved ↔ 0 < k ∧ k < n) := by
  rcases Nat.eq_zero_or_pos k with rfl | hk
  · rw [Int.natCast_zero, outcomeOf_zero]
    cases success <;> simp <;> omega
  · rcases Nat.lt_trichotomy k n with h | rfl | h
    · rw [outcomeOf_of_lt hk h]
      simp
      omega
    · rw [outcomeOf_self hk]
      simp
    · rw [outcomeOf_of_gt h]
      simp
      omega

theorem exitCode_eq_zero_iff (r : RunReport) : r.exitCode = 0 ↔ r.outcome = .passed := by
  rw [RunReport.exitCode, RunReport.success]
  cases r.outcome <;> decide

/-! ### Reports -/

theorem FixPass.started (h : FixPass s m c ds (.ok b) m₂) :
    ∃ asked : List ToolCall, asked.length ≤ 1 ∧ (∀ a ∈ asked, s.IsLinterCall a) ∧
      Started m (c :: asked) m₂ := by
  obtain ⟨first, m₁, hfirst, hpass⟩ := h.first
  obtain ⟨asked, hone, hlinter, hstarted⟩ := started_fixPass m₁ s ds
  rw [hpass] at hstarted
  exact ⟨asked, hone, hlinter, hfirst.consults.started.trans hstarted⟩

/-- What holds of a report at the end of a run. -/
structure IsReport (s : Settings) (m m' : Machine) (r : RunReport) (c : ToolCall)
    (asked : List ToolCall) : Prop where
  call : s.compilerCall = .ok c
  once : asked.length ≤ 1
  linter : ∀ a ∈ asked, s.IsLinterCall a
  calls : m'.calls = m.calls ++ (Course.of s r.initial).calls c asked
  phases : r.phases = (Course.of s r.initial).phases
  initial : (m.replies ((Course.of s r.initial).calls c asked)).head?.bind s.diagnosticsIn? =
    some r.initial
  batch : r.batch.isSome ↔ .fixing ∈ r.phases
  reverified : r.final.isSome ↔ .reverifying ∈ r.phases
  final : ∀ final, r.final = some final →
    (m.replies ((Course.of s r.initial).calls c asked)).getLast?.bind s.diagnosticsIn? =
      some final ∧
    (r.outcome = .regression ↔ r.initial.length < final.length) ∧
    (r.outcome = .unchanged ↔ final.length = r.initial.length) ∧
    (r.outcome = .improved ↔ 0 < final.length ∧ final.length < r.initial.length)
  exitCode : r.exitCode = 0 ↔ ∃ reply,
    (Course.of s r.initial).lastCheck? (m.replies ((Course.of s r.initial).calls c asked)) =
      some reply ∧ s.Succeeded reply

theorem Course.of_eq_checked (h : ds = [] ∨ s.fix = false) : Course.of s ds = .checked :=
  if_pos h

theorem FixPass.course (h : FixPass s m c ds (.ok b) m₂) :
    Course.of s ds = if s.dryRun = true then .shown else .verified := by
  refine if_neg ?_
  rw [h.fix]
  simpa using h.nonempty

theorem FixPass.diagnosticsIn? (h : FixPass s m c ds (.ok b) m₂) :
    s.diagnosticsIn? (m.start c).1 = some ds := by
  obtain ⟨first, m₁, hfirst, -⟩ := h.first
  exact diagnosticsIn?_of_checkResult hfirst.result

/-! ### One course after the other -/

theorem not_succeeded (h : s.diagnosticsIn? reply = some ds) (hds : ds ≠ []) :
    ¬ s.Succeeded reply := by
  rintro ⟨-, hnone⟩
  rw [h] at hnone
  exact hds (Option.some.inj hnone)

theorem exitCode_of_notVerified {n : Int} (h : r.verification = some ⟨.notVerified, n, none⟩) :
    r.exitCode ≠ 0 := by
  rw [Ne, exitCode_eq_zero_iff, RunReport.outcome, h]
  exact nofun

/-- A run that was verified succeeds exactly if the compiler did at last. -/
theorem exitCode_of_compare {n : Nat} (h : s.checkResult c reply = .ok (ds, first))
    (hr : r.verification = some (.compare n ds.length first.success)) :
    r.exitCode = 0 ↔ s.Succeeded reply := by
  rw [exitCode_eq_zero_iff, RunReport.outcome, hr]
  change Verification.outcomeOf n ds.length first.success = .passed ↔ _
  rw [outcomeOf_eq_passed_iff, List.length_eq_zero_iff, succeeded_iff_of_checkResult h, and_comm]

theorem exists_some_eq_iff {α : Type} {a : α} {P : α → Prop} :
    (∃ x, some a = some x ∧ P x) ↔ P a := by
  simp only [Option.some.injEq, exists_eq_left']

theorem FirstCheck.isReport (h : FirstCheck s m c r.initial first m')
    (hcourse : Course.of s r.initial = .checked) (hphases : r.phases = Course.checked.phases)
    (hbatch : r.batch = none) (hfinal : r.final = none)
    (hexit : r.exitCode = 0 ↔ s.Succeeded (m.start c).1) : IsReport s m m' r c [] where
  call := h.call
  once := Nat.zero_le 1
  linter := nofun
  calls := by
    rw [hcourse]
    exact h.consults.started.calls_eq
  phases := by rw [hcourse, hphases]
  initial := by
    rw [hcourse]
    exact diagnosticsIn?_of_checkResult h.result
  batch := by
    rw [hbatch, hphases]
    decide
  reverified := by
    rw [hfinal, hphases]
    decide
  final := by
    rw [hfinal]
    exact nofun
  exitCode := by
    rw [hcourse]
    exact hexit.trans exists_some_eq_iff.symm

theorem FixPass.isReport_of_shown (h : FixPass s m c r.initial (.ok b) m₂) (hdry : s.dryRun = true)
    (hend : Consults m₂ [] m') (hphases : r.phases = Course.shown.phases)
    (hbatch : r.batch = some b) (hfinal : r.final = none)
    (hverification : r.verification = some ⟨.notVerified, r.initial.length, none⟩) :
    ∃ asked, IsReport s m m' r c asked := by
  have hcourse : Course.of s r.initial = .shown := by rw [h.course, if_pos hdry]
  obtain ⟨asked, hone, hlinter, hstarted⟩ := h.started
  obtain ⟨first, m₁, hfirst, -⟩ := h.first
  refine ⟨asked, hfirst.call, hone, hlinter, ?_, by rw [hcourse, hphases], ?_, ?_, ?_, ?_, ?_⟩
  · have hcalls := (hstarted.trans hend.started).calls_eq
    rw [List.append_nil] at hcalls
    rw [hcourse]
    exact hcalls
  · rw [hcourse]
    exact h.diagnosticsIn?
  · rw [hbatch, hphases]
    exact iff_of_true rfl (by decide)
  · rw [hfinal, hphases]
    decide
  · rw [hfinal]
    exact nofun
  · rw [hcourse]
    refine iff_of_false (exitCode_of_notVerified hverification) fun hlast => ?_
    exact not_succeeded h.diagnosticsIn? h.nonempty (exists_some_eq_iff.1 hlast)

theorem FixPass.isReport_of_verified (h : FixPass s m c r.initial (.ok b) m₂)
    (hdry : s.dryRun = false) (hresult : s.checkResult c (m₂.start c).1 = .ok (final, second))
    (hend : Consults m₂ [c] m') (hphases : r.phases = Course.verified.phases)
    (hbatch : r.batch = some b) (hfinal : r.final = some final)
    (hverification :
      r.verification = some (.compare r.initial.length final.length second.success)) :
    ∃ asked, IsReport s m m' r c asked := by
  have hcourse : Course.of s r.initial = .verified := by
    rw [h.course, hdry, if_neg Bool.false_ne_true]
  obtain ⟨asked, hone, hlinter, hstarted⟩ := h.started
  obtain ⟨first, m₁, hfirst, -⟩ := h.first
  -- the second check is the last thing that is started
  have hlast : (m.replies (Course.verified.calls c asked)).getLast? = some (m₂.start c).1 := by
    rw [Course.calls, hstarted.replies_append, List.getLast?_append]
    rfl
  refine ⟨asked, hfirst.call, hone, hlinter, ?_, by rw [hcourse, hphases], ?_, ?_, ?_, ?_, ?_⟩
  · rw [hcourse]
    exact (hstarted.trans hend.started).calls_eq
  · rw [hcourse]
    exact h.diagnosticsIn?
  · rw [hbatch, hphases]
    exact iff_of_true rfl (by decide)
  · rw [hfinal, hphases]
    exact iff_of_true rfl (by decide)
  · intro final' hfinal'
    obtain rfl := Option.some.inj (hfinal.symm.trans hfinal')
    rw [hcourse, hlast, RunReport.outcome, hverification]
    exact ⟨diagnosticsIn?_of_checkResult hresult,
      outcomeOf_iff (List.length_pos_of_ne_nil h.nonempty) second.success⟩
  · rw [hcourse, Course.lastCheck?, hlast, exists_some_eq_iff]
    exact exitCode_of_compare hresult hverification

theorem isReport_of_ran {x : Except RunError RunReport} (hran : Ran s m initialPhases x ps m')
    (hx : x = .ok r) : ∃ c asked, IsReport s m m' r c asked := by
  cases hran with
  | unstarted | unchecked | unfixed | unreverified => cases hx
  | clean h =>
    cases hx
    exact ⟨_, [], h.isReport (Course.of_eq_checked (.inl rfl)) rfl rfl rfl
      (exitCode_of_compare (n := 0) h.result rfl)⟩
  | listed h hds hfix =>
    cases hx
    refine ⟨_, [], h.isReport (Course.of_eq_checked (.inr hfix)) rfl rfl rfl ?_⟩
    exact iff_of_false (exitCode_of_notVerified rfl)
      (not_succeeded (diagnosticsIn?_of_checkResult h.result) hds)
  | shown h hdry hend =>
    cases hx
    exact ⟨_, h.isReport_of_shown hdry hend rfl rfl rfl rfl⟩
  | verified h hdry hresult hend =>
    cases hx
    exact ⟨_, h.isReport_of_verified hdry hresult hend rfl rfl rfl rfl⟩

/-- **What the report of a run says, and what has been done for it.** -/
theorem run_isReport (h : m.run ((run s).run.run initialPhases) = ((.ok r, ps), m')) :
    ∃ c asked, IsReport s m m' r c asked := by
  obtain ⟨x, ps', m₁, heq, hran⟩ := comesTo_run s m initialPhases
  obtain ⟨hresult, hmachine⟩ := Prod.mk.inj (h.symm.trans heq)
  rw [← hmachine] at hran
  exact isReport_of_ran hran (Prod.mk.inj hresult).1.symm

/-- A run that fixes the only file and succeeds. -/
theorem run_isReport_sample :
    let output := "src/m.ts(1,1): error TS6192: All imports in import declaration are unused.\n"
    let m := sampleProject [(["src", "m.ts"], sampleText)]
      [.finished output.toList [] 2, .finished [] [] 0] [.finished "[]".toList [] 0]
    ∃ r ps m', m.run ((run sampleSettings).run.run initialPhases) = ((.ok r, ps), m') ∧
      r.phases = [.idle, .checking, .fixing, .reverifying, .done] ∧
      ∃ c asked, IsReport sampleSettings m m' r c asked := by
  intro output m
  have hphases : (m.run ((run sampleSettings).run.run initialPhases)).1.1.map (·.phases) =
      .ok [.idle, .checking, .fixing, .reverifying, .done] := by decide +kernel
  cases hrun : m.run ((run sampleSettings).run.run initialPhases) with
  | mk out m' =>
    obtain ⟨x, ps⟩ := out
    rw [hrun] at hphases
    cases x with
    | error e => cases hphases
    | ok r => exact ⟨r, ps, m', rfl, Except.ok.inj hphases, run_isReport hrun⟩

end ImportRepair
