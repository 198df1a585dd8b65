import ImportRepair.Fix.Pass
import ImportRepair.Proofs.Host.Machine

/-!
# What a pass takes from the linter

A pass starts the linter once or not at all.  The reply settles what the pass
makes of it: the records of a report, nothing, or an end of the pass.
-/

namespace ImportRepair

open Machine

variable {s : Settings} {m : Machine} {paths : List Path} {files arguments : List Text}

def Settings.linterCall (s : Settings) (arguments : List Text) : ToolCall :=
  ⟨arguments, s.root, s.timeout⟩

/-- What the reply to a call of the linter says. -/
def Settings.linterResult (s : Settings) (c : ToolCall) :
    ToolResult → Except LinterError (List Evidence)
  | .notFound => .error (.notFound c.program)
  | .denied => .error (.denied c.program)
  | .timedOut => .error (.timedOut s.timeout)
  | .broken f => .error (.call f)
  | .finished stdout stderr code => readLinter s stdout stderr code

/-- Failures that are put up with are no evidence. -/
def tolerate : Except LinterError (List Evidence) → Except LinterError (List Evidence)
  | .ok es => .ok es
  | .error e => if e.isTolerated then .ok [] else .error e

theorem gives_runLinter (hfiles : files ≠ []) (h : linterArguments s.linter files = .ok arguments) :
    Gives m (runLinter s files) [s.linterCall arguments]
      (s.linterResult (s.linterCall arguments) (m.start (s.linterCall arguments)).1) := by
  rw [runLinter, if_neg (by simpa using hfiles), h, Settings.linterCall]
  refine (gives_log m _).bind fun m' hm' => ?_
  refine (gives_start m' _).bind fun m'' _ => ?_
  rw [hm'.reply]
  cases (m.start ⟨arguments, s.root, s.timeout⟩).1 with
  | notFound | denied | timedOut | broken => exact gives_pure m'' _
  | finished stdout stderr code =>
    rw [Settings.linterResult]
    dsimp only
    cases readLinter s stdout stderr code with
    | error e => exact gives_pure m'' _
    | ok es => exact (gives_log m'' _).bind fun m _ => gives_pure m _

/-! ### The question of a pass -/

/-- The pass has something to ask the linter. -/
def Settings.Asks (s : Settings) (paths : List Path) : Prop :=
  paths ≠ [] ∧ s.flags.dropUnused = true

def Settings.argumentsFor (s : Settings) (here : Path) (paths : List Path) :
    Except CommandError (List Text) :=
  linterArguments s.linter (paths.map fun p => (p.resolve here).text)

theorem gives_askLinter_of_not_asks (h : ¬ s.Asks paths) :
    Gives m (askLinter s paths) [] (.ok []) := by
  have hskip : (paths.isEmpty || !s.flags.dropUnused) = true := by
    rw [Settings.Asks] at h
    cases hdrop : s.flags.dropUnused with
    | false => simp
    | true =>
      rw [hdrop] at h
      simpa using h
  rw [askLinter, if_pos hskip]
  exact gives_pure m _

theorem gives_askLinter (h : s.Asks paths) {cs : List ToolCall}
    {r : Except LinterError (List Evidence)}
    (hr : ∀ m', Consults m [] m' →
      Gives m' (runLinter s (paths.map fun p => (p.resolve m.workingDirectory).text)) cs r) :
    Gives m (askLinter s paths) cs (tolerate r) := by
  have hasks : (paths.isEmpty || !s.flags.dropUnused) = false := by simp [h.1, h.2]
  rw [askLinter, if_neg (by rw [hasks]; exact Bool.false_ne_true)]
  refine (gives_workingDirectory m).bind fun m' hm' => ?_
  rw [← List.append_nil cs]
  refine (hr m' hm').bind fun m'' _ => ?_
  cases r with
  | ok es => exact gives_pure m'' _
  | error e =>
    rw [tolerate]
    dsimp only
    split
    · exact (gives_log m'' _).bind fun m _ => gives_pure m _
    · exact gives_pure m'' _

theorem gives_askLinter_of_error {e : CommandError} (h : s.Asks paths)
    (hargs : s.argumentsFor m.workingDirectory paths = .error e) :
    Gives m (askLinter s paths) [] (.error (.command e)) := by
  refine gives_askLinter h (r := .error (.command e)) fun m' _ => ?_
  rw [runLinter, if_neg (by simpa using h.1)]
  rw [Settings.argumentsFor] at hargs
  rw [hargs]
  exact gives_pure m' _

theorem gives_askLinter_of_ok (h : s.Asks paths)
    (hargs : s.argumentsFor m.workingDirectory paths = .ok arguments) :
    Gives m (askLinter s paths) [s.linterCall arguments]
      (tolerate
        (s.linterResult (s.linterCall arguments) (m.start (s.linterCall arguments)).1)) := by
  refine gives_askLinter h fun m' hm' => ?_
  rw [← hm'.reply]
  exact gives_runLinter (by simpa using h.1) hargs

/-- What the linter says does not depend on the log. -/
theorem askLinter_congr {m' : Machine} (hm : Consults m [] m') (s : Settings)
    (paths : List Path) : (m'.run (askLinter s paths)).1 = (m.run (askLinter s paths)).1 := by
  by_cases h : s.Asks paths
  · cases hargs : s.argumentsFor m.workingDirectory paths with
    | error e =>
      rw [(gives_askLinter_of_error h hargs).value]
      rw [hm.here] at hargs
      exact (gives_askLinter_of_error h hargs).value
    | ok arguments =>
      rw [(gives_askLinter_of_ok h hargs).value, ← hm.reply]
      rw [hm.here] at hargs
      exact (gives_askLinter_of_ok h hargs).value
  · rw [(gives_askLinter_of_not_asks (m := m) h).value]
    exact (gives_askLinter_of_not_asks h).value

def Settings.IsLinterCall (s : Settings) (c : ToolCall) : Prop :=
  ∃ arguments files, c = s.linterCall arguments ∧ linterArguments s.linter files = .ok arguments

/-- A pass starts the linter at most once, and starts nothing else. -/
theorem consults_askLinter (s : Settings) (m : Machine) (paths : List Path) :
    ∃ cs, cs.length ≤ 1 ∧ (∀ c ∈ cs, s.IsLinterCall c) ∧
      Consults m cs (m.run (askLinter s paths)).2 := by
  by_cases h : s.Asks paths
  · cases hargs : s.argumentsFor m.workingDirectory paths with
    | error e => exact ⟨[], Nat.zero_le 1, nofun, (gives_askLinter_of_error h hargs).consults⟩
    | ok arguments =>
      refine ⟨[s.linterCall arguments], Nat.le_refl 1, ?_, (gives_askLinter_of_ok h hargs).consults⟩
      intro c hc
      exact ⟨arguments, _, List.mem_singleton.1 hc, hargs⟩
  · exact ⟨[], Nat.zero_le 1, nofun, (gives_askLinter_of_not_asks h).consults⟩

end ImportRepair
