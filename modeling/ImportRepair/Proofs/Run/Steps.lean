import ImportRepair.Proofs.Host.Machine
import ImportRepair.Run.Cycle

/-!
# The steps of a run

A part of a run goes through phases and may fail.  The parts around the fix
pass start the compiler and log; they leave the files alone.
-/

namespace ImportRepair

open Machine

variable {α β : Type} {m m' m'' : Machine} {ps ps' ps'' : List Phase} {cs cs' : List ToolCall}
variable {s : Settings} {c : ToolCall}

/-- What a part of a run gives, with the phases and the machine after it. -/
def Machine.phased (m : Machine) (ps : List Phase) (x : RunT (StateM Machine) α) :
    (Except RunError α × List Phase) × Machine := m.run (x.run.run ps)

/-! ### Parts of a run -/

section Parts

variable {x : RunT (StateM Machine) α} {f : α → RunT (StateM Machine) β}

theorem phased_bind (m : Machine) (ps : List Phase) (x : RunT (StateM Machine) α)
    (f : α → RunT (StateM Machine) β) : m.phased ps (x >>= f) =
      (m.phased ps x).2.run
        (StateT.run (ExceptT.bindCont f (m.phased ps x).1.1) (m.phased ps x).1.2) := rfl

theorem phased_bind_of_ok {a : α} (h : m.phased ps x = ((.ok a, ps'), m')) :
    m.phased ps (x >>= f) = m'.phased ps' (f a) := by
  rw [phased_bind, h]
  rfl

theorem phased_bind_of_error {e : RunError} (h : m.phased ps x = ((.error e, ps'), m')) :
    m.phased ps (x >>= f) = ((.error e, ps'), m') := by
  rw [phased_bind, h]
  rfl

theorem phased_perform (m : Machine) (ps : List Phase) (a : StateM Machine α) :
    m.phased ps (Run.perform a) = ((.ok (m.run a).1, ps), (m.run a).2) := rfl

theorem phased_throw (m : Machine) (ps : List Phase) (e : RunError) :
    m.phased ps (throw e : RunT (StateM Machine) α) = ((.error e, ps), m) := rfl

/-- The part gives a result, goes through phases, and does nothing but consult some tools. -/
structure Takes (m : Machine) (ps : List Phase) (x : RunT (StateM Machine) α)
    (cs : List ToolCall) (r : Except RunError α) (ps' : List Phase) (m' : Machine) : Prop where
  eq : m.phased ps x = ((r, ps'), m')
  consults : Consults m cs m'

theorem Takes.bind {a : α} {r : Except RunError β} (hx : Takes m ps x cs (.ok a) ps' m')
    (hf : Takes m' ps' (f a) cs' r ps'' m'') : Takes m ps (x >>= f) (cs ++ cs') r ps'' m'' :=
  ⟨(phased_bind_of_ok hx.eq).trans hf.eq, hx.consults.trans hf.consults⟩

theorem takes_pure (m : Machine) (ps : List Phase) (a : α) :
    Takes m ps (pure a) [] (.ok a) ps m := ⟨rfl, .refl m⟩

theorem Machine.Gives.takes {program : StateM Machine α} {a : α} (h : Gives m program cs a)
    (ps : List Phase) : Takes m ps (Run.perform program) cs (.ok a) ps (m.run program).2 := by
  refine ⟨?_, h.consults⟩
  rw [phased_perform, h.value]

end Parts

theorem takes_note (m : Machine) (ps : List Phase) (level : LogLevel) (text : String) :
    ∃ m', Takes m ps (Run.note level text) [] (.ok ()) ps m' :=
  ⟨_, (gives_log m ⟨level, .run, text⟩).takes ps⟩

theorem takes_enter (m : Machine) (ps : List Phase) (p : Phase) :
    ∃ m', Takes m ps (Run.enter p) [] (.ok ()) (ps ++ [p]) m' := by
  obtain ⟨m', hnote⟩ := takes_note m ps .debug
    s!"State: {(ps.getLast?.getD .idle).name} -> {p.name}"
  refine ⟨m', ?_, hnote.consults⟩
  have hget : m.phased ps (get : RunT (StateM Machine) _) = ((.ok ps, ps), m) := rfl
  rw [Run.enter, phased_bind_of_ok hget, phased_bind_of_ok hnote.eq]
  rfl

/-! ### Checks -/

def Settings.compilerCall (s : Settings) : Except CommandError ToolCall :=
  (compilerArguments s.compiler s.tsconfig).map fun arguments => ⟨arguments, s.root, s.timeout⟩

/-- What a run of the compiler gave, by its reply. -/
def Settings.compilerResult (s : Settings) (c : ToolCall) :
    ToolResult → Except CompilerError CompilerResult
  | .notFound => .error ((c.program?.map .notFound).getD .noProgram)
  | .denied => .error ((c.program?.map .denied).getD .noProgram)
  | .timedOut => .error (.timedOut s.timeout)
  | .broken f => .error (.call f)
  | .finished stdout stderr code => .ok ⟨stdout ++ '\n' :: stderr, code, c.arguments⟩

def Settings.checked (s : Settings) (r : CompilerResult) : List Diagnostic × CompilerResult :=
  (diagnosticsOf s.root.text true r.output, r)

/-- What a check makes of the reply of the compiler. -/
def Settings.checkResult (s : Settings) (c : ToolCall) (reply : ToolResult) :
    Except CompilerError (List Diagnostic × CompilerResult) :=
  (s.compilerResult c reply).map s.checked

theorem gives_runCompiler {arguments : List Text}
    (h : compilerArguments s.compiler s.tsconfig = .ok arguments) :
    Gives m (runCompiler s) [⟨arguments, s.root, s.timeout⟩]
      (s.compilerResult ⟨arguments, s.root, s.timeout⟩
        (m.start ⟨arguments, s.root, s.timeout⟩).1) := by
  rw [runCompiler, h]
  refine (gives_log m _).bind fun m' hm' => ?_
  refine (gives_start m' _).bind fun m'' _ => ?_
  rw [hm'.reply]
  cases (m.start ⟨arguments, s.root, s.timeout⟩).1 with
  | finished stdout stderr code => exact (gives_log m'' _).bind fun m _ => gives_pure m _
  | notFound | denied | timedOut | broken => exact gives_pure m'' _

theorem gives_check_of_error {e : CommandError} (h : s.compilerCall = .error e) :
    Gives m (check s) [] (.error (.command e)) := by
  rw [Settings.compilerCall] at h
  rw [check, runCompiler]
  cases harguments : compilerArguments s.compiler s.tsconfig with
  | error e' =>
    rw [harguments] at h
    rw [Except.error.inj h]
    exact ⟨rfl, .refl m⟩
  | ok arguments =>
    rw [harguments] at h
    cases h

theorem gives_check (h : s.compilerCall = .ok c) :
    Gives m (check s) [c] (s.checkResult c (m.start c).1) := by
  rw [Settings.compilerCall] at h
  cases harguments : compilerArguments s.compiler s.tsconfig with
  | error e =>
    rw [harguments] at h
    cases h
  | ok arguments =>
    rw [harguments] at h
    rw [← Except.ok.inj h]
    refine (gives_runCompiler harguments).bind fun m' _ => ?_
    cases (m.start ⟨arguments, s.root, s.timeout⟩).1 with
    | finished stdout stderr code =>
      exact (gives_logAll m' _).bind fun m _ => gives_pure m _
    | notFound | denied | timedOut | broken => exact gives_pure m' _

theorem takes_check_of_ok {r : List Diagnostic × CompilerResult} (ps : List Phase)
    (h : Gives m (check s) cs (.ok r)) : ∃ m', Takes m ps (Run.check s) cs (.ok r) ps m' := by
  rw [← List.append_nil cs]
  exact ⟨_, (h.takes ps).bind (takes_pure _ ps r)⟩

theorem takes_check_of_error {e : CompilerError} (ps : List Phase)
    (h : Gives m (check s) cs (.error e)) :
    ∃ m', Takes m ps (Run.check s) cs (.error (.compiler e)) ps m' := by
  rw [← List.append_nil cs]
  exact ⟨_, (h.takes ps).bind ⟨phased_throw _ ps (.compiler e), .refl _⟩⟩

/-! ### The fix pass and the end -/

theorem phased_fix_of_ok {ds : List Diagnostic} {b : Batch} (ps : List Phase)
    (h : m.run (fixPass s ds) = (.ok b, m')) :
    m.phased ps (Run.fix s ds) = ((.ok b, ps), m') := by
  rw [Run.fix, phased_bind_of_ok (phased_perform m ps _), h]
  rfl

theorem phased_fix_of_error {ds : List Diagnostic} {e : PassError} (ps : List Phase)
    (h : m.run (fixPass s ds) = (.error e, m')) :
    m.phased ps (Run.fix s ds) = ((.error (.fix e), ps), m') := by
  rw [Run.fix, phased_bind_of_ok (phased_perform m ps _), h]
  rfl

theorem takes_finish (m : Machine) (ps : List Phase) (r : RunReport) :
    ∃ m' t, Takes m ps (Run.finish r) []
      (.ok { r with phases := ps ++ [.done], finished := some t }) (ps ++ [.done]) m' := by
  obtain ⟨m', henter⟩ := takes_enter m ps .done
  have hget : m'.phased (ps ++ [.done]) (get : RunT (StateM Machine) _) =
    ((.ok (ps ++ [.done]), ps ++ [.done]), m') := rfl
  refine ⟨m', m'.clock, ?_, henter.consults⟩
  rw [Run.finish, phased_bind_of_ok henter.eq, phased_bind_of_ok hget,
    phased_bind_of_ok ((gives_now m').takes _).eq]
  rfl

theorem takes_note_finish (m : Machine) (ps : List Phase) (level : LogLevel) (text : String)
    (r : RunReport) : ∃ m' t, Takes m ps (Run.note level text >>= fun _ => Run.finish r) []
      (.ok { r with phases := ps ++ [.done], finished := some t }) (ps ++ [.done]) m' := by
  obtain ⟨m₁, hnote⟩ := takes_note m ps level text
  obtain ⟨m', t, hfinish⟩ := takes_finish m₁ ps r
  exact ⟨m', t, hnote.bind hfinish⟩

end ImportRepair
