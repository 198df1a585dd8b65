import ImportRepair.Fix.Pass
import ImportRepair.Proofs.Host.Machine

/-!
# What a task does to its file

What is to be changed in a file follows from what the file holds, from the
evidence about it, and from the settings; that the run is dry plays no part in
it.  A dry run shows the change and a real run stores it, or fails to.
-/

namespace ImportRepair

open Machine

variable {s : Settings} {method : FixMethod} {dryRun : Bool} {file : Text} {p : Path}
variable {m m' : Machine} {octets : List UInt8} {own evidence : List Evidence} {t : FixTask}

/-! ### Findings -/

/-- What is found in a file: an error, nothing to change, or a text with the fix of it. -/
abbrev Finding : Type := Except SourceError (Option (Text × TextFix))

/-- The text of a file, by what comes of reading it. -/
def sourceOf : Except FileFault (List UInt8) → Except SourceError Text
  | .error f => .error (.unreadable f)
  | .ok octets => (Utf8.decode octets).mapError .encoding

def FixMethod.find (method : FixMethod) (x : Except FileFault (List UInt8)) : Finding :=
  match sourceOf x with
  | .error e => .error e
  | .ok before =>
    match method.obstacle with
    | some e => .error e
    | none => .ok (if (method.fix before).text = before then none
        else some (before, method.fix before))

/-- The method by which a file with these diagnostics is fixed. -/
def Settings.methodFor (s : Settings) (own : List Evidence) (ds : List Diagnostic) (file : Text) :
    FixMethod :=
  if lackPlaces ds then .heuristic s.flags.mergeDuplicates s.rules file
  else .certified s.flags (own ++ Evidence.ofDiagnostics ds) file

/-- What a task finds that has been given its own evidence, by what comes of reading its file. -/
def FixTask.find (s : Settings) (own : List Evidence) (t : FixTask)
    (x : Except FileFault (List UInt8)) : Finding :=
  if lackPlaces t.diagnostics && !s.heuristics then .ok none
  else (s.methodFor own t.diagnostics t.file).find x

/-- What a task comes to by its finding: the result, and the machine after it. -/
inductive TaskEnd (dryRun : Bool) (file : Text) (p : Path) (m : Machine) :
    Finding → FixResult → Machine → Prop
  | failed {e : SourceError} {message : String} {m' : Machine} (hlogs : OnlyLogs m m') :
      TaskEnd dryRun file p m (.error e) { file, error := some (e.message p), message } m'
  | kept {message : String} {m' : Machine} (hlogs : OnlyLogs m m') :
      TaskEnd dryRun file p m (.ok none) { file, message } m'
  /-- The change is shown. -/
  | shown {before : Text} {f : TextFix} {message : String} {m' : Machine} (hdry : dryRun = true)
      (hlogs : OnlyLogs m m') :
      TaskEnd dryRun file p m (.ok (some (before, f)))
        { file, fixed := true, changeCount := f.changeCount, message, actions := f.actions
          diff := some (Diff.unified file before f.text) } m'
  /-- The change is made. -/
  | stored {before : Text} {f : TextFix} {message : String} {m' : Machine} (hdry : dryRun = false)
      (hcontent : m'.content? p = .ok (Utf8.encode f.text))
      (hrewrites : Rewrites (m.placeOf p) m m') :
      TaskEnd dryRun file p m (.ok (some (before, f)))
        { file, fixed := true, changeCount := f.changeCount, message, actions := f.actions } m'
  /-- The change cannot be made, or not be made as a whole. -/
  | unstored {before : Text} {f : TextFix} {fault : FileFault} {octets : List UInt8}
      {message : String} {m' : Machine} (hdry : dryRun = false)
      (hm : m.content? p = .ok octets)
      (hfails : ((m.limitsOf p).overwrite octets (Utf8.encode f.text)).1 = .error fault)
      (hcontent : m'.content? p =
        .ok ((m.limitsOf p).overwrite octets (Utf8.encode f.text)).2)
      (hrewrites : Rewrites (m.placeOf p) m m') :
      TaskEnd dryRun file p m (.ok (some (before, f)))
        { file, error := some ((SourceError.unwritable fault).message p), message } m'

/-- The device broke off the write of a fix.  The result says so, and the file holds the first part
    of the new text. -/
def BreaksOff (m : Machine) (p : Path) (finding : Finding) (r : FixResult) (m' : Machine) : Prop :=
  ∃ before f size e, finding = .ok (some (before, f)) ∧ (m.limitsOf p).room = some (size, e) ∧
    size < (Utf8.encode f.text).length ∧
    r.error = some ((SourceError.unwritable (.device e)).message p) ∧
    m'.content? p = .ok ((Utf8.encode f.text).take size)

theorem BreaksOff.congr {m₀ m₁ : Machine} {finding : Finding} {r : FixResult}
    (h : BreaksOff m p finding r m') (hlimits : m₀.limitsOf p = m.limitsOf p)
    (hcontent : m₁.content? p = m'.content? p) : BreaksOff m₀ p finding r m₁ := by
  obtain ⟨before, f, size, e, hfinding, hroom, hlt, herror, hpart⟩ := h
  exact ⟨before, f, size, e, hfinding, hlimits ▸ hroom, hlt, herror, hcontent.trans hpart⟩

/-- The results say the same of the file, but perhaps in other words. -/
structure FixResult.Agrees (r r' : FixResult) : Prop where
  file : r.file = r'.file
  fixed : r.fixed = r'.fixed
  changeCount : r.changeCount = r'.changeCount
  error : r.error = r'.error
  actions : r.actions = r'.actions

theorem FixResult.Agrees.refl (r : FixResult) : r.Agrees r := ⟨rfl, rfl, rfl, rfl, rfl⟩

/-- The limits of the file let the change that is found be made. -/
def Limits.Admits (limits : Limits) : Finding → Prop
  | .ok (some (_, f)) => ∀ old, (limits.overwrite old (Utf8.encode f.text)).1 = .ok ()
  | _ => True

/-- A file without limits can be changed in any way. -/
theorem Limits.admits_default (finding : Finding) : Limits.Admits {} finding := by
  cases finding with
  | error e => exact trivial
  | ok change =>
    cases change with
    | none => exact trivial
    | some change => exact fun _ => rfl

/-- By what is found in the file, the result shows how the contents change, or they do not. -/
def Foretells (file : Text) (r : FixResult) (old new : Except FileFault (List UInt8)) :
    Finding → Prop
  | .ok (some (before, f)) =>
    r.diff = some (Diff.unified file before f.text) ∧ new = .ok (Utf8.encode f.text)
  | _ => r.diff = none ∧ new = old

namespace TaskEnd

variable {finding : Finding} {r r' : FixResult} {m₁ m₁' : Machine} {dryRun' : Bool}

/-- Whether the run is dry does not matter for what the result says of the file, if the change can
    be made. -/
theorem agrees (h : TaskEnd dryRun file p m finding r m₁)
    (h' : TaskEnd dryRun' file p m' finding r' m₁') (hadmits : (m.limitsOf p).Admits finding)
    (hadmits' : (m'.limitsOf p).Admits finding) : r.Agrees r' := by
  cases h with
  | failed => cases h' with | failed => exact ⟨rfl, rfl, rfl, rfl, rfl⟩
  | kept => cases h' with | kept => exact ⟨rfl, rfl, rfl, rfl, rfl⟩
  | shown | stored => cases h' with
    | shown | stored => exact ⟨rfl, rfl, rfl, rfl, rfl⟩
    | unstored _ _ hfails => cases hfails.symm.trans (hadmits' _)
  | unstored _ _ hfails => cases hfails.symm.trans (hadmits _)

theorem foretells (h : TaskEnd true file p m finding r m₁)
    (h' : TaskEnd false file p m' finding r' m₁') (hadmits : (m'.limitsOf p).Admits finding) :
    Foretells file r (m'.content? p) (m₁'.content? p) finding := by
  cases h with
  | failed => cases h' with | failed hlogs => exact ⟨rfl, hlogs.content?_eq p⟩
  | kept => cases h' with | kept hlogs => exact ⟨rfl, hlogs.content?_eq p⟩
  | shown => cases h' with
    | shown hdry => cases hdry
    | stored _ hcontent => exact ⟨rfl, hcontent⟩
    | unstored _ _ hfails => cases hfails.symm.trans (hadmits _)
  | stored hdry | unstored hdry => cases hdry

end TaskEnd

/-! ### Carrying a finding through -/

/-- A program that comes to a result by what it has found, or fails so that its error would be the
    result. -/
def Carries (dryRun : Bool) (file : Text) (p : Path) (m : Machine) (finding : Finding)
    (out : Except SourceError FixResult × Machine) : Prop :=
  (∃ e, out.1 = .error e ∧ ∀ message m', OnlyLogs out.2 m' →
      TaskEnd dryRun file p m finding { file, error := some (e.message p), message } m') ∨
    ∃ r, out.1 = .ok r ∧ TaskEnd dryRun file p m finding r out.2

theorem run_loadSource (m : Machine) (p : Path) :
    m.run (loadSource p) = (sourceOf (m.read? p), m) := by
  have hread : m.run (Host.read p) = (m.read? p, m) := rfl
  rw [loadSource, run_bind, hread]
  cases m.read? p with
  | error f => rfl
  | ok octets =>
    dsimp only [sourceOf]
    cases Utf8.decode octets <;> rfl

theorem run_storeSource (hm : m.content? p = .ok octets) (t : Text) :
    m.run (storeSource p t) =
      (((m.limitsOf p).overwrite octets (Utf8.encode t)).1.mapError .unwritable,
        (m.write p (Utf8.encode t)).2) := by
  have hwrite : m.run (Host.write p (Utf8.encode t)) =
      (((m.limitsOf p).overwrite octets (Utf8.encode t)).1, (m.write p (Utf8.encode t)).2) :=
    Prod.ext (write_of_content? hm _).1 rfl
  rw [storeSource, run_bind, hwrite]
  dsimp only
  cases ((m.limitsOf p).overwrite octets (Utf8.encode t)).1 <;> rfl

/-- What has been logged before does not matter. -/
theorem TaskEnd.of_onlyLogs {m₀ : Machine} {finding : Finding} {r : FixResult}
    (hlogs : OnlyLogs m₀ m) (h : TaskEnd dryRun file p m finding r m') :
    TaskEnd dryRun file p m₀ finding r m' := by
  cases h with
  | failed h => exact .failed (hlogs.trans h)
  | kept h => exact .kept (hlogs.trans h)
  | shown hdry h => exact .shown hdry (hlogs.trans h)
  | stored hdry hcontent h =>
    rw [hlogs.placeOf_eq] at h
    exact .stored hdry hcontent ((hlogs.rewrites _).trans h)
  | unstored hdry hm hfails hcontent h =>
    rw [hlogs.content?_eq] at hm
    rw [hlogs.limitsOf_eq] at hfails hcontent
    rw [hlogs.placeOf_eq] at h
    exact .unstored hdry hm hfails hcontent ((hlogs.rewrites _).trans h)

theorem Carries.of_onlyLogs {m₀ : Machine} {finding : Finding}
    {out : Except SourceError FixResult × Machine} (h : Carries dryRun file p m finding out)
    (hlogs : OnlyLogs m₀ m) : Carries dryRun file p m₀ finding out := by
  rcases h with ⟨e, hvalue, hends⟩ | ⟨r, hvalue, hend⟩
  · exact .inl ⟨e, hvalue, fun message m' h => (hends message m' h).of_onlyLogs hlogs⟩
  · exact .inr ⟨r, hvalue, hend.of_onlyLogs hlogs⟩

theorem carries_log {finding : Finding} {x : StateM Machine (Except SourceError FixResult)}
    {r : LogRecord} (h : Carries dryRun file p (m.run (Host.log r)).2 finding
      ((m.run (Host.log r)).2.run x)) :
    Carries dryRun file p m finding (m.run (Host.log r >>= fun _ => x)) := by
  rw [run_bind]
  exact h.of_onlyLogs (onlyLogs_log m r)

theorem carries_store (hm : m.content? p = .ok octets) (before : Text) (f : TextFix) :
    Carries dryRun file p m (.ok (some (before, f)))
      (m.run (method.store dryRun file p before f)) := by
  cases dryRun with
  | true => exact .inr ⟨_, rfl, .shown rfl (.refl m)⟩
  | false =>
    obtain ⟨-, hcontent, hrewrites⟩ := write_of_content? hm (Utf8.encode f.text)
    rw [FixMethod.store, if_neg Bool.false_ne_true, run_bind, run_storeSource hm]
    cases hwrite : ((m.limitsOf p).overwrite octets (Utf8.encode f.text)).1 with
    | error fault =>
      refine .inl ⟨.unwritable fault, rfl, fun message m' hlogs => ?_⟩
      refine .unstored rfl hm hwrite ?_ (hrewrites.trans (hlogs.rewrites _))
      rw [hlogs.content?_eq]
      exact hcontent
    | ok _ =>
      rw [Limits.overwrite_of_ok hwrite] at hcontent
      have hlogs := onlyLogs_logAll (m.write p (Utf8.encode f.text)).2
        (method.writtenLog (method.written (method.sentence f.actions)))
      dsimp only [Except.mapError]
      rw [run_bind, run_pure]
      refine .inr ⟨_, rfl, .stored rfl ?_ (hrewrites.trans (hlogs.rewrites _))⟩
      rw [hlogs.content?_eq, hcontent]

theorem carries_apply (hm : m.content? p = .ok octets) :
    Carries dryRun file p m (method.find (m.read? p)) (m.run (method.apply dryRun file p)) := by
  rw [FixMethod.find, FixMethod.apply, run_bind, run_loadSource]
  cases sourceOf (m.read? p) with
  | error e => exact .inl ⟨e, rfl, fun _ _ h => .failed h⟩
  | ok before =>
    have hlogs := onlyLogs_logAll m (method.log before)
    have hm' := (hlogs.content?_eq p).trans hm
    dsimp only
    rw [run_bind]
    refine Carries.of_onlyLogs ?_ hlogs
    cases method.obstacle with
    | some e => exact .inl ⟨e, rfl, fun _ _ h => .failed h⟩
    | none =>
      dsimp only
      split
      · rw [run_bind, run_pure]
        exact .inr ⟨_, rfl, .kept (onlyLogs_logAll _ _)⟩
      · exact carries_store hm' before (method.fix before)

theorem carries_settle {finding : Finding} {source : LogSource}
    {x : StateM Machine (Except SourceError FixResult)}
    (h : Carries dryRun file p m finding (m.run x)) :
    Carries dryRun file p m finding (m.run (x >>= settle source file p)) := by
  rw [run_bind]
  rcases h with ⟨e, hvalue, hends⟩ | ⟨r, hvalue, hend⟩
  · rw [hvalue, settle]
    dsimp only
    split
    · rw [run_bind, run_pure]
      exact .inr ⟨_, rfl, hends _ _ (onlyLogs_log _ _)⟩
    · exact .inl ⟨e, rfl, hends⟩
  · rw [hvalue]
    exact .inr ⟨r, rfl, hend⟩

theorem carries_fixSource (hm : m.content? t.path = .ok octets) :
    Carries s.dryRun t.file t.path m (t.find s own (m.read? t.path))
      (m.run (fixSource s t.file t.diagnostics t.path own)) := by
  unfold FixTask.find Settings.methodFor fixSource
  cases hplaces : lackPlaces t.diagnostics with
  | false =>
    simp only [Bool.false_and, Bool.false_eq_true, if_false]
    exact carries_settle (carries_apply hm)
  | true =>
    cases s.heuristics with
    | false => exact .inr ⟨_, rfl, .kept (.refl m)⟩
    | true =>
      simp only [fixWithoutEvidence, hplaces, Bool.not_true, Bool.and_false, Bool.false_eq_true,
        if_true, if_false]
      apply carries_log
      rw [← (onlyLogs_log m _).read?_eq]
      exact carries_settle (carries_apply (((onlyLogs_log m _).content?_eq _).trans hm))

/-- **A task comes to what it has found.** -/
theorem taskEnd_run (s : Settings) (evidence : List Evidence)
    (hm : m.content? t.path = .ok octets) :
    TaskEnd s.dryRun t.file t.path m
      (t.find s (evidenceFor s evidence m.workingDirectory t.path) (m.read? t.path))
      (m.run (t.run s evidence)).1 (m.run (t.run s evidence)).2 := by
  have hown : Carries s.dryRun t.file t.path m
      (t.find s (evidenceFor s evidence m.workingDirectory t.path) (m.read? t.path))
      (m.run (fixSource s t.file t.diagnostics t.path
        (evidenceFor s evidence m.workingDirectory t.path))) := carries_fixSource hm
  rw [FixTask.run, run_bind]
  have hhere : m.run Host.workingDirectory = (m.workingDirectory, m) := rfl
  rw [hhere]
  dsimp only
  rw [run_bind]
  rcases hown with ⟨e, hvalue, hends⟩ | ⟨r, hvalue, hend⟩
  · rw [hvalue]
    dsimp only
    rw [run_bind, run_pure]
    exact hends _ _ (onlyLogs_log _ _)
  · rw [hvalue]
    exact hend

end ImportRepair
