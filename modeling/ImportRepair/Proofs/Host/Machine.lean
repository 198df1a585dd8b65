import ImportRepair.Host.Machine
import ImportRepair.Proofs.Host.Disk

/-!
# Programs on a machine

What a program does to a machine is told part by part: which tools it starts,
with the results that these have; whether it only looks at files; and whether it
writes to one file only.  The log is left out throughout.
-/

namespace ImportRepair

variable {α β : Type} {m m' m'' : Machine} {p : Path} {octets : List UInt8}

namespace Machine

/-- What a program gives, and the machine after it. -/
def run (m : Machine) (program : StateM Machine α) : α × Machine := (StateT.run program m).run

@[simp] theorem run_pure (m : Machine) (a : α) : m.run (pure a) = (a, m) := rfl

@[simp] theorem run_bind (m : Machine) (x : StateM Machine α) (f : α → StateM Machine β) :
    m.run (x >>= f) = (m.run x).2.run (f (m.run x).1) := rfl

/-! ### The log -/

/-- The second machine is the first one with another log. -/
def OnlyLogs (m m' : Machine) : Prop := ∃ log, m' = { m with log }

theorem OnlyLogs.refl (m : Machine) : OnlyLogs m m := ⟨m.log, rfl⟩

theorem OnlyLogs.trans (h : OnlyLogs m m') (h' : OnlyLogs m' m'') : OnlyLogs m m'' := by
  obtain ⟨log, rfl⟩ := h
  obtain ⟨log', rfl⟩ := h'
  exact ⟨log', rfl⟩

/-- The machine after one more entry in its log. -/
def logged (m : Machine) (r : LogRecord) : Machine := { m with log := m.log ++ [r] }

theorem onlyLogs_log (m : Machine) (r : LogRecord) : OnlyLogs m (m.run (Host.log r)).2 :=
  ⟨m.log ++ [r], rfl⟩

theorem onlyLogs_logAll (m : Machine) (records : List LogRecord) :
    OnlyLogs m (m.run (Host.logAll records)).2 := by
  induction records generalizing m with
  | nil => exact .refl m
  | cons r records ih => exact (onlyLogs_log m r).trans (ih _)

/-! ### Programs that look -/

/-- The program does nothing but look at files and log, and gives what depends only on the files
    and the working directory. -/
def Looks (program : StateM Machine α) (view : Disk → Path → α) : Prop :=
  ∀ m : Machine, (m.run program).1 = view m.disk m.workingDirectory ∧ OnlyLogs m (m.run program).2

theorem looks_pure (a : α) : Looks (pure a) fun _ _ => a := fun m => ⟨rfl, .refl m⟩

theorem looks_workingDirectory : Looks Host.workingDirectory fun _ here => here :=
  fun m => ⟨rfl, .refl m⟩

theorem looks_look (p : Path) : Looks (Host.look p) fun d here => d.look here p :=
  fun m => ⟨rfl, .refl m⟩

theorem looks_log (r : LogRecord) : Looks (Host.log r) fun _ _ => () :=
  fun m => ⟨rfl, onlyLogs_log m r⟩

theorem Looks.congr {x : StateM Machine α} {v w : Disk → Path → α} (h : Looks x v)
    (heq : ∀ d here, v d here = w d here) : Looks x w :=
  fun m => ⟨(h m).1.trans (heq _ _), (h m).2⟩

theorem Looks.bind {x : StateM Machine α} {f : α → StateM Machine β} {v : Disk → Path → α}
    {w : α → Disk → Path → β} (hx : Looks x v) (hf : ∀ a, Looks (f a) (w a)) :
    Looks (x >>= f) fun d here => w (v d here) d here := by
  intro m
  obtain ⟨hvalue, hlogs⟩ := hx m
  obtain ⟨hvalue', hlogs'⟩ := hf (m.run x).1 (m.run x).2
  refine ⟨?_, hlogs.trans hlogs'⟩
  rw [run_bind, hvalue', hvalue]
  obtain ⟨log, heq⟩ := hlogs
  rw [heq]

/-! ### Programs that leave no trace -/

/-- The program only looks at the machine; not even its log is changed. -/
def LeavesAlone (program : StateM Machine α) : Prop := ∀ m : Machine, (m.run program).2 = m

theorem leavesAlone_pure (a : α) : LeavesAlone (pure a) := fun _ => rfl

theorem leavesAlone_workingDirectory : LeavesAlone Host.workingDirectory := fun _ => rfl

theorem leavesAlone_look (p : Path) : LeavesAlone (Host.look p) := fun _ => rfl

theorem LeavesAlone.bind {x : StateM Machine α} {f : α → StateM Machine β} (hx : LeavesAlone x)
    (hf : ∀ a, LeavesAlone (f a)) : LeavesAlone (x >>= f) := by
  intro m
  rw [run_bind, hf, hx]

theorem LeavesAlone.run_eq {x : StateM Machine α} {a : α} (hx : LeavesAlone x)
    (h : (m.run x).1 = a) : m.run x = (a, m) := Prod.ext h (hx m)

theorem leavesAlone_leadsTo (accepts : NodeKind → Bool) (p : Path) :
    LeavesAlone (Host.leadsTo accepts p) := by
  refine (leavesAlone_look p).bind fun r => ?_
  cases r with
  | ok kind => exact leavesAlone_pure _
  | error f =>
    dsimp only
    split
    · exact leavesAlone_pure _
    · exact leavesAlone_pure _

theorem leavesAlone_resolve (p : Path) : LeavesAlone (Host.resolve p) :=
  leavesAlone_workingDirectory.bind fun _ => leavesAlone_pure _

/-! ### Programs that may fail -/

section Failing

variable {ε : Type} {x : StateM Machine (Except ε α)} {f : α → ExceptT ε (StateM Machine) β}

theorem run_mk_bind_ok {a : α} (h : m.run x = (.ok a, m')) :
    m.run (ExceptT.mk x >>= f).run = m'.run (f a).run := by
  rw [ExceptT.run_bind, ExceptT.run_mk, run_bind, h]

theorem run_mk_bind_error {e : ε} (h : m.run x = (.error e, m')) :
    m.run (ExceptT.mk x >>= f).run = (.error e, m') := by
  rw [ExceptT.run_bind, ExceptT.run_mk, run_bind, h]
  rfl

end Failing

/-! ### Tools -/

/-- The two machines have started the same tools and have the same results left. -/
structure SameTools (m m' : Machine) : Prop where
  calls : m.calls = m'.calls
  compiler : m.compiler = m'.compiler
  linter : m.linter = m'.linter

theorem SameTools.refl (m : Machine) : SameTools m m := ⟨rfl, rfl, rfl⟩

theorem SameTools.trans (h : SameTools m m') (h' : SameTools m' m'') : SameTools m m'' :=
  ⟨h.calls.trans h'.calls, h.compiler.trans h'.compiler, h.linter.trans h'.linter⟩

theorem SameTools.symm (h : SameTools m m') : SameTools m' m :=
  ⟨h.calls.symm, h.compiler.symm, h.linter.symm⟩

theorem OnlyLogs.sameTools (h : OnlyLogs m m') : SameTools m m' := by
  obtain ⟨log, rfl⟩ := h
  exact ⟨rfl, rfl, rfl⟩

/-- A call is noted, and takes a result away from one of the tools at most. -/
theorem exists_start_eq (m : Machine) (c : ToolCall) : ∃ compiler linter,
    (m.start c).2 = { m with calls := m.calls ++ [c], compiler, linter } := by
  unfold start
  split
  · exact ⟨m.compiler, _, rfl⟩
  · exact ⟨_, m.linter, rfl⟩

theorem calls_start (m : Machine) (c : ToolCall) : (m.start c).2.calls = m.calls ++ [c] := by
  obtain ⟨compiler, linter, hstart⟩ := exists_start_eq m c
  rw [hstart]

/-- A call with the character NUL in an argument breaks off. -/
theorem start_of_holdsNul {c : ToolCall} (h : c.holdsNul = true) (m : Machine) :
    (m.start c).1 = .broken .nulCharacter := by
  have hresult (r : ToolResult) : c.resultOf r = .broken .nulCharacter := if_pos h
  unfold start
  split <;> exact hresult _

theorem SameTools.start (h : SameTools m m') (c : ToolCall) :
    (m.start c).1 = (m'.start c).1 ∧ SameTools (m.start c).2 (m'.start c).2 := by
  obtain ⟨hcalls, hcompiler, hlinter⟩ := h
  unfold Machine.start
  rw [hcalls, hcompiler, hlinter]
  split <;> exact ⟨rfl, rfl, rfl, rfl⟩

def afterCalls (m : Machine) (cs : List ToolCall) : Machine := cs.foldl (fun m c => (m.start c).2) m

/-- The results of some calls, made one after the other. -/
def replies (m : Machine) : List ToolCall → List ToolResult
  | [] => []
  | c :: cs => (m.start c).1 :: replies (m.start c).2 cs

theorem SameTools.replies (h : SameTools m m') (cs : List ToolCall) :
    m.replies cs = m'.replies cs := by
  induction cs generalizing m m' with
  | nil => rfl
  | cons c cs ih =>
    obtain ⟨hreply, hrest⟩ := h.start c
    rw [Machine.replies, Machine.replies, hreply, ih hrest]

/-- As to tools, the second machine is the first one after some calls. -/
def Started (m : Machine) (cs : List ToolCall) (m' : Machine) : Prop :=
  SameTools (m.afterCalls cs) m'

variable {cs cs' : List ToolCall}

theorem started_start (m : Machine) (c : ToolCall) : Started m [c] (m.start c).2 := .refl _

theorem SameTools.afterCalls (h : SameTools m m') (cs : List ToolCall) :
    SameTools (m.afterCalls cs) (m'.afterCalls cs) := by
  induction cs generalizing m m' with
  | nil => exact h
  | cons c cs ih => exact ih (h.start c).2

theorem Started.trans (h : Started m cs m') (h' : Started m' cs' m'') :
    Started m (cs ++ cs') m'' := by
  unfold Started Machine.afterCalls at *
  rw [List.foldl_append]
  exact (h.afterCalls cs').trans h'

theorem Started.calls_eq (h : Started m cs m') : m'.calls = m.calls ++ cs := by
  rw [← h.calls]
  clear h
  induction cs generalizing m with
  | nil => exact (List.append_nil _).symm
  | cons c cs ih =>
    change ((m.start c).2.afterCalls cs).calls = _
    rw [ih, calls_start, List.append_assoc, List.singleton_append]

theorem Started.replies_append (h : Started m cs m') (cs' : List ToolCall) :
    m.replies (cs ++ cs') = m.replies cs ++ m'.replies cs' := by
  have hsplit : m.replies (cs ++ cs') = m.replies cs ++ (m.afterCalls cs).replies cs' := by
    clear h
    induction cs generalizing m with
    | nil => rfl
    | cons c cs ih =>
      change _ :: (m.start c).2.replies (cs ++ cs') = _
      rw [ih]
      rfl
  rw [hsplit, h.replies]

/-- Some tools are started, and nothing else is done that shows but in the log. -/
structure Consults (m : Machine) (cs : List ToolCall) (m' : Machine) : Prop where
  started : Started m cs m'
  disk : m.disk = m'.disk
  here : m.workingDirectory = m'.workingDirectory

theorem OnlyLogs.consults (h : OnlyLogs m m') : Consults m [] m' := by
  obtain ⟨log, rfl⟩ := h
  exact ⟨⟨rfl, rfl, rfl⟩, rfl, rfl⟩

theorem consults_start (m : Machine) (c : ToolCall) : Consults m [c] (m.start c).2 := by
  obtain ⟨compiler, linter, hstart⟩ := exists_start_eq m c
  refine ⟨started_start m c, ?_, ?_⟩
  · rw [hstart]
  · rw [hstart]

theorem Consults.trans (h : Consults m cs m') (h' : Consults m' cs' m'') :
    Consults m (cs ++ cs') m'' :=
  ⟨h.started.trans h'.started, h.disk.trans h'.disk, h.here.trans h'.here⟩

/-- After the same calls machines differ in their logs only. -/
theorem Consults.cancel (h : Consults m cs m') (h' : Consults m cs m'') : Consults m' [] m'' :=
  ⟨SameTools.trans h.started.symm h'.started, h.disk.symm.trans h'.disk, h.here.symm.trans h'.here⟩

theorem Consults.refl (m : Machine) : Consults m [] m := ⟨.refl m, rfl, rfl⟩

/-- The reply to a call does not depend on the log. -/
theorem Consults.reply (h : Consults m [] m') (c : ToolCall) : (m'.start c).1 = (m.start c).1 :=
  (SameTools.start h.started c).1.symm

/-- The program gives a value and consults some tools on the way. -/
structure Gives (m : Machine) (program : StateM Machine α) (cs : List ToolCall) (a : α) :
    Prop where
  value : (m.run program).1 = a
  consults : Consults m cs (m.run program).2

theorem gives_pure (m : Machine) (a : α) : Gives m (pure a) [] a := ⟨rfl, .refl m⟩

theorem gives_workingDirectory (m : Machine) :
    Gives m Host.workingDirectory [] m.workingDirectory := ⟨rfl, .refl m⟩

theorem gives_now (m : Machine) : Gives m Host.now [] m.clock := ⟨rfl, .refl m⟩

theorem gives_log (m : Machine) (r : LogRecord) : Gives m (Host.log r) [] () :=
  ⟨rfl, (onlyLogs_log m r).consults⟩

theorem gives_logAll (m : Machine) (records : List LogRecord) :
    Gives m (Host.logAll records) [] () := ⟨rfl, (onlyLogs_logAll m records).consults⟩

theorem gives_start (m : Machine) (c : ToolCall) : Gives m (Host.start c) [c] (m.start c).1 :=
  ⟨rfl, consults_start m c⟩

theorem Gives.bind {x : StateM Machine α} {f : α → StateM Machine β} {a : α} {b : β}
    (hx : Gives m x cs a) (hf : ∀ m', Consults m cs m' → Gives m' (f a) cs' b) :
    Gives m (x >>= f) (cs ++ cs') b := by
  obtain ⟨hvalue, hconsults⟩ := hx
  obtain ⟨hvalue', hconsults'⟩ := hf _ hconsults
  rw [← hvalue] at hvalue' hconsults'
  exact ⟨hvalue', hconsults.trans hconsults'⟩

/-! ### Programs that write to one file -/

/-- The place to which a path leads, if it leads anywhere. -/
def placeOf (m : Machine) (p : Path) : Location := (p.resolve m.workingDirectory).names

/-- What the file at a path holds. -/
def content? (m : Machine) (p : Path) : Except FileFault (List UInt8) :=
  m.disk.content m.workingDirectory p

/-- What comes of reading it. -/
def read? (m : Machine) (p : Path) : Except FileFault (List UInt8) :=
  m.disk.read m.workingDirectory p

def limitsOf (m : Machine) (p : Path) : Limits := m.disk.limitsAt (m.placeOf p)

theorem Consults.content?_eq (h : Consults m cs m') (p : Path) :
    m'.content? p = m.content? p := by
  rw [content?, content?, h.disk, h.here]

theorem Consults.read?_eq (h : Consults m cs m') (p : Path) : m'.read? p = m.read? p := by
  rw [read?, read?, h.disk, h.here]

theorem exists_at?_of_content? (h : m.content? p = .ok octets) :
    m.disk.locate m.workingDirectory p = .ok (m.placeOf p) ∧
      m.disk.at? (m.placeOf p) = some (.file octets) := by
  rw [content?, Disk.content] at h
  cases hl : m.disk.locate m.workingDirectory p with
  | error f =>
    rw [hl] at h
    cases h
  | ok l =>
    have hplace : l = m.placeOf p := Disk.names_resolve_of_locate hl
    rw [hl] at h
    simp only [bind, Except.bind] at h
    rw [hplace] at h
    refine ⟨by rw [hplace], ?_⟩
    cases hat : m.disk.at? (m.placeOf p) with
    | none =>
      rw [hat] at h
      cases h
    | some node =>
      rw [hat] at h
      cases node with
      | file o => rw [Except.ok.inj h]
      | directory => cases h

theorem read?_of_content? (h : m.content? p = .ok octets) :
    m.read? p = (m.limitsOf p).reveal octets :=
  Disk.read_of_content (exists_at?_of_content? h).1 h

/-- The second machine differs from the first one in its log and in what the file at one place
    holds. -/
structure Rewrites (l : Location) (m m' : Machine) : Prop where
  here : m.workingDirectory = m'.workingDirectory
  tools : SameTools m m'
  shape : m.disk.SameShape m'.disk
  elsewhere : ∀ l', l' ≠ l → m.disk.at? l' = m'.disk.at? l'

variable {l : Location}

theorem Rewrites.refl (l : Location) (m : Machine) : Rewrites l m m :=
  ⟨rfl, .refl m, .refl _, fun _ _ => rfl⟩

theorem OnlyLogs.rewrites (h : OnlyLogs m m') (l : Location) : Rewrites l m m' := by
  obtain ⟨log, rfl⟩ := h
  exact ⟨rfl, ⟨rfl, rfl, rfl⟩, .refl _, fun _ _ => rfl⟩

theorem Rewrites.trans (h : Rewrites l m m') (h' : Rewrites l m' m'') : Rewrites l m m'' :=
  ⟨h.here.trans h'.here, h.tools.trans h'.tools, h.shape.trans h'.shape,
    fun l' hl' => (h.elsewhere l' hl').trans (h'.elsewhere l' hl')⟩

theorem OnlyLogs.content?_eq (h : OnlyLogs m m') (p : Path) : m'.content? p = m.content? p := by
  obtain ⟨log, rfl⟩ := h
  rfl

theorem OnlyLogs.read?_eq (h : OnlyLogs m m') (p : Path) : m'.read? p = m.read? p :=
  h.consults.read?_eq p

theorem OnlyLogs.placeOf_eq (h : OnlyLogs m m') (p : Path) : m'.placeOf p = m.placeOf p := by
  obtain ⟨log, rfl⟩ := h
  rfl

theorem Rewrites.content?_eq (h : Rewrites l m m') (hcontent : m.content? p = .ok octets)
    (hne : m.placeOf p ≠ l) : m'.content? p = .ok octets := by
  obtain ⟨hlocate, hat⟩ := exists_at?_of_content? hcontent
  rw [h.elsewhere _ hne] at hat
  rw [h.shape.locate, h.here] at hlocate
  exact Disk.content_of_at? hlocate hat

theorem OnlyLogs.limitsOf_eq (h : OnlyLogs m m') (p : Path) : m'.limitsOf p = m.limitsOf p := by
  obtain ⟨log, rfl⟩ := h
  rfl

theorem Consults.limitsOf_eq (h : Consults m cs m') (p : Path) :
    m'.limitsOf p = m.limitsOf p := by
  rw [limitsOf, limitsOf, placeOf, placeOf, h.disk, h.here]

theorem Rewrites.limitsOf_eq (h : Rewrites l m m') (p : Path) :
    m'.limitsOf p = m.limitsOf p := by
  rw [limitsOf, limitsOf, placeOf, placeOf, ← h.here, h.shape.limitsAt]

/-- Writing over a file comes to what its limits say, and disturbs no other file. -/
theorem write_of_content? (h : m.content? p = .ok octets) (new : List UInt8) :
    (m.write p new).1 = ((m.limitsOf p).overwrite octets new).1 ∧
      (m.write p new).2.content? p = .ok ((m.limitsOf p).overwrite octets new).2 ∧
      Rewrites (m.placeOf p) m (m.write p new).2 := by
  obtain ⟨hlocate, hat⟩ := exists_at?_of_content? h
  have hwrite : m.disk.write m.workingDirectory p new =
      (((m.limitsOf p).overwrite octets new).1,
        m.disk.set (m.placeOf p) (.file ((m.limitsOf p).overwrite octets new).2)) :=
    Disk.write_of_at? hlocate hat
  have hshape : m.disk.SameShape
      (m.disk.set (m.placeOf p) (.file ((m.limitsOf p).overwrite octets new).2)) :=
    Disk.sameShape_set_file hat
  rw [write, hwrite]
  refine ⟨rfl, ?_, rfl, ⟨rfl, rfl, rfl⟩, hshape, fun l' hl' => (Disk.at?_set_of_ne hl').symm⟩
  refine Disk.content_of_at? (l := m.placeOf p) ?_ (Disk.at?_set_self (Disk.ne_nil_of_at? hat))
  rw [← hshape.locate]
  exact hlocate

end Machine

end ImportRepair
