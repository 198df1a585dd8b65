import ImportRepair.Fix.Pass
import ImportRepair.Host.Machine

/-!
# Programs as scripts

A program for hosts runs on any host, so it also runs on the host of scripts,
where nothing happens: there a program is the request that it makes next and
what it does with each answer.  Performed on a machine, the script of a program
has the effects of the program.  Between two requests of a script other scripts
may have their turn.
-/

namespace ImportRepair

/-! ### Scripts -/

/-- What a program may ask of its host. -/
inductive Request where
  | workingDirectory
  | look (p : Path)
  | read (p : Path)
  | write (p : Path) (octets : List UInt8)
  | start (c : ToolCall)
  | now
  | log (r : LogRecord)
  | print (line : String)

namespace Request

def Answer : Request → Type
  | workingDirectory => Path
  | look _ => Except FileFault NodeKind
  | read _ => Except FileFault (List UInt8)
  | write _ _ => Except FileFault Unit
  | start _ => ToolResult
  | now => Instant
  | log _ | print _ => Unit

def perform : (q : Request) → StateM Machine q.Answer
  | workingDirectory => Host.workingDirectory
  | look p => Host.look p
  | read p => Host.read p
  | write p octets => Host.write p octets
  | start c => Host.start c
  | now => Host.now
  | log r => Host.log r
  | print line => Host.print line

end Request

inductive Script (α : Type) where
  | done (a : α)
  | ask (q : Request) (next : q.Answer → Script α)

namespace Script

variable {α β : Type} {x : Script α} {f : α → Script β} {p : Path}

def bind (x : Script α) (f : α → Script β) : Script β :=
  match x with
  | done a => f a
  | ask q next => ask q fun r => bind (next r) f

instance : Monad Script where
  pure := done
  bind := bind

instance : Host Script where
  workingDirectory := ask .workingDirectory done
  look p := ask (.look p) done
  read p := ask (.read p) done
  write p octets := ask (.write p octets) done
  start c := ask (.start c) done
  now := ask .now done
  log r := ask (.log r) done
  print line := ask (.print line) done

/-- All requests of the script, one after the other, on a machine. -/
def perform : Script α → StateM Machine α
  | done a => pure a
  | ask q next => q.perform >>= fun r => perform (next r)

theorem perform_pure (a : α) : perform (pure a : Script α) = pure a := rfl

theorem perform_bind : perform (x >>= f) = perform x >>= fun a => perform (f a) := by
  induction x with
  | done a =>
    change perform (f a) = (pure a : StateM Machine α) >>= fun a => perform (f a)
    rw [pure_bind]
  | ask q next ih =>
    change (q.perform >>= fun r => perform (next r >>= f)) = _
    rw [perform, bind_assoc]
    exact bind_congr ih

/-! ### Scripts of a task -/

theorem perform_logAll (records : List LogRecord) :
    perform (Host.logAll records : Script Unit) = Host.logAll records := by
  induction records with
  | nil => rfl
  | cons r records ih =>
    change perform ((Host.log r : Script Unit) >>= fun _ => Host.logAll records) =
      Host.log r >>= fun _ => Host.logAll records
    rw [perform_bind, ih]
    rfl

theorem perform_loadSource (p : Path) :
    perform (loadSource p : Script _) = loadSource p := by
  rw [loadSource, perform_bind, loadSource]
  apply bind_congr
  intro r
  cases r with
  | error f => rfl
  | ok octets =>
    dsimp only
    cases Utf8.decode octets <;> rfl

theorem perform_storeSource (p : Path) (t : Text) :
    perform (storeSource p t : Script _) = storeSource p t := by
  rw [storeSource, perform_bind, storeSource]
  apply bind_congr
  intro r
  cases r <;> rfl

theorem perform_store (method : FixMethod) (dryRun : Bool) (file : Text) (p : Path)
    (before : Text) (fix : TextFix) :
    perform (method.store dryRun file p before fix : Script _) =
      method.store dryRun file p before fix := by
  rw [FixMethod.store, FixMethod.store]
  cases dryRun with
  | true => rfl
  | false =>
    simp only [Bool.false_eq_true, if_false, perform_bind, perform_storeSource]
    apply bind_congr
    intro r
    cases r with
    | error e => rfl
    | ok u => simp only [perform_bind, perform_logAll, perform_pure]

theorem perform_apply (method : FixMethod) (dryRun : Bool) (file : Text) (p : Path) :
    perform (method.apply dryRun file p : Script _) = method.apply dryRun file p := by
  rw [FixMethod.apply, FixMethod.apply, perform_bind, perform_loadSource]
  apply bind_congr
  intro r
  cases r with
  | error e => rfl
  | ok before =>
    simp only [perform_bind, perform_logAll]
    apply bind_congr
    intro _
    cases method.obstacle with
    | some e => rfl
    | none =>
      dsimp only
      split
      · simp only [perform_bind, perform_logAll, perform_pure]
      · exact perform_store method dryRun file p before _

theorem perform_settle (source : LogSource) (file : Text) (p : Path)
    (r : Except SourceError FixResult) :
    perform (settle source file p r : Script _) = settle source file p r := by
  cases r with
  | ok result => rfl
  | error e =>
    rw [settle, settle]
    dsimp only
    split <;> rfl

theorem perform_fixSource (s : Settings) (file : Text) (ds : List Diagnostic) (p : Path)
    (evidence : List Evidence) :
    perform (fixSource s file ds p evidence : Script _) = fixSource s file ds p evidence := by
  rw [fixSource, fixSource]
  cases hplaces : lackPlaces ds with
  | false =>
    simp only [Bool.false_eq_true, if_false, perform_bind, perform_apply, perform_settle]
  | true =>
    simp only [if_true]
    cases s.heuristics with
    | false => rfl
    | true =>
      simp only [if_true, fixWithoutEvidence, hplaces, perform_bind, perform_apply, perform_settle]
      rfl

/-- **On a machine, the script of a task does what the task does.** -/
theorem perform_run (s : Settings) (evidence : List Evidence) (t : FixTask) :
    perform (t.run s evidence : Script FixResult) = t.run s evidence := by
  rw [FixTask.run, FixTask.run, perform_bind]
  apply bind_congr
  intro here
  dsimp only
  rw [perform_bind, perform_fixSource]
  apply bind_congr
  intro r
  cases r <;> rfl

end Script

end ImportRepair
