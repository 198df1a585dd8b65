import ImportRepair.Proofs.Failure
import ImportRepair.Tool.Linter

/-!
# Reports that can be read

A report of the linter is either read, or it fails in one of two ways.  A text
that is no JSON list is a failure of the linter, which a pass puts up with.  A
list with an entry of an unexpected shape is not foreseen; neither are numbers
with too many digits and values that are nested too deep.
-/

namespace ImportRepair

variable {file text : Text} {v : Json} {fields : List (Text × Json)} {root : Option Text}
variable {includeTests : Bool} {α : Type}

/-! ### Values -/

namespace Json

/-- The field of an object, or a default. -/
def get (fields : List (Text × Json)) (name : String) (default : Json) : Json :=
  (fields.lookup name.toList).getD default

/-- A value that an integer can be made of. -/
def IsNumeric : Json → Prop
  | integer _ | bool _ | float (.finite _ _) => True
  | string t => ∃ n, Numeral.integer t = .ok n
  | _ => False

/-- A value without parts. -/
def IsScalar : Json → Prop
  | array _ | object _ => False
  | _ => True

theorem exists_wholeNumber_eq_ok_iff : (∃ n, v.wholeNumber = .ok n) ↔ v.IsNumeric := by
  cases v with
  | integer n => exact ⟨fun _ => trivial, fun _ => ⟨n, rfl⟩⟩
  | bool b => exact ⟨fun _ => trivial, fun _ => ⟨_, rfl⟩⟩
  | string t =>
    simp only [wholeNumber, IsNumeric]
    cases Numeral.integer t with
    | ok n => exact ⟨fun _ => ⟨n, rfl⟩, fun _ => ⟨n, rfl⟩⟩
    | error e => exact ⟨fun ⟨_, h⟩ => (nomatch h), fun ⟨_, h⟩ => (nomatch h)⟩
  | float x =>
    cases x with
    | finite m q => exact ⟨fun _ => trivial, fun _ => ⟨_, rfl⟩⟩
    | nan | infinite => exact ⟨fun ⟨_, h⟩ => (nomatch h), False.elim⟩
  | null | array | object => exact ⟨fun ⟨_, h⟩ => (nomatch h), False.elim⟩

theorem exists_isUnusedRule_eq_ok_iff : (∃ b, v.isUnusedRule = .ok b) ↔ v.IsScalar := by
  cases v with
  | array | object => exact ⟨fun ⟨_, h⟩ => (nomatch h), False.elim⟩
  | _ => exact ⟨fun _ => trivial, fun _ => ⟨_, rfl⟩⟩

end Json

/-! ### Messages -/

/-- What an unused name is reported with: a text, and if it quotes a name, a line and a column. -/
def Json.IsComplaint (fields : List (Text × Json)) : Prop :=
  ∃ text, (get fields "message" .null).messageText = .ok text ∧
    (Evidence.nameIn? text ≠ none →
      (get fields "line" (.integer 0)).IsNumeric ∧ (get fields "column" (.integer 0)).IsNumeric)

/-- A message that can be read.  Unless it is about an unused name, only its rule matters. -/
def Json.IsMessage (v : Json) : Prop :=
  ∃ fields, v = .object fields ∧ (get fields "ruleId" .null).IsScalar ∧
    ((get fields "ruleId" .null).isUnusedRule = .ok true → IsComplaint fields)

def complaint (file : Text) (fields : List (Text × Json)) :
    Except LinterReportError (Option Evidence) :=
  (Json.get fields "message" .null).messageText >>= fun text =>
    match Evidence.nameIn? text with
    | none => pure none
    | some name =>
      (Json.get fields "line" (.integer 0)).wholeNumber >>= fun line =>
        (Json.get fields "column" (.integer 0)).wholeNumber >>= fun column =>
          pure (some { line, name, column, file, message := text, source := .linter })

theorem ofMessage_object (file : Text) (fields : List (Text × Json)) :
    Evidence.ofMessage file (.object fields) =
      (Json.get fields "ruleId" .null).isUnusedRule >>= fun unused =>
        if unused = true then complaint file fields else pure none := rfl

theorem exists_complaint_eq_ok_iff :
    (∃ e, complaint file fields = .ok e) ↔ Json.IsComplaint fields := by
  rw [complaint, exists_bind_eq_ok_iff, Json.IsComplaint]
  refine exists_congr fun text => and_congr_right fun _ => ?_
  cases Evidence.nameIn? text with
  | none => exact ⟨fun _ h => absurd rfl h, fun _ => ⟨none, rfl⟩⟩
  | some name =>
    simp only [exists_bind_eq_ok_iff, ← Json.exists_wholeNumber_eq_ok_iff]
    constructor
    · rintro ⟨line, hline, column, hcolumn, -⟩ _
      exact ⟨⟨line, hline⟩, column, hcolumn⟩
    · intro h
      obtain ⟨⟨line, hline⟩, column, hcolumn⟩ := h nofun
      exact ⟨line, hline, column, hcolumn, _, rfl⟩

theorem exists_ofMessage_eq_ok_iff :
    (∃ e, Evidence.ofMessage file v = .ok e) ↔ v.IsMessage := by
  cases v with
  | object fields =>
    rw [ofMessage_object, exists_bind_eq_ok_iff, Json.IsMessage]
    constructor
    · rintro ⟨unused, hunused, h⟩
      refine ⟨fields, rfl, Json.exists_isUnusedRule_eq_ok_iff.1 ⟨unused, hunused⟩, ?_⟩
      intro htrue
      rw [Except.ok.inj (hunused.symm.trans htrue), if_pos rfl] at h
      exact exists_complaint_eq_ok_iff.1 h
    · rintro ⟨_, heq, hscalar, hcomplaint⟩
      cases heq
      obtain ⟨unused, hunused⟩ := Json.exists_isUnusedRule_eq_ok_iff.2 hscalar
      refine ⟨unused, hunused, ?_⟩
      cases unused with
      | true => exact exists_complaint_eq_ok_iff.2 (hcomplaint hunused)
      | false => exact ⟨none, rfl⟩
  | _ => exact ⟨fun ⟨_, h⟩ => (nomatch h), fun ⟨_, h, _⟩ => (nomatch h)⟩

/-! ### Reports on files -/

/-- A report on a file that can be read.  The messages on a test file do not matter, unless test
    files are asked for. -/
def Json.IsFileReport (root : Option Text) (includeTests : Bool) (v : Json) : Prop :=
  ∃ fields path, v = .object fields ∧ get fields "filePath" (.string []) = .string path ∧
    ((!includeTests && isTestPath (portable root path)) = false →
      ∃ messages, (get fields "messages" (.array [])).members = .ok messages ∧
        ∀ message ∈ messages, message.IsMessage)

def messagesEvidence (file : Text) (messages : List Json) :
    Except LinterReportError (List Evidence) :=
  messages.mapM (Evidence.ofMessage file) >>= fun es => pure es.reduceOption

theorem ofFileReport_object (fields : List (Text × Json)) :
    Evidence.ofFileReport root includeTests (.object fields) =
      match Json.get fields "filePath" (.string []) with
      | .string path =>
        if (!includeTests && isTestPath (portable root path)) = true then pure []
        else (Json.get fields "messages" (.array [])).members >>=
          messagesEvidence (portable root path)
      | _ => throw .noMember := rfl

theorem exists_messagesEvidence_eq_ok_iff {messages : List Json} :
    (∃ es, messagesEvidence file messages = .ok es) ↔ ∀ message ∈ messages, message.IsMessage := by
  rw [messagesEvidence, exists_bind_eq_ok_iff]
  constructor
  · rintro ⟨es, hes, -⟩ message hmessage
    exact exists_ofMessage_eq_ok_iff.1 (exists_mapM_eq_ok_iff.1 ⟨es, hes⟩ message hmessage)
  · intro h
    obtain ⟨es, hes⟩ := exists_mapM_eq_ok_iff.2 fun message hmessage =>
      exists_ofMessage_eq_ok_iff.2 (h message hmessage)
    exact ⟨es, hes, _, rfl⟩

theorem exists_ofFileReport_eq_ok_iff :
    (∃ es, Evidence.ofFileReport root includeTests v = .ok es) ↔
      v.IsFileReport root includeTests := by
  cases v with
  | object fields =>
    rw [ofFileReport_object, Json.IsFileReport]
    cases hpath : Json.get fields "filePath" (.string []) with
    | string path =>
      dsimp only
      cases hskip : !includeTests && isTestPath (portable root path) with
      | true =>
        refine ⟨fun _ => ⟨fields, path, rfl, hpath, ?_⟩, fun _ => ⟨[], rfl⟩⟩
        rw [hskip]
        exact nofun
      | false =>
        rw [if_neg Bool.false_ne_true, exists_bind_eq_ok_iff]
        simp only [exists_messagesEvidence_eq_ok_iff]
        constructor
        · exact fun h => ⟨fields, path, rfl, hpath, fun _ => h⟩
        · rintro ⟨_, _, heq, hpath', h⟩
          cases heq
          cases hpath.symm.trans hpath'
          exact h hskip
    | _ =>
      refine ⟨fun ⟨_, h⟩ => (nomatch h), ?_⟩
      rintro ⟨_, _, heq, hpath', -⟩
      cases heq
      cases hpath.symm.trans hpath'
  | _ => exact ⟨fun ⟨_, h⟩ => (nomatch h), fun ⟨_, _, h, _⟩ => (nomatch h)⟩

/-! ### Reports -/

/-- A report that is read, or that fails in a way that a pass puts up with. -/
def Evidence.IsUsable (root : Option Text) (includeTests : Bool) (report : Text) : Prop :=
  report = [] ∨ match Json.read depthLimit report with
    | .ok (.array files) => ∀ v ∈ files, v.IsFileReport root includeTests
    | .ok _ | .error (.malformed _ _) => True
    | .error _ => False

/-- A failure that a pass does not put up with. -/
def LinterReportError.IsFatal (e : LinterReportError) : Prop :=
  (LinterError.report e).isTolerated = false

section Fatal

open LinterReportError

theorem Json.messageText_failsWith (v : Json) : FailsWith IsFatal v.messageText := by
  cases v with
  | string t => exact failsWith_ok t
  | _ =>
    rw [messageText]
    · split
      · exact failsWith_ok _
      · exact failsWith_error rfl
    · exact nofun

theorem Json.wholeNumber_failsWith (v : Json) : FailsWith IsFatal v.wholeNumber := by
  cases v with
  | integer | bool => exact failsWith_ok _
  | string t =>
    rw [wholeNumber]
    cases Numeral.integer t with
    | ok n => exact failsWith_ok n
    | error e => exact failsWith_error rfl
  | float x =>
    cases x with
    | finite m q => exact failsWith_ok _
    | nan | infinite => exact failsWith_error rfl
  | null | array | object => exact failsWith_error rfl

theorem Json.isUnusedRule_failsWith (v : Json) : FailsWith IsFatal v.isUnusedRule := by
  cases v with
  | array | object => exact failsWith_error rfl
  | _ => exact failsWith_ok _

theorem Json.members_failsWith (v : Json) : FailsWith IsFatal v.members := by
  cases v with
  | array | object | string => exact failsWith_ok _
  | _ => exact failsWith_error rfl

theorem complaint_failsWith (file : Text) (fields : List (Text × Json)) :
    FailsWith IsFatal (complaint file fields) := by
  refine (Json.messageText_failsWith _).bind fun text => ?_
  cases Evidence.nameIn? text with
  | none => exact failsWith_ok none
  | some name =>
    exact (Json.wholeNumber_failsWith _).bind fun line =>
      (Json.wholeNumber_failsWith _).bind fun column => failsWith_ok _

theorem ofMessage_failsWith (file : Text) (v : Json) :
    FailsWith IsFatal (Evidence.ofMessage file v) := by
  cases v with
  | object fields =>
    rw [ofMessage_object]
    refine (Json.isUnusedRule_failsWith _).bind fun unused => ?_
    split
    · exact complaint_failsWith file fields
    · exact failsWith_ok none
  | _ => exact failsWith_error rfl

theorem ofFileReport_failsWith (root : Option Text) (includeTests : Bool) (v : Json) :
    FailsWith IsFatal (Evidence.ofFileReport root includeTests v) := by
  cases v with
  | object fields =>
    rw [ofFileReport_object]
    cases Json.get fields "filePath" (.string []) with
    | string path =>
      dsimp only
      split
      · exact failsWith_ok []
      · exact (Json.members_failsWith _).bind fun messages =>
          (FailsWith.mapM fun message _ => ofMessage_failsWith _ message).bind fun es =>
            failsWith_ok _
    | _ => exact failsWith_error rfl
  | _ => exact failsWith_error rfl

end Fatal

/-! ### What a pass puts up with -/

def reportsEvidence (root : Option Text) (includeTests : Bool) (files : List Json) :
    Except LinterReportError (List Evidence) :=
  files.mapM (Evidence.ofFileReport root includeTests) >>= fun ess => pure ess.flatten

theorem reportsEvidence_failsWith (files : List Json) :
    FailsWith LinterReportError.IsFatal (reportsEvidence root includeTests files) :=
  (FailsWith.mapM fun v _ => ofFileReport_failsWith root includeTests v).bind fun _ =>
    failsWith_ok _

theorem exists_reportsEvidence_eq_ok_iff {files : List Json} :
    (∃ es, reportsEvidence root includeTests files = .ok es) ↔
      ∀ v ∈ files, v.IsFileReport root includeTests := by
  rw [reportsEvidence, exists_bind_eq_ok_iff]
  constructor
  · rintro ⟨ess, hess, -⟩ v hv
    exact exists_ofFileReport_eq_ok_iff.1 (exists_mapM_eq_ok_iff.1 ⟨ess, hess⟩ v hv)
  · intro h
    obtain ⟨ess, hess⟩ := exists_mapM_eq_ok_iff.2 fun v hv =>
      exists_ofFileReport_eq_ok_iff.2 (h v hv)
    exact ⟨ess, hess, _, rfl⟩

/-- What a pass can go on with: evidence, or a failure that is put up with. -/
def IsBearable (x : Except LinterReportError (List Evidence)) : Prop :=
  (∃ es, x = .ok es) ∨ ∃ e, x = .error e ∧ ¬ e.IsFatal

theorem isBearable_ok (es : List Evidence) : IsBearable (.ok es) := .inl ⟨es, rfl⟩

theorem isBearable_error_iff {e : LinterReportError} : IsBearable (.error e) ↔ ¬ e.IsFatal := by
  constructor
  · rintro (⟨_, h⟩ | ⟨e', h, he⟩)
    · cases h
    · rwa [Except.error.inj h]
  · exact fun h => .inr ⟨e, rfl, h⟩

/-- A report is usable exactly if a pass can go on with what is read of it. -/
theorem isUsable_iff {report : Text} : Evidence.IsUsable root includeTests report ↔
    IsBearable (Evidence.ofLinterReport root includeTests report) := by
  rw [Evidence.ofLinterReport, Evidence.IsUsable]
  cases report with
  | nil => exact iff_of_true (.inl rfl) (isBearable_ok [])
  | cons c r =>
    rw [if_neg (by simp)]
    simp only [reduceCtorEq, false_or]
    cases Json.read Evidence.depthLimit (c :: r) with
    | error e =>
      refine Iff.trans ?_ isBearable_error_iff.symm
      cases e with
      | malformed f p => exact iff_of_true trivial Bool.noConfusion
      | numeral | tooDeep => exact iff_of_false id fun h => h rfl
    | ok v =>
      cases v with
      | array files =>
        refine exists_reportsEvidence_eq_ok_iff.symm.trans ?_
        change _ ↔ IsBearable (reportsEvidence root includeTests files)
        refine ⟨.inl, fun h => h.resolve_right ?_⟩
        rintro ⟨e, he, hbearable⟩
        exact hbearable (reportsEvidence_failsWith files e he)
      | _ => exact iff_of_true trivial (isBearable_error_iff.2 Bool.noConfusion)

end ImportRepair
