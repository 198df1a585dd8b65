import Mathlib.Data.Set.List
import ImportRepair.Cli.Program
import ImportRepair.Proofs.Failure
import ImportRepair.Proofs.Fix.Tasks

/-!
# What a configuration file does to a run

The contents of a configuration file are of one of three kinds.  They may say
which directories are excluded; then the settings exclude them.  They may be no
document at all; then this is reported, and the settings are those without the
file.  Or they are a document of a shape that nobody expects; no part of the
program is ready for this, and it breaks off.
-/

namespace ImportRepair

open Text Machine

variable {m : Machine} {file : Path} {octets : List UInt8} {v : Json} {ts names : List Text}
  {fields : List (Text × Json)} {e : TsconfigError}

/-! ### Contents of a configuration file -/

/-- The octets are a text, and this is what comes of reading it as a document, without its comments
    and trailing commas. -/
def Tsconfig.Reads (octets : List UInt8) (r : Except Json.ReadError Json) : Prop :=
  ∃ t, Utf8.decode octets = .ok t ∧ Json.read depthLimit (Jsonc.strip (unifyLineEnds t)) = r

/-- The texts that a value holds: the items of a list, the names of the fields of an object, or the
    characters of a text. -/
inductive Json.HoldsTexts : Json → List Text → Prop
  | array (ts : List Text) : HoldsTexts (.array (ts.map .string)) ts
  | object (fields : List (Text × Json)) : HoldsTexts (.object fields) (fields.map (·.1))
  | string (t : Text) : HoldsTexts (.string t) (t.map fun c => [c])

/-- A value that holds no parts. -/
def Json.IsBare : Json → Prop
  | null | bool _ | integer _ | float _ => True
  | string _ | array _ | object _ => False

namespace Tsconfig

/-- The value of the field `exclude`, or what counts for it if there is none. -/
def excludeField (fields : List (Text × Json)) : Json :=
  (fields.lookup "exclude".toList).getD defaultExclude

/-- The contents name these directories as excluded. -/
def Excludes (octets : List UInt8) (ts : List Text) : Prop :=
  ∃ fields, Reads octets (.ok (.object fields)) ∧ (excludeField fields).HoldsTexts ts

/-- The contents are no document that can be read, and why. -/
inductive NoDocument (octets : List UInt8) : TsconfigError → Prop
  | encoding {f : Utf8.Fault} (h : Utf8.decode octets = .error f) : NoDocument octets (.encoding f)
  | malformed {f : Json.Fault} {p : Json.Place} (h : Reads octets (.error (.malformed f p))) :
      NoDocument octets (.malformed f p)
  | numeral {e : NumeralError} (h : Reads octets (.error (.numeral e))) :
      NoDocument octets (.numeral e)

/-- The contents are a document of a shape that is not expected, and the failure that this is. -/
inductive OutOfShape (file : Path) (octets : List UInt8) : Cli.Failure → Prop
  | tooDeep {c : Json.Container} (h : Reads octets (.error (.tooDeep c))) :
      OutOfShape file octets (.tsconfig file (.tooDeep c))
  | notAnObject {v : Json} (h : Reads octets (.ok v)) (hv : ∀ fields, v ≠ .object fields) :
      OutOfShape file octets (.tsconfig file .notAnObject)
  | notAList {fields : List (Text × Json)} (h : Reads octets (.ok (.object fields)))
      (hbare : (excludeField fields).IsBare) : OutOfShape file octets (.exclude .notAList)
  | notAText {fields : List (Text × Json)} {items : List Json}
      (h : Reads octets (.ok (.object fields))) (hitems : excludeField fields = .array items)
      (hitem : ∃ v ∈ items, ∀ t, v ≠ .string t) : OutOfShape file octets (.exclude .notAText)

theorem OutOfShape.isReported {f : Cli.Failure} (h : OutOfShape file octets f) :
    f.isReported = false := by
  cases h <;> rfl

/-! ### Reading the contents -/

theorem exists_ofText {r : Except Json.ReadError Json} (h : Reads octets r) (file : Path) :
    ∃ t, Json.read depthLimit (Jsonc.strip (unifyLineEnds t)) = r ∧
      ofOctets file octets = ofText file t := by
  obtain ⟨t, ht, hread⟩ := h
  refine ⟨t, hread, ?_⟩
  rw [ofOctets, ht]

theorem ofOctets_of_object (h : Reads octets (.ok (.object fields))) (file : Path) :
    ofOctets file octets = .ok ⟨file, excludeField fields⟩ := by
  obtain ⟨t, hread, heq⟩ := exists_ofText h file
  rw [heq, ofText, hread]
  rfl

theorem ofOctets_of_ne_object (h : Reads octets (.ok v)) (hv : ∀ fields, v ≠ .object fields)
    (file : Path) : ofOctets file octets = .error .notAnObject := by
  obtain ⟨t, hread, heq⟩ := exists_ofText h file
  rw [heq, ofText, hread]
  cases v with
  | object fields => exact absurd rfl (hv fields)
  | _ => rfl

theorem ofOctets_of_tooDeep {c : Json.Container} (h : Reads octets (.error (.tooDeep c)))
    (file : Path) : ofOctets file octets = .error (.tooDeep c) := by
  obtain ⟨t, hread, heq⟩ := exists_ofText h file
  rw [heq, ofText, hread]

theorem ofOctets_of_noDocument (h : NoDocument octets e) (file : Path) :
    ofOctets file octets = .error e := by
  cases h with
  | encoding h => rw [ofOctets, h]
  | malformed h =>
    obtain ⟨t, hread, heq⟩ := exists_ofText h file
    rw [heq, ofText, hread]
  | numeral h =>
    obtain ⟨t, hread, heq⟩ := exists_ofText h file
    rw [heq, ofText, hread]

/-- What is no document is expected to happen. -/
theorem NoDocument.isTolerated (h : NoDocument octets e) : e.isTolerated = true := by
  cases h <;> rfl

end Tsconfig

/-! ### Excluded directories -/

namespace Settings

variable {s : Settings}

theorem mapM_patternText_map_string (ts : List Text) :
    (ts.map Json.string).mapM patternText = .ok ts := by
  rw [mapM_eq_ok_iff, List.forall₂_map_left_iff, List.forall₂_same]
  exact fun _ _ => rfl

theorem patternsOf_of_holdsTexts (h : v.HoldsTexts ts) :
    patternsOf v = .ok (ts.map .string) := by
  cases h with
  | array ts => rfl
  | object fields => rw [patternsOf, List.map_map]; rfl
  | string t => rw [patternsOf, List.map_map]; rfl

theorem exclude_of_holdsTexts (h : v.HoldsTexts ts) :
    s.exclude v = .ok { s with excludes := s.excludes ++ ts.filterMap plainName? } := by
  rw [exclude, patternsOf_of_holdsTexts h]
  change ((ts.map Json.string).mapM patternText >>= _) = _
  rw [mapM_patternText_map_string]
  rfl

theorem exclude_of_isBare (h : v.IsBare) : s.exclude v = .error .notAList := by
  cases v with
  | null | bool _ | integer _ | float _ => rfl
  | string _ | array _ | object _ => exact h.elim

theorem exclude_of_item {items : List Json} (h : ∃ v ∈ items, ∀ t, v ≠ .string t) :
    s.exclude (.array items) = .error .notAText := by
  have hall : FailsWith (· = ExcludeError.notAText) (items.mapM patternText) := by
    refine FailsWith.mapM fun v _ => ?_
    cases v with
    | string t => exact failsWith_ok t
    | _ => exact failsWith_error rfl
  obtain ⟨v, hv, htext⟩ := h
  obtain ⟨e, he⟩ : ∃ e, items.mapM patternText = .error e := by
    refine exists_mapM_eq_error_iff.2 ⟨v, hv, .notAText, ?_⟩
    cases v with
    | string t => exact absurd rfl (htext t)
    | _ => rfl
  change (items.mapM patternText >>= _) = _
  rw [he, hall e he]
  rfl

end Settings

/-- A value holds texts, or it has no parts, or one of its parts is no text. -/
theorem Json.holdsTexts_or (v : Json) : (∃ ts, v.HoldsTexts ts) ∨ v.IsBare ∨
    ∃ items, v = .array items ∧ ∃ item ∈ items, ∀ t, item ≠ .string t := by
  cases v with
  | null | bool _ | integer _ | float _ => exact .inr (.inl trivial)
  | string t => exact .inl ⟨_, .string t⟩
  | object fields => exact .inl ⟨_, .object fields⟩
  | array items =>
    by_cases hitems : ∃ item ∈ items, ∀ t, item ≠ .string t
    · exact .inr (.inr ⟨items, rfl, hitems⟩)
    · push Not at hitems
      have hrange : items ∈ Set.range (List.map Json.string) := by
        rw [Set.range_list_map]
        exact fun item h => (hitems item h).imp fun _ ht => ht.symm
      obtain ⟨ts, rfl⟩ := hrange
      exact .inl ⟨ts, .array ts⟩

/-- There is no fourth kind of contents. -/
theorem Tsconfig.excludes_or (file : Path) (octets : List UInt8) :
    (∃ ts, Excludes octets ts) ∨ (∃ e, NoDocument octets e) ∨ ∃ f, OutOfShape file octets f := by
  cases hdecode : Utf8.decode octets with
  | error f => exact .inr (.inl ⟨_, .encoding hdecode⟩)
  | ok t =>
    have hreads : Reads octets (Json.read depthLimit (Jsonc.strip (unifyLineEnds t))) :=
      ⟨t, hdecode, rfl⟩
    cases hread : Json.read depthLimit (Jsonc.strip (unifyLineEnds t)) with
    | error e =>
      rw [hread] at hreads
      cases e with
      | malformed f p => exact .inr (.inl ⟨_, .malformed hreads⟩)
      | numeral e => exact .inr (.inl ⟨_, .numeral hreads⟩)
      | tooDeep c => exact .inr (.inr ⟨_, .tooDeep hreads⟩)
    | ok v =>
      rw [hread] at hreads
      by_cases hv : ∀ fields, v ≠ .object fields
      · exact .inr (.inr ⟨_, .notAnObject hreads hv⟩)
      · -- Only an object gets as far as its field.
        push Not at hv
        obtain ⟨fields, rfl⟩ := hv
        rcases (excludeField fields).holdsTexts_or with ⟨ts, hts⟩ | hbare | ⟨items, hitems, hitem⟩
        · exact .inl ⟨ts, fields, hreads, hts⟩
        · exact .inr (.inr ⟨_, .notAList hreads hbare⟩)
        · exact .inr (.inr ⟨_, .notAText hreads hitems hitem⟩)

/-! ### Finding and loading the file -/

namespace Tsconfig

theorem leavesAlone_findIn (ds : List Path) : LeavesAlone (findIn ds) := by
  induction ds with
  | nil => exact leavesAlone_pure _
  | cons d ds ih =>
    refine (leavesAlone_leadsTo _ _).bind fun r => ?_
    match r with
    | .error f => exact leavesAlone_pure _
    | .ok true => exact leavesAlone_pure _
    | .ok false => exact ih

theorem leavesAlone_find (start : Path) : LeavesAlone (find start) := by
  refine (leavesAlone_resolve start).bind fun r => ?_
  cases r with
  | error f => exact leavesAlone_pure _
  | ok here =>
    refine (leavesAlone_leadsTo _ _).bind fun r => ?_
    cases r with
    | error f => exact leavesAlone_pure _
    | ok isFile => exact leavesAlone_findIn _

theorem run_load (h : m.read? file = .ok octets) :
    m.run (load file) = (ofOctets file octets, m) := by
  obtain ⟨hlocate, hat⟩ := exists_at?_of_content? (Disk.content_of_read h)
  have hlook : m.run (Host.look file) = (.ok .file, m) :=
    congrArg (·, m) (Disk.look_eq_file_iff.2 ⟨_, _, hlocate, hat⟩)
  have hpresent : m.run (Host.isPresent file) = (.ok true, m) := by
    rw [Host.isPresent, Host.leadsTo, run_bind, hlook]
    rfl
  have hread : m.run (Host.read file) = (.ok octets, m) := congrArg (·, m) h
  rw [load, run_bind, hpresent]
  change m.run (Host.read file >>= _) = _
  rw [run_bind, hread]
  rfl

end Tsconfig

namespace Cli

theorem leavesAlone_targetOf (o : Options) : LeavesAlone (targetOf o) := by
  unfold targetOf
  split
  · exact leavesAlone_pure _
  · refine (leavesAlone_resolve _).bind fun r => ?_
    cases r with
    | error f => exact leavesAlone_pure _
    | ok target =>
      refine (leavesAlone_leadsTo _ _).bind fun r => ?_
      match r with
      | .error f => exact leavesAlone_pure _
      | .ok true => exact leavesAlone_pure _
      | .ok false => exact leavesAlone_pure _

theorem leavesAlone_tsconfigOf (o : Options) (target : Option Path) :
    LeavesAlone (tsconfigOf o target) := by
  unfold tsconfigOf
  split
  · refine (leavesAlone_resolve _).bind fun r => ?_
    cases r with
    | error f => exact leavesAlone_pure _
    | ok file =>
      refine (leavesAlone_leadsTo _ _).bind fun r => ?_
      match r with
      | .error f => exact leavesAlone_pure _
      | .ok true => exact leavesAlone_pure _
      | .ok false => exact leavesAlone_pure _
  · refine leavesAlone_workingDirectory.bind fun here => ?_
    exact (Tsconfig.leavesAlone_find _).bind fun _ => leavesAlone_pure _

/-- The options lead to the configuration file, and nothing else is wrong with them. -/
structure Options.LeadsTo (o : Options) (m : Machine) (target : Option Path) (file : Path)
    (names : List Text) : Prop where
  directory : (m.run (targetOf o)).1 = .ok target
  tsconfig : (m.run (tsconfigOf o target)).1 = .ok (some file)
  excluded : o.excluded = .ok names

/-! ### The three kinds of contents -/

/-- What is logged of a file that is used. -/
def usingRecord (file : Path) : LogRecord :=
  ⟨.info, .commandLine, s!"Using tsconfig: {String.ofList file.text}"⟩

/-- What is logged of a file that is no document. -/
def warningRecord (file : Path) (e : TsconfigError) : LogRecord :=
  ⟨.warning, .commandLine, s!"Failed to parse tsconfig.json: {e.message file}"⟩

variable {o : Options} {target : Option Path} {t : Tsconfig} {f : Failure}

theorem run_readTsconfig_ok (hcontent : m.read? file = .ok octets)
    (h : Tsconfig.ofOctets file octets = .ok t) :
    m.run (readTsconfig (some file)) = (.ok (some t), m.logged (usingRecord file)) := by
  rw [readTsconfig, run_bind, Tsconfig.run_load hcontent, h]
  rfl

theorem run_readTsconfig_tolerated (hcontent : m.read? file = .ok octets)
    (h : Tsconfig.ofOctets file octets = .error e) (he : e.isTolerated = true) :
    m.run (readTsconfig (some file)) = (.ok none, m.logged (warningRecord file e)) := by
  rw [readTsconfig, run_bind, Tsconfig.run_load hcontent, h]
  dsimp only
  rw [if_pos he]
  rfl

theorem run_readTsconfig_fatal (hcontent : m.read? file = .ok octets)
    (h : Tsconfig.ofOctets file octets = .error e) (he : e.isTolerated = false) :
    m.run (readTsconfig (some file)) = (.error (.tsconfig file e), m) := by
  rw [readTsconfig, run_bind, Tsconfig.run_load hcontent, h]
  dsimp only
  rw [if_neg (Bool.eq_false_iff.1 he)]
  rfl

/-- Up to the configuration file, the program only looks. -/
theorem run_settingsOf_of_read (h : o.LeadsTo m target file names) {tsconfig : Option Tsconfig}
    {r : LogRecord} (hread : m.run (readTsconfig (some file)) = (.ok tsconfig, m.logged r)) :
    m.run (settingsOf o).run =
      ((excludeFrom (o.settings m.workingDirectory file.parent target (some file)) tsconfig).map
        fun s => { s with excludes := s.excludes ++ names }, m.logged r) := by
  have htarget := (leavesAlone_targetOf o).run_eq h.directory
  have hfile := (leavesAlone_tsconfigOf o target).run_eq h.tsconfig
  rw [settingsOf, run_mk_bind_ok htarget, run_mk_bind_ok hfile, run_mk_bind_ok hread, h.excluded]
  change (m.logged r).run (ExceptT.mk (pure (excludeFrom
    (o.settings m.workingDirectory file.parent target (some file)) tsconfig)) >>= _).run = _
  cases excludeFrom (o.settings m.workingDirectory file.parent target (some file)) tsconfig with
  | error f => exact run_mk_bind_error rfl
  | ok s => exact run_mk_bind_ok rfl

theorem run_settingsOf_of_error (h : o.LeadsTo m target file names)
    (hread : m.run (readTsconfig (some file)) = (.error f, m)) :
    m.run (settingsOf o).run = (.error f, m) := by
  have htarget := (leavesAlone_targetOf o).run_eq h.directory
  have hfile := (leavesAlone_tsconfigOf o target).run_eq h.tsconfig
  rw [settingsOf, run_mk_bind_ok htarget, run_mk_bind_ok hfile, run_mk_bind_error hread]

/-- Directories that the file names are excluded, besides those of the options. -/
theorem run_settingsOf_of_excludes (h : o.LeadsTo m target file names)
    (hcontent : m.read? file = .ok octets) (hexcludes : Tsconfig.Excludes octets ts) :
    let s := o.settings m.workingDirectory file.parent target (some file)
    m.run (settingsOf o).run =
      (.ok { s with excludes := s.excludes ++ ts.filterMap Settings.plainName? ++ names },
        m.logged (usingRecord file)) := by
  intro s
  obtain ⟨fields, hreads, hts⟩ := hexcludes
  have hread := run_readTsconfig_ok hcontent (Tsconfig.ofOctets_of_object hreads file)
  rw [run_settingsOf_of_read h hread, excludeFrom, Settings.exclude_of_holdsTexts hts]
  rfl

/-- A file that is no document is reported, and counts for nothing but its place. -/
theorem run_settingsOf_of_noDocument (h : o.LeadsTo m target file names)
    (hcontent : m.read? file = .ok octets) (hnone : Tsconfig.NoDocument octets e) :
    let s := o.settings m.workingDirectory file.parent target (some file)
    m.run (settingsOf o).run =
      (.ok { s with excludes := s.excludes ++ names }, m.logged (warningRecord file e)) := by
  intro s
  have hread := run_readTsconfig_tolerated hcontent (Tsconfig.ofOctets_of_noDocument hnone file)
    hnone.isTolerated
  rw [run_settingsOf_of_read h hread]
  rfl

theorem settingsOf_of_outOfShape (h : o.LeadsTo m target file names)
    (hcontent : m.read? file = .ok octets) (hshape : Tsconfig.OutOfShape file octets f) :
    (m.run (settingsOf o).run).1 = .error f := by
  -- A value that gives no texts is noticed only after the file has been read.
  have hexclude : ∀ {fields : List (Text × Json)} {e : Settings.ExcludeError},
      Tsconfig.Reads octets (.ok (.object fields)) →
      (∀ s : Settings, s.exclude (Tsconfig.excludeField fields) = .error e) →
      (m.run (settingsOf o).run).1 = .error (.exclude e) := by
    intro fields e hreads he
    have hread := run_readTsconfig_ok hcontent (Tsconfig.ofOctets_of_object hreads file)
    rw [run_settingsOf_of_read h hread, excludeFrom, he]
    rfl
  cases hshape with
  | tooDeep hreads =>
    have hoctets := Tsconfig.ofOctets_of_tooDeep hreads file
    rw [run_settingsOf_of_error h (run_readTsconfig_fatal hcontent hoctets rfl)]
  | notAnObject hreads hv =>
    have hoctets := Tsconfig.ofOctets_of_ne_object hreads hv file
    rw [run_settingsOf_of_error h (run_readTsconfig_fatal hcontent hoctets rfl)]
  | notAList hreads hbare => exact hexclude hreads fun s => Settings.exclude_of_isBare hbare
  | notAText hreads hitems hitem =>
    refine hexclude hreads fun s => ?_
    rw [hitems, Settings.exclude_of_item hitem]

/-- A failure of the settings that is not reported breaks the program off. -/
theorem program_of_error (h : (m.run (settingsOf o).run).1 = .error f)
    (hreported : f.isReported = false) : (m.run (program o)).1 = .error f := by
  have hexecute : m.run (execute o).run = (.error f, (m.run (settingsOf o).run).2) :=
    run_mk_bind_error (x := (settingsOf o).run) (Prod.ext h rfl)
  rw [program, run_bind, hexecute]
  dsimp only
  rw [if_neg (Bool.eq_false_iff.1 hreported)]
  rfl

/-- **What the contents of the configuration file decide.**  Contents that name excluded
    directories and contents that are no document give settings, with these directories and
    without them; contents of any other shape make the settings fail, and each such failure breaks
    the program off. -/
theorem settings_of_tsconfig (h : o.LeadsTo m target file names)
    (hcontent : m.read? file = .ok octets) :
    let s := o.settings m.workingDirectory file.parent target (some file)
    (∀ ts, Tsconfig.Excludes octets ts → m.run (settingsOf o).run =
      (.ok { s with excludes := s.excludes ++ ts.filterMap Settings.plainName? ++ names },
        m.logged (usingRecord file))) ∧
    (∀ e, Tsconfig.NoDocument octets e → m.run (settingsOf o).run =
      (.ok { s with excludes := s.excludes ++ names }, m.logged (warningRecord file e))) ∧
    (∀ f, (m.run (settingsOf o).run).1 = .error f ↔ Tsconfig.OutOfShape file octets f) ∧
    ∀ f, Tsconfig.OutOfShape file octets f → (m.run (program o)).1 = .error f := by
  refine ⟨fun ts => run_settingsOf_of_excludes h hcontent,
    fun e => run_settingsOf_of_noDocument h hcontent, fun f => ⟨fun hf => ?_,
    settingsOf_of_outOfShape h hcontent⟩, fun f hshape =>
    program_of_error (settingsOf_of_outOfShape h hcontent hshape) hshape.isReported⟩
  rcases Tsconfig.excludes_or file octets with ⟨ts, hts⟩ | ⟨e, he⟩ | ⟨f', hf'⟩
  · rw [run_settingsOf_of_excludes h hcontent hts] at hf
    cases hf
  · rw [run_settingsOf_of_noDocument h hcontent he] at hf
    cases hf
  · rw [settingsOf_of_outOfShape h hcontent hf'] at hf
    rwa [← Except.error.inj hf]

/-- The place of the configuration file of a project. -/
def samplePath : Path := sampleRoot.join ⟨.relative, [Tsconfig.fileName]⟩

/-- The text of a file that excludes a directory and a pattern. -/
def sampleTsconfig : String := "\x7b\"exclude\":[\"old/\",\"*\"]\x7d"

theorem settings_of_tsconfig_sample :
    let m := sampleProject [(["tsconfig.json"], sampleTsconfig)] [] []
    ∃ s, m.run (settingsOf {}).run = (.ok s, m.logged (usingRecord samplePath)) ∧
      s.excludes = sampleSettings.excludes ++ ["old".toList] := by
  intro m
  have h : ({} : Options).LeadsTo m none samplePath [] :=
    ⟨by decide +kernel, by decide +kernel, rfl⟩
  have hcontent : m.read? samplePath = .ok (Utf8.encode sampleTsconfig.toList) := by
    decide +kernel
  have hreads : Tsconfig.Reads (Utf8.encode sampleTsconfig.toList)
      (.ok (.object [("exclude".toList, .array (["old/".toList, "*".toList].map .string))])) :=
    ⟨sampleTsconfig.toList, by decide +kernel, by with_unfolding_all rfl⟩
  exact ⟨_, (settings_of_tsconfig h hcontent).1 _ ⟨_, hreads, .array _⟩, by decide +kernel⟩

/-- A list stops the program. -/
theorem program_stopped_by_list :
    let m := sampleProject [(["tsconfig.json"], "[]"), (["src", "a.ts"], sampleText)] [] []
    ({} : Options).LeadsTo m none samplePath [] ∧
      m.read? samplePath = .ok (Utf8.encode "[]".toList) ∧
      (m.run (settingsOf {}).run).1 = .error (.tsconfig samplePath .notAnObject) ∧
      (m.run (program {})).1 = .error (.tsconfig samplePath .notAnObject) := by
  intro m
  exact ⟨⟨by decide +kernel, by decide +kernel, rfl⟩, by decide +kernel, by decide +kernel,
    by decide +kernel⟩

end Cli

end ImportRepair
