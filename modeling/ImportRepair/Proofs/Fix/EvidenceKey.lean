import ImportRepair.Proofs.Evidence.Linter
import ImportRepair.Proofs.Fix.Tasks
import ImportRepair.Proofs.Path.Portable
import Mathlib.Data.List.ReduceOption

/-!
# Which file a record of the linter reaches

A pass refers to a file by the portable spelling of its resolved path.  Records
carry this spelling already when they are handed out, and it is made portable
once more.  So a record reaches the file it is about only if the second time
changes nothing, and it reaches every other file whose name it then has.
-/

namespace ImportRepair

open Text

variable {root : Option Text} {includeTests : Bool} {file text : Text} {s : Settings} {here p q : Path}

/-! ### Records of one report -/

theorem file_of_complaint {fields : List (Text × Json)} {e : Evidence}
    (h : complaint file fields = .ok (some e)) : e.file = some file := by
  obtain ⟨message, -, h⟩ := bind_eq_ok_iff.1 h
  cases hname : Evidence.nameIn? message with
  | none =>
    rw [hname] at h
    cases h
  | some name =>
    rw [hname] at h
    obtain ⟨line, -, h⟩ := bind_eq_ok_iff.1 h
    obtain ⟨column, -, h⟩ := bind_eq_ok_iff.1 h
    cases h
    rfl

theorem file_of_ofMessage {v : Json} {e : Evidence} (h : Evidence.ofMessage file v = .ok (some e)) :
    e.file = some file := by
  cases v with
  | object fields =>
    rw [ofMessage_object] at h
    obtain ⟨unused, -, h⟩ := bind_eq_ok_iff.1 h
    split at h
    · exact file_of_complaint h
    · cases h
  | _ => cases h

theorem file_of_messagesEvidence {messages : List Json} {es : List Evidence}
    (h : messagesEvidence file messages = .ok es) : ∀ e ∈ es, e.file = some file := by
  intro e he
  obtain ⟨found, hfound, h⟩ := bind_eq_ok_iff.1 h
  cases h
  have hmem : some e ∈ found := List.reduceOption_mem_iff.1 he
  obtain ⟨v, -, hv⟩ := (mem_of_mapM_eq_ok_iff hfound).1 hmem
  exact file_of_ofMessage hv

/-- All records of a report on a file carry the portable spelling of its path. -/
theorem file_of_ofFileReport {fields : List (Text × Json)} {path : Text} {es : List Evidence}
    (hpath : Json.get fields "filePath" (.string []) = .string path)
    (h : Evidence.ofFileReport root includeTests (.object fields) = .ok es) :
    ∀ e ∈ es, e.file = some (portable root path) := by
  rw [ofFileReport_object, hpath] at h
  dsimp only at h
  split at h
  · cases h
    exact fun _ he => nomatch he
  · obtain ⟨messages, -, h⟩ := bind_eq_ok_iff.1 h
    exact file_of_messagesEvidence h

/-- The evidence of a whole report is that of its entries. -/
theorem exists_of_mem_reports {reports : List Json} {all : List Evidence} {report : Json}
    (hread : Json.read Evidence.depthLimit text = .ok (.array reports)) (hreport : report ∈ reports)
    (hall : Evidence.ofLinterReport root includeTests text = .ok all) :
    ∃ es, Evidence.ofFileReport root includeTests report = .ok es ∧ es ⊆ all := by
  have htext : text.isEmpty = false := by
    cases text with
    | nil => cases hread
    | cons c t => rfl
  rw [Evidence.ofLinterReport, htext] at hall
  simp only [hread] at hall
  obtain ⟨ess, hess, hflat⟩ := bind_eq_ok_iff.1 hall
  cases hflat
  obtain ⟨es, hes⟩ := exists_mapM_eq_ok_iff.1 ⟨ess, hess⟩ report hreport
  refine ⟨es, hes, ?_⟩
  intro e he
  exact List.mem_flatten.2 ⟨es, (mem_of_mapM_eq_ok_iff hess).2 ⟨report, hreport, hes⟩, he⟩

/-! ### Whom a record reaches -/

theorem mem_evidenceFor_iff {all : List Evidence} {e : Evidence} (he : e ∈ all)
    (hfile : e.file = some (evidenceName s here p)) :
    e ∈ evidenceFor s all here q ↔
      portable s.root.text (evidenceName s here p) = evidenceName s here q := by
  simp [evidenceFor, he, hfile]

/-- The file lies below the root under this name, and neither of them is spelled in a way that its
    portable spelling would not keep. -/
structure IsNamedBelow (s : Settings) (here p : Path) (name : Text) : Prop where
  root : IsPlainRoot s.root.text
  text : (p.resolve here).text = s.root.text ++ '/' :: name
  name : IsPlainName name

theorem IsNamedBelow.evidenceName_eq {name : Text} (h : IsNamedBelow s here p name) :
    evidenceName s here p = name := by
  rw [evidenceName, h.text]
  exact portable_below h.root h.name

/-- Nothing that could be taken for a margin, a drive or a root stands in front of the name. -/
structure HasPlainHead (name : Text) : Prop where
  blank : Stops isBlank name
  drive : ∀ d v, name = d :: ':' :: '/' :: v → isAsciiLetter d = false
  slash : name.head? ≠ some '/'

/-- **Which files a record of the linter reaches.**  It is about the file with this path: that file
    receives it exactly if its name stays portable, and any other file exactly if its name is what
    the name becomes.  Below a plain root, files with plain names receive their own records only. -/
theorem evidence_reaches_file_iff (s : Settings) (here p : Path) {reports : List Json}
    {fields : List (Text × Json)} {all : List Evidence}
    (hread : Json.read Evidence.depthLimit text = .ok (.array reports))
    (hall : Evidence.ofLinterReport s.root.text s.includeTests text = .ok all)
    (hreport : .object fields ∈ reports)
    (hpath : Json.get fields "filePath" (.string []) = .string (p.resolve here).text) :
    ∃ es, Evidence.ofFileReport s.root.text s.includeTests (.object fields) = .ok es ∧
      ∀ e ∈ es,
        (e ∈ evidenceFor s all here p ↔ StaysPortable s.root.text (evidenceName s here p)) ∧
        (∀ q, e ∈ evidenceFor s all here q ↔
          portable s.root.text (evidenceName s here p) = evidenceName s here q) ∧
        ∀ name, IsNamedBelow s here p name → HasPlainHead name →
          ∀ q name', IsNamedBelow s here q name' →
            (e ∈ evidenceFor s all here q ↔ (q.resolve here).text = (p.resolve here).text) := by
  obtain ⟨es, hes, hsub⟩ := exists_of_mem_reports hread hreport hall
  refine ⟨es, hes, ?_⟩
  intro e he
  have hfile : e.file = some (evidenceName s here p) := file_of_ofFileReport hpath hes e he
  have hreach (q : Path) : e ∈ evidenceFor s all here q ↔
      portable s.root.text (evidenceName s here p) = evidenceName s here q :=
    mem_evidenceFor_iff (hsub he) hfile
  refine ⟨(hreach p).trans portable_portable_iff, hreach, ?_⟩
  intro name hp hhead q name' hq
  have hstays : portable s.root.text name = name := by
    have hname := hp.evidenceName_eq
    rw [← hname]
    refine portable_portable_iff.2 ?_
    change StaysPortable s.root.text (evidenceName s here p)
    rw [hname]
    exact staysPortable_of_plain hp.root hhead.blank hhead.drive hhead.slash
  rw [hreach, hp.evidenceName_eq, hq.evidenceName_eq, hstays, hp.text, hq.text]
  constructor
  · rintro rfl
    rfl
  · intro htext
    exact (List.cons.inj (List.append_cancel_left htext)).2.symm

/-! ### Two files of a project -/

def samplePath (file : String) : Path := sampleRoot.join (Path.ofText file.toList)

/-- The entry of a report that calls the first import of `sampleText` unused. -/
def sampleReport (file : String) : List (Text × Json) :=
  [("filePath".toList, .string (samplePath file).text),
    ("messages".toList, .array [.object [("ruleId".toList, .string "no-unused-vars".toList),
      ("line".toList, .integer 1), ("message".toList, .string "'a' is unused".toList)]])]

def sampleReportText (path : String) : Text :=
  ("[\x7b\"filePath\":\"" ++ path ++ "\",\"messages\":[\x7b\"ruleId\":\"no-unused-vars\"," ++
    "\"line\":1,\"message\":\"'a' is unused\"\x7d]\x7d]").toList

def sampleRecord (file : String) : Evidence :=
  { line := 1, name := some "a".toList, file := some file.toList
    message := "'a' is unused".toList }

theorem read_sampleReportText : Json.read Evidence.depthLimit (sampleReportText "/p/src/a.ts") =
    .ok (.array [.object (sampleReport "src/a.ts")]) := by
  have hlex : Json.lex (sampleReportText "/p/src/a.ts") =
      [(0, .openArray), (1, .openObject), (2, .string "filePath".toList), (12, .colon),
        (13, .string "/p/src/a.ts".toList), (26, .comma), (27, .string "messages".toList),
        (37, .colon), (38, .openArray), (39, .openObject), (40, .string "ruleId".toList),
        (48, .colon), (49, .string "no-unused-vars".toList), (65, .comma),
        (66, .string "line".toList), (72, .colon), (73, .number (.integer false ['1'])),
        (74, .comma), (75, .string "message".toList), (84, .colon),
        (85, .string "'a' is unused".toList), (100, .closeObject), (101, .closeArray),
        (102, .closeObject), (103, .closeArray), (104, .finish)] := by decide +kernel
  have hmark : Text.hasMark (sampleReportText "/p/src/a.ts") = false := by decide +kernel
  rw [Json.read, hmark, hlex]
  rfl

/-- The complaint that the function of `sampleText` is unknown. -/
def unknownName (file : String) (line : Int) : Diagnostic :=
  { file := file.toList, line, column := 1, code := "TS2304".toList
    message := "Cannot find name 'use'.".toList, category := .unknownIdentifier }

theorem evidence_reaches_file_sample :
    let all := [sampleRecord "src/a.ts"]
    Evidence.ofLinterReport sampleRoot.text false (sampleReportText "/p/src/a.ts") = .ok all ∧
      sampleRecord "src/a.ts" ∈
        evidenceFor sampleSettings all sampleRoot (samplePath "src/a.ts") ∧
      sampleRecord "src/a.ts" ∉
        evidenceFor sampleSettings all sampleRoot (samplePath " src/a.ts") := by
  intro all
  have hall : Evidence.ofLinterReport sampleRoot.text false (sampleReportText "/p/src/a.ts") =
      .ok all := by decide +kernel
  have hroot : IsPlainRoot sampleRoot.text := ⟨by decide +kernel, by decide +kernel⟩
  have hname : IsNamedBelow sampleSettings sampleRoot (samplePath "src/a.ts") "src/a.ts".toList :=
    ⟨hroot, by decide +kernel, ⟨by decide, stops_reverse.1 (by decide +kernel), by decide +kernel⟩⟩
  have hname' : IsNamedBelow sampleSettings sampleRoot (samplePath " src/a.ts")
      " src/a.ts".toList :=
    ⟨hroot, by decide +kernel, ⟨by decide, stops_reverse.1 (by decide +kernel), by decide +kernel⟩⟩
  have hhead : HasPlainHead "src/a.ts".toList := by
    refine ⟨by decide +kernel, ?_, by decide⟩
    intro d v hsplit
    exact absurd (List.cons.inj (List.cons.inj hsplit).2).1 (by decide)
  obtain ⟨es, hes, hreach⟩ := evidence_reaches_file_iff sampleSettings sampleRoot
    (samplePath "src/a.ts") read_sampleReportText hall List.mem_cons_self rfl
  have hself : Evidence.ofFileReport sampleRoot.text false (.object (sampleReport "src/a.ts")) =
      .ok [sampleRecord "src/a.ts"] := by decide +kernel
  obtain rfl : es = [sampleRecord "src/a.ts"] := Except.ok.inj (hes.symm.trans hself)
  obtain ⟨-, -, hplain⟩ := hreach _ List.mem_cons_self
  refine ⟨hall, (hplain _ hname hhead _ _ hname).2 rfl, ?_⟩
  rw [hplain _ hname hhead _ _ hname']
  decide +kernel

/-- The linter calls the first import of ` src/a.ts` unused, and a pass deletes the first import of
    `src/a.ts`, which is used.  The names of the two files are different. -/
theorem evidence_reaches_other_file :
    let ds := diagnosticsOf sampleRoot.text true
      ("/p/ src/a.ts(3,1): error TS2304: Cannot find name 'use'.\n" ++
        "src/a.ts(2,1): error TS2304: Cannot find name 'use'.\n").toList
    let m := sampleProject [([" src", "a.ts"], sampleText),
        (["src", "a.ts"], "import { a } from 'x';\nuse(a);\n")]
      [] [.finished (sampleReportText "/p/ src/a.ts") [] 0]
    evidenceName sampleSettings sampleRoot (samplePath " src/a.ts") ≠
        evidenceName sampleSettings sampleRoot (samplePath "src/a.ts") ∧
      (m.run (fixPass sampleSettings ds)).2.content? (samplePath " src/a.ts") =
        .ok (Utf8.encode sampleText.toList) ∧
      (m.run (fixPass sampleSettings ds)).2.content? (samplePath "src/a.ts") =
        .ok (Utf8.encode "use(a);\n".toList) := by
  intro ds m
  have hread : Layout.parenthesised.diagnostics sampleRoot.text true
      (Text.lines (Text.unifyLineEnds (dropColours 0
        ("/p/ src/a.ts(3,1): error TS2304: Cannot find name 'use'.\n" ++
          "src/a.ts(2,1): error TS2304: Cannot find name 'use'.\n").toList))) =
      .ok [unknownName " src/a.ts" 3, unknownName "src/a.ts" 2] := by decide +kernel
  have hds : ds = [unknownName " src/a.ts" 3, unknownName "src/a.ts" 2] := by
    change diagnosticsOf _ _ _ = _
    rw [diagnosticsOf, readOutput, if_neg (by decide +kernel), Tier.ladder, readTiers]
    simp only [Tier.read, hread]
    exact List.mergeSort_of_pairwise (by decide +kernel)
  have hgroups : groupBy Diagnostic.file ds = [(" src/a.ts".toList, [unknownName " src/a.ts" 3]),
      ("src/a.ts".toList, [unknownName "src/a.ts" 2])] := by
    rw [hds]
    decide +kernel
  have hfiles : filesOf ds = [(" src/a.ts".toList, [unknownName " src/a.ts" 3]),
      ("src/a.ts".toList, [unknownName "src/a.ts" 2])] := by
    rw [filesOf, hgroups]
    exact List.mergeSort_of_pairwise (by decide +kernel)
  simp only [fixPass, hfiles]
  exact ⟨by decide +kernel, by decide +kernel, by decide +kernel⟩

end ImportRepair
