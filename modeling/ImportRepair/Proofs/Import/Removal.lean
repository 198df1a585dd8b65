import ImportRepair.Proofs.Grouping
import ImportRepair.Proofs.Import.Empty
import ImportRepair.Proofs.Import.Surgery
import ImportRepair.Proofs.Import.Table
import Mathlib.Data.List.ReduceOption

/-!
# Dropping unused bindings from a text

Evidence is grouped by lines, and the removal on a line depends on that line
and its evidence only.  So a text loses its unused bindings line by line:
`lineWithout?` says what is left of one line, and the text that is left is made
of what is left of its lines.
-/

namespace ImportRepair

open Text

variable {evidence : List Evidence} {table : ImportTable} {t l u new : Text}
  {s r : Statement} {n m : Int}

/-! ### Evidence by lines -/

/-- The names that evidence gives for a line. -/
def namesAt (evidence : List Evidence) (n : Int) : List (Option Text) :=
  ((evidence.filter fun e => e.line == n).map (·.name)).eraseDups

theorem mem_namesAt_iff {name : Option Text} :
    name ∈ namesAt evidence n ↔ ∃ e ∈ evidence, e.line = n ∧ e.name = name := by
  simp [namesAt, List.mem_eraseDups, and_assoc]

theorem mem_evidenceByLine_iff {names : List (Option Text)} :
    (n, names) ∈ evidenceByLine evidence ↔ names ≠ [] ∧ names = namesAt evidence n := by
  have hdups : ∀ {l : List (Option Text)}, l.eraseDups = [] ↔ l = [] := by
    intro l
    simp only [List.eq_nil_iff_forall_not_mem, List.mem_eraseDups]
  simp only [evidenceByLine, List.mem_mergeSort, List.mem_map, Prod.mk.injEq]
  constructor
  · rintro ⟨⟨k, es⟩, hg, rfl, rfl⟩
    obtain ⟨hne, hes⟩ := mem_groupBy_iff.1 hg
    simp only at hne hes
    refine ⟨?_, by rw [hes]; rfl⟩
    rw [Ne, hdups, List.map_eq_nil_iff]
    exact hne
  · rintro ⟨hne, rfl⟩
    refine ⟨(n, evidence.filter fun e => e.line == n), mem_groupBy_iff.2 ⟨?_, rfl⟩, rfl, rfl⟩
    rw [namesAt, Ne, hdups, List.map_eq_nil_iff] at hne
    exact hne

/-! ### The planned edits -/

namespace Removal

theorem plan_edits (table : ImportTable) (evidence : List Evidence) : (plan table evidence).edits =
    ⟨(evidenceByLine evidence).flatMap fun p => (ofLine table p.1 p.2).edits.replacements,
      (evidenceByLine evidence).flatMap fun p => (ofLine table p.1 p.2).edits.deletions⟩ := by
  unfold plan
  induction evidenceByLine evidence with
  | nil => rfl
  | cons p ps ih =>
    rw [List.foldr_cons, List.flatMap_cons, List.flatMap_cons]
    change LineEdits.mk _ _ = _
    rw [ih]

theorem mem_deletions_ofLine_iff {names : List (Option Text)} :
    m ∈ (ofLine table n names).edits.deletions ↔
      m = n ∧ ∃ removed, table.removal? n names = some (.deleted removed) := by
  unfold ofLine
  split
  · next h => simp [h]
  · next h => simp [h]
  · next h => simp [h]
  · next h => simp [h]

theorem mem_replacements_ofLine_iff {names : List (Option Text)} :
    (m, new) ∈ (ofLine table n names).edits.replacements ↔
      m = n ∧ ∃ removed, table.removal? n names = some (.changed new removed) := by
  unfold ofLine
  split
  · next h => simp [h]
  · next h => simp [h]
  · next h => simp [h]
  · next h => simp [h, eq_comm]

/-- A line without evidence keeps its bindings. -/
theorem removal?_nil (table : ImportTable) (n : Int) :
    table.removal? n [] = none ∨ table.removal? n [] = some .unchanged := by
  unfold ImportTable.removal?
  cases table.onLine? n with
  | none => exact Or.inl rfl
  | some s => exact Or.inr (by simp [Statement.removal, Statement.without, List.reduceOption_nil])

theorem exists_evidenceByLine_iff (evidence : List Evidence) (n : Int)
    (P : List (Option Text) → Prop) (hnil : ¬ P []) :
    (∃ p ∈ evidenceByLine evidence, n = p.1 ∧ P p.2) ↔ P (namesAt evidence n) := by
  constructor
  · rintro ⟨⟨k, names⟩, hp, rfl, h⟩
    rwa [← (mem_evidenceByLine_iff.1 hp).2]
  · intro h
    have hne : namesAt evidence n ≠ [] := fun heq => hnil (heq ▸ h)
    exact ⟨(n, namesAt evidence n), mem_evidenceByLine_iff.2 ⟨hne, rfl⟩, rfl, h⟩

theorem mem_deletions_plan_iff (table : ImportTable) (evidence : List Evidence) (n : Int) :
    n ∈ (plan table evidence).edits.deletions ↔
      ∃ removed, table.removal? n (namesAt evidence n) = some (.deleted removed) := by
  have hline := exists_evidenceByLine_iff evidence n
    (fun names => ∃ removed, table.removal? n names = some (.deleted removed))
    (by rcases removal?_nil table n with h | h <;> simp [h])
  rw [plan_edits, ← hline]
  simp only [List.mem_flatMap, mem_deletions_ofLine_iff]
  constructor
  · rintro ⟨p, hp, rfl, h⟩
    exact ⟨p, hp, rfl, h⟩
  · rintro ⟨p, hp, rfl, h⟩
    exact ⟨p, hp, rfl, h⟩

theorem mem_replacements_plan_iff (table : ImportTable) (evidence : List Evidence) (n : Int)
    (new : Text) :
    (n, new) ∈ (plan table evidence).edits.replacements ↔
      ∃ removed, table.removal? n (namesAt evidence n) = some (.changed new removed) := by
  have hline := exists_evidenceByLine_iff evidence n
    (fun names => ∃ removed, table.removal? n names = some (.changed new removed))
    (by rcases removal?_nil table n with h | h <;> simp [h])
  rw [plan_edits, ← hline]
  simp only [List.mem_flatMap, mem_replacements_ofLine_iff]
  constructor
  · rintro ⟨p, hp, rfl, h⟩
    exact ⟨p, hp, rfl, h⟩
  · rintro ⟨p, hp, rfl, h⟩
    exact ⟨p, hp, rfl, h⟩

end Removal

/-- What a removal makes of a line. -/
def StatementRemoval.line? (l : Text) : Option StatementRemoval → Option Text
  | none | some .unchanged => some l
  | some (.deleted _) => none
  | some (.changed new _) => some (LineEdits.keepReturn l new)

/-- The removal on a line depends on the evidence for that line only. -/
theorem Removal.line?_plan (table : ImportTable) (evidence : List Evidence) (n : Int) (l : Text) :
    (plan table evidence).edits.line? n l =
      StatementRemoval.line? l (table.removal? n (namesAt evidence n)) := by
  have hkept : (∀ new, (n, new) ∉ (plan table evidence).edits.replacements) →
      n ∉ (plan table evidence).edits.deletions →
        (plan table evidence).edits.line? n l = some l := by
    intro hreplacement hdeletion
    rw [LineEdits.line?, if_neg hdeletion, lookup_eq_none_of_not_mem hreplacement]
  have hdeletion := mem_deletions_plan_iff table evidence n
  have hreplacement := mem_replacements_plan_iff table evidence n
  cases hremoval : table.removal? n (namesAt evidence n) with
  | none =>
    rw [hremoval] at hdeletion
    simp only [hremoval] at hreplacement
    exact hkept (fun new => by simp [hreplacement]) (by simp [hdeletion])
  | some removal =>
    rw [hremoval] at hdeletion
    simp only [hremoval] at hreplacement
    cases removal with
    | unchanged => exact hkept (fun new => by simp [hreplacement]) (by simp [hdeletion])
    | deleted removed =>
      rw [LineEdits.line?, if_pos (hdeletion.2 ⟨removed, rfl⟩)]
      rfl
    | changed new removed =>
      have hlookup := lookup_eq_some_of_mem ((hreplacement new).2 ⟨removed, rfl⟩)
        fun new' hnew' => by
        obtain ⟨removed', heq⟩ := (hreplacement new').1 hnew'
        cases heq
        rfl
      rw [LineEdits.line?, if_neg (by simp [hdeletion]), hlookup]
      rfl

/-! ### Line by line -/

/-- What is left of a line when the bindings that evidence names are dropped from a text. -/
def lineWithout? (evidence : List Evidence) (n : Int) (l : Text) : Option Text :=
  if evidence.isEmpty then some l
  else (StatementRemoval.line? l
    ((Statement.ofLine? l n).map fun s => s.removal (namesAt evidence n))).filter (!bindsNothing ·)

theorem respectsMark_lineWithout? (evidence : List Evidence) :
    LineEdits.RespectsMark (lineWithout? evidence) := by
  intro l
  have hread := ignoresMark_ofLine? l
  have hempty := bindsNothing_mark l
  have hreturn := LineEdits.keepReturn_mark l
  generalize (if l.hasMark then l else byteOrderMark :: l) = l' at hread hempty hreturn ⊢
  simp only at hread
  simp only [lineWithout?, List.forall_mem_cons, List.not_mem_nil, false_implies, implies_true,
    and_true, hread]
  split
  · exact Or.inr ⟨rfl, rfl⟩
  · generalize (Statement.ofLine? l 1).map (fun s => s.removal (namesAt evidence 1)) = removal
    match removal with
    | none | some .unchanged =>
      cases hl : bindsNothing l <;> simp [StatementRemoval.line?, Option.filter, hempty, hl]
    | some (.deleted removed) => exact Or.inl rfl
    | some (.changed new removed) => exact Or.inl (by simp only [StatementRemoval.line?, hreturn])

theorem dropEmptyImports_eq_apply (t : Text) :
    dropEmptyImports t = LineEdits.apply ⟨[], emptyImportLines t⟩ t := by
  unfold dropEmptyImports
  split
  · next h => rw [h, LineEdits.apply_nil]
  · rfl

/-- The lines that bind something, or are no imports at all, are left. -/
theorem linesAfter_emptyImportLines (t : Text) :
    LineEdits.linesAfter ⟨[], emptyImportLines t⟩ t =
      (lines t).filterMap (Option.guard (!bindsNothing ·)) := by
  rw [LineEdits.linesAfter, ← filterMap_numberFrom (Option.guard (!bindsNothing ·)) 1 (lines t),
    ← numberedLines_eq]
  refine List.filterMap_congr fun p hp => ?_
  have hmem : p.1 ∈ emptyImportLines t ↔ bindsNothing p.2 = true := by
    simp only [emptyImportLines, List.mem_map, List.mem_filter]
    constructor
    · rintro ⟨q, ⟨hq, hempty⟩, hnumber⟩
      have hline : q.2 = p.2 := eq_of_mem_numberedLines (hnumber ▸ hq) hp
      rwa [← hline]
    · exact fun hempty => ⟨p, ⟨hp, hempty⟩, rfl⟩
  cases hempty : bindsNothing p.2 with
  | true => simp [LineEdits.line?, hmem.2 hempty, Option.guard, hempty]
  | false =>
    have hnot : p.1 ∉ emptyImportLines t := fun h => by simp [hmem.1 h] at hempty
    simp [LineEdits.line?, hnot, Option.guard, hempty]

/-- Imports of nothing are dropped line by line. -/
theorem dropEmptyImports_eq_unlines (t : Text) : ∃ ls, dropEmptyImports t = unlines ls ∧
    LineEdits.UpToMark ((lines t).filterMap (Option.guard (!bindsNothing ·))) ls := by
  rw [dropEmptyImports_eq_apply, ← linesAfter_emptyImportLines]
  exact LineEdits.upToMark_apply _ t

theorem respectsMark_guard :
    LineEdits.RespectsMark fun _ l => Option.guard (!bindsNothing ·) l := by
  intro l
  have hempty := bindsNothing_mark l
  generalize (if l.hasMark then l else byteOrderMark :: l) = l' at hempty ⊢
  cases hl : bindsNothing l <;> simp [Option.guard, hempty, hl]

/-- What becomes of a line of a text under the planned edits and the cleanup behind them. -/
theorem lineWithout?_of_mem {p : Int × Text} (hne : evidence.isEmpty = false)
    (hp : p ∈ numberedLines t) : lineWithout? evidence p.1 p.2 =
      ((Removal.plan (ImportTable.ofText t) evidence).edits.line? p.1 p.2).bind
        (Option.guard (!bindsNothing ·)) := by
  rw [Removal.line?_plan, ImportTable.removal?,
    onLine?_of_mem_numberedLines (n := p.1) (l := p.2) hp]
  simp only [lineWithout?, hne, Bool.false_eq_true, if_false]
  cases StatementRemoval.line? p.2
    ((Statement.ofLine? p.2 p.1).map fun s => s.removal (namesAt evidence p.1)) <;> rfl

theorem not_mem_lineWithout? (hl : '\n' ∉ l) (hu : lineWithout? evidence n l = some u) :
    '\n' ∉ u := by
  unfold lineWithout? at hu
  split at hu
  · cases hu
    exact hl
  · obtain ⟨hline, -⟩ := Option.filter_eq_some_iff.1 hu
    cases hread : Statement.ofLine? l n with
    | none =>
      rw [hread] at hline
      cases hline
      exact hl
    | some s =>
      have hloses := Statement.loses_removal hread hl (namesAt evidence n)
      rw [hread, Option.map_some] at hline
      generalize s.removal (namesAt evidence n) = removal at hline hloses
      cases hloses with
      | unchanged =>
        cases hline
        exact hl
      | deleted => cases hline
      | changed _ _ _ hnew =>
        cases hline
        exact LineEdits.not_mem_keepReturn hnew

/-! ### What is left of one line -/

/-- A line that is kept goes if it imports nothing, unless there is no evidence at all. -/
def keepUnlessEmpty (evidence : List Evidence) (l : Text) : Option Text :=
  if evidence.isEmpty then some l else Option.guard (!bindsNothing ·) l

theorem lineWithout?_of_none (h : Statement.ofLine? l n = none) :
    lineWithout? evidence n l = keepUnlessEmpty evidence l := by
  rw [lineWithout?, h]
  rfl

theorem lineWithout?_of_kept (h : Statement.ofLine? l n = some s) (hl : '\n' ∉ l)
    (hkept : ∀ x ∈ s.boundNames, x ∉ s.removedNames (namesAt evidence n)) :
    lineWithout? evidence n l = keepUnlessEmpty evidence l := by
  have hloses := Statement.loses_removal h hl (namesAt evidence n)
  rw [lineWithout?, h, Option.map_some]
  generalize s.removal (namesAt evidence n) = removal at hloses ⊢
  cases hloses with
  | unchanged => rfl
  | deleted hne hall =>
    obtain ⟨b, hb⟩ := List.exists_mem_of_ne_nil _ hne
    have hname : b.localName ∈ s.boundNames := List.mem_map_of_mem hb
    exact absurd (hall _ hname) (hkept _ hname)
  | changed hlost =>
    obtain ⟨x, hx, hmem⟩ := hlost
    exact absurd hmem (hkept x hx)

theorem isEmpty_eq_false_of_mem {x : Text} (h : x ∈ s.removedNames (namesAt evidence n)) :
    evidence.isEmpty = false := by
  cases evidence with
  | nil => simp [namesAt, Statement.removedNames, List.reduceOption_nil] at h
  | cons e evidence => rfl

theorem lineWithout?_of_lost (h : Statement.ofLine? l n = some s) (hl : '\n' ∉ l)
    (hne : s.bindings ≠ []) (hlost : ∀ x ∈ s.boundNames, x ∈ s.removedNames (namesAt evidence n)) :
    lineWithout? evidence n l = none := by
  obtain ⟨b, hb⟩ := List.exists_mem_of_ne_nil _ hne
  have hname : b.localName ∈ s.boundNames := List.mem_map_of_mem hb
  have hloses := Statement.loses_removal h hl (namesAt evidence n)
  rw [lineWithout?, h, Option.map_some, isEmpty_eq_false_of_mem (hlost _ hname)]
  generalize s.removal (namesAt evidence n) = removal at hloses ⊢
  cases hloses with
  | unchanged hkept => exact absurd (hlost _ hname) (hkept _ hname)
  | deleted => rfl
  | changed _ hkept =>
    obtain ⟨x, hx, hnot⟩ := hkept
    exact absurd (hlost x hx) hnot

/-- A line that loses some of its names is read with the bindings that stay, if it is read. -/
theorem lineWithout?_of_changed (h : Statement.ofLine? l n = some s) (hl : '\n' ∉ l)
    (hlost : ∃ x ∈ s.boundNames, x ∈ s.removedNames (namesAt evidence n))
    (hkept : ∃ x ∈ s.boundNames, x ∉ s.removedNames (namesAt evidence n)) :
    ∃ new, lineWithout? evidence n l = Option.guard (!bindsNothing ·) new ∧ ∀ m,
      Statement.ofLine? new m =
        if s.IsHidden (s.kept (s.removedNames (namesAt evidence n))) then none else
          some { s with
            bindings := s.kept (s.removedNames (namesAt evidence n))
            line := m
            raw := bareLine new m } := by
  have hloses := Statement.loses_removal h hl (namesAt evidence n)
  obtain ⟨y, hy, hmem⟩ := hlost
  rw [lineWithout?, h, Option.map_some, isEmpty_eq_false_of_mem hmem]
  generalize s.removal (namesAt evidence n) = removal at hloses ⊢
  cases hloses with
  | unchanged hnot => exact absurd hmem (hnot y hy)
  | deleted _ hall =>
    obtain ⟨x, hx, hnot⟩ := hkept
    exact absurd (hall x hx) hnot
  | @changed line removed _ _ hbare _ hread =>
    refine ⟨LineEdits.keepReturn l line, rfl, fun m => ?_⟩
    rw [Statement.ofLine?_eq, bareLine_keepReturn hbare]
    exact hread m

/-! ### A default name that is not read -/

/-- The line of a default name `type` has no empty braces, even where it is not read. -/
theorem bindsNothing_of_wordType (hw : s.IsWritable) (hform : s.form = .es false)
    (hl : bareLine l n = s.render [defaultOf false "type".toList]) : bindsNothing l = false := by
  have hspace : AllIn isBlank [' '] := by simp; decide
  have hmark : (bareLine l n).hasMark = false := by
    rw [hl]
    exact (Statement.isBare_render hw _).mark
  have htrim : (bareLine l n).trimLeft =
      "import".toList ++ ([' '] ++ ("type".toList ++ ([' '] ++ s.fromText))) := by
    rw [hl, Statement.render_type_eq hform]
    exact trimLeft_run hw.indent (stops_cons.2 (by decide))
  have hes : isEmptyEsImport (bareLine l n) = false := by
    rw [Bool.eq_false_iff]
    intro hempty
    obtain ⟨u, v, hu, hv⟩ := exists_of_isEmptyEsImport hempty
    have hword : afterWord? "import".toList (bareLine l n).trimLeft =
        some ("type".toList ++ ([' '] ++ s.fromText)) :=
      afterWord?_eq_some_iff.2 ⟨[' '], by simp, hspace, stops_cons.2 (by decide), htrim⟩
    obtain rfl := Option.some.inj (hword.symm.trans hu)
    rw [afterEmptyBraces?_wordType (Statement.originBehind?_fromText hw (by simp) hspace)] at hv
    cases hv
  have hrequire : isEmptyRequire (bareLine l n) = false := by
    have hnone : keyword? (bareLine l n).trimLeft = none := by
      rw [htrim]
      rfl
    simp only [isEmptyRequire, hnone]
    rfl
  rw [bindsNothing_of_hasMark hmark, hes, hrequire]
  rfl

/-- A hidden default name is what is written for the bindings that stay. -/
theorem Statement.removal_of_isHidden {names : List (Option Text)}
    (hlost : ∃ x ∈ s.boundNames, x ∈ s.removedNames names)
    (h : s.IsHidden (s.kept (s.removedNames names))) :
    ∃ removed, s.removal names = .changed (s.render [defaultOf false "type".toList]) removed := by
  obtain ⟨-, hkept, -⟩ := h
  by_cases hall : names.contains none = true
  · have hnil : s.kept (s.removedNames names) = [] := by
      refine List.filter_eq_nil_iff.2 fun b hb => ?_
      have hname : b.localName ∈ s.boundNames := List.mem_map_of_mem hb
      simp only [removedNames, if_pos hall]
      simpa using hname
    rw [hnil] at hkept
    cases hkept
  · rw [removedNames, if_neg hall] at hlost hkept
    obtain ⟨x, hx, hmem⟩ := hlost
    obtain ⟨b, hb, rfl⟩ := List.mem_map.1 hx
    have hsome : (s.bindings.filter fun d =>
        names.reduceOption.contains d.localName).isEmpty = false := by
      rw [List.isEmpty_eq_false_iff]
      exact List.ne_nil_of_mem (List.mem_filter.2 ⟨hb, by simpa using hmem⟩)
    have hkept' : (s.bindings.filter fun d => !names.reduceOption.contains d.localName) =
      [defaultOf false "type".toList] := hkept
    refine ⟨(s.bindings.filter fun d => names.reduceOption.contains d.localName).map (·.localName),
      ?_⟩
    simp only [removal, if_neg hall, without, hsome, hkept', Bool.false_eq_true, if_false,
      List.isEmpty_cons, List.any_cons, List.any_nil, defaultOf, reduceCtorEq, decide_false,
      Bool.or_false, Bool.and_false]

theorem lineWithout?_of_isHidden (h : Statement.ofLine? l n = some s)
    (hlost : ∃ x ∈ s.boundNames, x ∈ s.removedNames (namesAt evidence n))
    (hhidden : s.IsHidden (s.kept (s.removedNames (namesAt evidence n)))) :
    lineWithout? evidence n l =
      some (LineEdits.keepReturn l (s.render [defaultOf false "type".toList])) := by
  have hw := (Statement.isRead_of_ofLine? h).writable
  obtain ⟨removed, hremoval⟩ := Statement.removal_of_isHidden hlost hhidden
  obtain ⟨x, -, hmem⟩ := hlost
  have hfilled : bindsNothing
      (LineEdits.keepReturn l (s.render [defaultOf false "type".toList])) = false :=
    bindsNothing_of_wordType (n := 1) hw hhidden.1
      (bareLine_keepReturn (Statement.isBare_render hw _))
  rw [lineWithout?, h, isEmpty_eq_false_of_mem hmem, Option.map_some, hremoval]
  simp only [StatementRemoval.line?, Option.filter_some, hfilled, Bool.false_eq_true, if_false,
    Bool.not_false, if_true]

/-! ### The whole text -/

theorem isByLine_plan (t : Text) (evidence : List Evidence) :
    (Removal.plan (ImportTable.ofText t) evidence).edits.IsByLine := by
  rintro ⟨n, new⟩ hp
  obtain ⟨removed, hremoval⟩ := (Removal.mem_replacements_plan_iff _ _ _ _).1 hp
  obtain ⟨s, hs, hchanged⟩ := Option.map_eq_some_iff.1 hremoval
  obtain ⟨hmem, rfl⟩ := onLine?_eq_some_iff.1 hs
  obtain ⟨l, hl, hread⟩ := mem_ofText_iff.1 hmem
  have hloses := Statement.loses_removal hread (not_mem_of_mem_numberedLines hl)
    (namesAt evidence s.line)
  rw [hchanged] at hloses
  cases hloses with
  | changed _ _ _ hnew => exact hnew

/-- With evidence the lines that are left are those of the edited text that import something. -/
theorem filterMap_lineWithout? (hne : evidence.isEmpty = false) :
    (numberedLines t).filterMap (fun p => lineWithout? evidence p.1 p.2) =
      ((Removal.plan (ImportTable.ofText t) evidence).edits.linesAfter t).filterMap
        (Option.guard (!bindsNothing ·)) := by
  rw [LineEdits.linesAfter, List.filterMap_filterMap]
  exact List.filterMap_congr fun p hp => lineWithout?_of_mem hne hp

/-- **A text loses its unused bindings line by line.** -/
theorem dropUnused_eq_unlines (evidence : List Evidence) (t : Text) :
    ∃ ls, dropUnused evidence t = unlines ls ∧
      LineEdits.UpToMark
        ((numberedLines t).filterMap fun p => lineWithout? evidence p.1 p.2) ls := by
  unfold dropUnused
  cases hempty : evidence.isEmpty with
  | true =>
    have hsame :
        (numberedLines t).filterMap (fun p => lineWithout? evidence p.1 p.2) = lines t := by
      simp only [lineWithout?, hempty, if_true, numberedLines_eq]
      rw [filterMap_numberFrom some 1, List.filterMap_some]
    rw [hsame, if_pos rfl]
    exact ⟨lines t, (unlines_lines t).symm, Or.inl rfl⟩
  | false =>
    rw [filterMap_lineWithout? hempty, if_neg (by simp), Removal.apply]
    have hbyLine := isByLine_plan t evidence
    generalize (Removal.plan (ImportTable.ofText t) evidence).edits = e at hbyLine
    by_cases hnil : e.linesAfter t = []
    · rw [hnil, LineEdits.apply_of_linesAfter_eq_nil hnil]
      exact ⟨[], rfl, Or.inl rfl⟩
    · obtain ⟨ls, hls, hmark⟩ := dropEmptyImports_eq_unlines (e.apply t)
      have hguard := LineEdits.upToMark_filterMap respectsMark_guard
        (LineEdits.lines_apply hbyLine hnil)
      rw [filterMap_numberFrom, filterMap_numberFrom] at hguard
      exact ⟨ls, hls, hguard.trans hmark⟩

/-- What is left of a line stands in the text that is left, and is read there as it is. -/
theorem exists_mem_numberedLines_dropUnused (hl : (n, l) ∈ numberedLines t)
    (hu : lineWithout? evidence n l = some u) :
    ∃ m v, (m, v) ∈ numberedLines (dropUnused evidence t) ∧ (n = 1 → m = 1) ∧
      bareLine v m = bareLine u m := by
  obtain ⟨ls, hls, hmark⟩ := dropUnused_eq_unlines evidence t
  obtain ⟨pre, post, hsplit⟩ := List.append_of_mem hl
  obtain ⟨m, hm⟩ : ∃ m : Int,
      m = 1 + (pre.filterMap fun q => lineWithout? evidence q.1 q.2).length := ⟨_, rfl⟩
  have hmem : (m, u) ∈
      numberFrom 1 ((numberedLines t).filterMap fun p => lineWithout? evidence p.1 p.2) :=
    mem_numberFrom_filterMap_iff.2 ⟨pre, (n, l), post, hsplit, hu, hm⟩
  have hline : ∀ k ∈ (numberedLines t).filterMap fun p => lineWithout? evidence p.1 p.2,
      '\n' ∉ k := by
    intro k hk
    obtain ⟨p, hp, hk⟩ := List.mem_filterMap.1 hk
    exact not_mem_lineWithout? (not_mem_of_mem_numberedLines hp) hk
  obtain ⟨v, hv, hmarked⟩ := hmark.exists_mem hmem
  have hne : ls ≠ [] := List.ne_nil_of_mem (le_of_mem_numberFrom hv).2
  refine ⟨m, v, ?_, fun hone => ?_, ?_⟩
  · rw [numberedLines_eq, hls, lines_unlines (LineEdits.not_mem_upToMark hmark hline) hne]
    exact hv
  · simp [hm, front_eq_nil hsplit hone]
  · rcases hmarked with rfl | ⟨rfl, rfl⟩
    · rfl
    · exact bareLine_mark u

/-- The table of a text without its unused bindings. -/
theorem ofText_dropUnused (evidence : List Evidence) (t : Text) :
    ImportTable.ofText (dropUnused evidence t) =
      (numberFrom 1 ((numberedLines t).filterMap fun p => lineWithout? evidence p.1 p.2)).filterMap
        fun p => Statement.ofLine? p.2 p.1 := by
  obtain ⟨ls, hls, hmark⟩ := dropUnused_eq_unlines evidence t
  rw [ofText_eq, hls]
  refine LineEdits.filterMap_unlines ignoresMark_ofLine? (by decide) (fun l hl => ?_) hmark
  obtain ⟨p, hp, hu⟩ := List.mem_filterMap.1 hl
  exact not_mem_lineWithout? (not_mem_of_mem_numberedLines hp) hu

end ImportRepair
