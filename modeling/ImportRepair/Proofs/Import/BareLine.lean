import ImportRepair.Proofs.Import.Line

/-!
# Lines in a text

A line of a text may end in carriage returns, and the first one may begin with
a byte order mark.  Neither belongs to the statement on the line: a recognised
line has no mark in front, and it is recognised again without them, on any line.
-/

namespace ImportRepair

open Text

variable {t u raw : Text} {s : Statement} {n m : Int}

/-! ### Carriage returns and byte order marks -/

/-- A line without carriage returns at its end and without a byte order mark. -/
structure IsBare (t : Text) : Prop where
  mark : t.hasMark = false
  last : ∀ c ∈ t.getLast?, (c == '\r') = false

theorem hasMark_eq_false_iff : t.hasMark = false ↔ Stops (· == byteOrderMark) t := by
  cases t with
  | nil => simp [hasMark]
  | cons c t => simp [hasMark, Bool.eq_false_iff]

theorem dropMark_of_hasMark_eq_false (h : t.hasMark = false) : t.dropMark = t := by
  cases t with
  | nil => rfl
  | cons c t =>
    have hc : c ≠ byteOrderMark := by simpa [hasMark] using h
    simp [dropMark, hc]

theorem hasMark_dropEndWhile (h : t.hasMark = false) :
    (t.dropEndWhile (· == '\r')).hasMark = false := by
  obtain ⟨w, -, hsplit⟩ := exists_dropEndWhile_append (p := (· == '\r')) (t := t)
  rw [hasMark_eq_false_iff] at h ⊢
  cases hu : t.dropEndWhile (· == '\r') with
  | nil => simp
  | cons c u =>
    rw [hsplit, hu] at h
    simpa using h

theorem bareLine_of_isBare (h : IsBare t) : bareLine t n = t := by
  simp only [bareLine, dropEndWhile_of_getLast? h.last, dropMark_of_hasMark_eq_false h.mark,
    ite_self]

theorem bareLine_return (h : IsBare t) : bareLine (t ++ ['\r']) n = t := by
  have hdrop : (t ++ ['\r']).dropEndWhile (· == '\r') = t :=
    dropEndWhile_append_run (by simp) h.last
  simp only [bareLine, hdrop, dropMark_of_hasMark_eq_false h.mark, ite_self]

theorem bareLine_keepReturn (h : IsBare t) : bareLine (LineEdits.keepReturn u t) n = t := by
  unfold LineEdits.keepReturn
  split
  · exact bareLine_return h
  · exact bareLine_of_isBare h

/-- Marking the first line does not change what is read from it. -/
theorem bareLine_mark (t : Text) :
    bareLine (if t.hasMark then t else byteOrderMark :: t) 1 = bareLine t 1 := by
  cases h : t.hasMark with
  | true => rfl
  | false =>
    have hdrop : dropEndWhile (· == '\r') (byteOrderMark :: t) =
        byteOrderMark :: t.dropEndWhile (· == '\r') := dropEndWhile_cons_of_neg (by decide)
    have hrest := dropMark_of_hasMark_eq_false (hasMark_dropEndWhile h)
    simp only [bareLine, Bool.false_eq_true, if_false, if_true, hdrop, hrest]
    rfl

/-- A line is stripped in the same way on every other line, if no mark is left on it or it does not
    leave the first line. -/
theorem bareLine_move (h : (bareLine t n).hasMark = false) (hm : n = 1 → m = 1) :
    bareLine t m = bareLine t n := by
  by_cases hn : n = 1
  · rw [hn, hm hn]
  · simp only [bareLine, if_neg hn] at h ⊢
    rw [dropMark_of_hasMark_eq_false h, ite_self]

theorem bareLine_last : ∀ c ∈ (bareLine t n).getLast?, (c == '\r') = false := by
  have hlast := getLast?_dropEndWhile (p := (· == '\r')) (t := t)
  unfold bareLine
  split
  · cases hu : t.dropEndWhile (· == '\r') with
    | nil => simp [dropMark]
    | cons c u =>
      rw [hu] at hlast
      simp only [dropMark]
      split
      · intro d hd
        refine hlast d ?_
        rw [List.getLast?_cons, Option.mem_def.1 hd]
        rfl
      · exact hlast
  · exact hlast

/-- A line is its bare line between what is stripped from it. -/
theorem exists_bareLine_append (t : Text) (n : Int) : ∃ mark returns,
    AllIn (· == byteOrderMark) mark ∧ AllIn (· == '\r') returns ∧
      t = mark ++ (bareLine t n ++ returns) := by
  obtain ⟨returns, hreturns, hsplit⟩ := exists_dropEndWhile_append (p := (· == '\r')) (t := t)
  have hmark : ∀ u : Text, ∃ mark, AllIn (· == byteOrderMark) mark ∧ u = mark ++ dropMark u := by
    intro u
    cases u with
    | nil => exact ⟨[], allIn_nil, rfl⟩
    | cons c u =>
      by_cases hc : c = byteOrderMark
      · exact ⟨[c], by simp [hc], by simp [dropMark, hc]⟩
      · exact ⟨[], allIn_nil, by simp [dropMark, hc]⟩
  unfold bareLine
  split
  · obtain ⟨mark, hchars, hrest⟩ := hmark (t.dropEndWhile (· == '\r'))
    refine ⟨mark, returns, hchars, hreturns, ?_⟩
    rw [← List.append_assoc, ← hrest]
    exact hsplit
  · exact ⟨[], returns, allIn_nil, hreturns, hsplit⟩

theorem bareLine_infix (t : Text) (n : Int) : bareLine t n <:+: t := by
  obtain ⟨mark, returns, -, -, hsplit⟩ := exists_bareLine_append t n
  refine ⟨mark, returns, ?_⟩
  rw [List.append_assoc, ← hsplit]

theorem not_mem_bareLine (h : '\n' ∉ t) : '\n' ∉ bareLine t n := by
  have hpart := bareLine_infix t n
  exact fun hmem => h (hpart.subset hmem)

/-! ### Recognised lines -/

namespace Opening

variable {indent before : Text} {form : Form}

theorem ne_nil (h : Opening indent form before) : before ≠ [] := by
  cases h with
  | values hne hgap => simp
  | types hne hgap hne' hgap' => simp
  | require k hne hgap => simp [hne]

theorem exists_indent (h : Opening indent form before) : ∃ rest, before = indent ++ rest := by
  cases h with
  | values hne hgap => exact ⟨_, rfl⟩
  | types hne hgap hne' hgap' => exact ⟨_, rfl⟩
  | require k hne hgap => exact ⟨_, rfl⟩

theorem hasMark (h : Opening indent form before) (hindent : AllIn isBlank indent) :
    before.hasMark = false := by
  cases indent with
  | nil =>
    cases h with
    | values hne hgap => rfl
    | types hne hgap hne' hgap' => rfl
    | require k hne hgap => cases k <;> rfl
  | cons c indent =>
    have hc : isBlank c = true := (allIn_cons.1 hindent).1
    have hmark : Stops (· == byteOrderMark) (c :: indent) :=
      stops_cons.2 (by simpa using ne_of_isBlank hc (d := byteOrderMark) (by decide))
    rw [hasMark_eq_false_iff]
    cases h with
    | values hne hgap => exact stops_append hmark (by simp)
    | types hne hgap hne' hgap' => exact stops_append hmark (by simp)
    | require k hne hgap => exact stops_append hmark (by simp)

/-- No quotation mark and no brace stands in front of a body. -/
theorem chars (h : Opening indent form before) (hindent : AllIn isBlank indent) :
    AllIn isStatementChar before := by
  have hfront := statementChars_of_blank hindent
  have himport : IsName "import".toList := by decide
  have htype : IsName "type".toList := by decide
  cases h with
  | values hne hgap =>
    simp only [allIn_append]
    exact ⟨hfront, himport.statementChars, statementChars_of_blank hgap⟩
  | types hne hgap hne' hgap' =>
    simp only [allIn_append]
    exact ⟨hfront, himport.statementChars, statementChars_of_blank hgap, htype.statementChars,
      statementChars_of_blank hgap'⟩
  | require k hne hgap =>
    have hword : IsName k.text := by cases k <;> decide
    simp only [allIn_append]
    exact ⟨hfront, hword.statementChars, statementChars_of_blank hgap⟩

end Opening

theorem hasMark_append (hu : u ≠ []) : (u ++ t).hasMark = u.hasMark := by
  cases u with
  | nil => exact absurd rfl hu
  | cons c u => rfl

theorem Statement.StandsIn.hasMark {before c after : Text} {o : Origin}
    (h : s.StandsIn before c after o) : s.raw.hasMark = false := by
  rw [h.raw, hasMark_append h.opening.ne_nil]
  exact h.opening.hasMark h.indent

/-- A recognised line is recognised in the same way wherever it stands. -/
theorem Statement.ofBare?_move (raw : Text) (n m : Int) :
    Statement.ofBare? raw m = (Statement.ofBare? raw n).map fun s => { s with line := m } := by
  unfold Statement.ofBare?
  split
  · simp only [importLine?, bind, Option.map_bind, Function.comp_def, Option.map_some]
  · simp only [requireLine?, bind, Option.map_bind, Function.comp_def, Option.map_some]

theorem Statement.ofLine?_raw (h : Statement.ofLine? t n = some s) : s.raw = bareLine t n :=
  (Statement.ofBare?_cases (Statement.ofLine?_eq ▸ h)).1

theorem Statement.ofLine?_line (h : Statement.ofLine? t n = some s) : s.line = n :=
  (Statement.ofBare?_cases (Statement.ofLine?_eq ▸ h)).2.1

theorem Statement.ofLine?_isBare (h : Statement.ofLine? t n = some s) : IsBare s.raw := by
  obtain ⟨hraw, -, before, c, after, o, hparts⟩ :=
    Statement.ofBare?_cases (Statement.ofLine?_eq ▸ h)
  exact ⟨hparts.hasMark, by rw [hraw]; exact bareLine_last⟩

/-- A recognised line begins with a byte order mark on the first line only. -/
theorem Statement.mark_of_ofLine? (h : Statement.ofLine? t n = some s) :
    n = 1 ∨ t.hasMark = false := by
  by_cases hn : n = 1
  · exact Or.inl hn
  · right
    obtain ⟨hraw, -, before, c, after, o, hparts⟩ :=
      Statement.ofBare?_cases (Statement.ofLine?_eq ▸ h)
    have hne : s.raw ≠ [] := by
      rw [hparts.raw]
      simp [hparts.opening.ne_nil]
    obtain ⟨w, -, hsplit⟩ := exists_dropEndWhile_append (p := (· == '\r')) (t := t)
    rw [bareLine, if_neg hn] at hraw
    rw [hsplit, ← hraw, hasMark_append hne]
    exact hparts.hasMark

/-- The line as it was read is read again. -/
theorem Statement.ofLine?_ofLine? (h : Statement.ofLine? t n = some s) (m : Int) :
    Statement.ofLine? s.raw m = some { s with line := m } := by
  have hbare := Statement.ofLine?_isBare h
  have hread : Statement.ofBare? s.raw n = some s := by rw [Statement.ofLine?_raw h]; exact h
  rw [Statement.ofLine?_eq, bareLine_of_isBare hbare, Statement.ofBare?_move _ n, hread,
    Option.map_some]

end ImportRepair
