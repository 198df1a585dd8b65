import ImportRepair.Proofs.Diagnostic.Reader

/-!
# Colours and line ends of a terminal

The compiler may colour its output, and a terminal may end lines in another
way.  Both are undone before anything is read: the colour sequences first, so
that one between the two characters of a line end does not keep them apart.
Whether the output is blank is asked before that, of the output as it came; this
only saves work, since no tier finds anything in a blank text.
-/

namespace ImportRepair

open Text

variable {root : Option Text} {snippets : Bool} {t u v s : Text} {c : Char}

/-! ### Blank output -/

theorem isFileChar_of_isBlank (h : isBlank c = true) : isFileChar c = false := by
  simp [isFileChar, isWord_of_isBlank h, ne_of_isBlank h (d := '.') (by decide),
    ne_of_isBlank h (d := '-') (by decide)]

theorem isDirectoryChar_of_isBlank (h : isBlank c = true) : isDirectoryChar c = false := by
  simp [isDirectoryChar, isWord_of_isBlank h, ne_of_isBlank h (d := '.') (by decide),
    ne_of_isBlank h (d := '-') (by decide), ne_of_isBlank h (d := '@') (by decide)]

theorem isSlash_of_isBlank (h : isBlank c = true) : isSlash c = false := by
  simp [isSlash, ne_of_isBlank h (d := '/') (by decide), ne_of_isBlank h (d := '\\') (by decide)]

theorem relativePath?_of_isBlank (h : isBlank c = true) : relativePath? (c :: t) = none := by
  have hname : sourceName? (c :: t) = none := by simp [sourceName?, isFileChar_of_isBlank h]
  have hdirectory : directory? (c :: t) = none := by
    simp [directory?, isDirectoryChar_of_isBlank h]
  rw [relativePath?]
  split
  · next heq => cases hdirectory.symm.trans heq
  · exact hname

theorem sourcePath?_of_isBlank (h : isBlank c = true) : sourcePath? (c :: t) = none := by
  unfold sourcePath?
  split
  · next heq =>
    cases heq
    simp [isAsciiLetter_of_isBlank h, isSlash_of_isBlank h, relativePath?_of_isBlank h]
  · simp [isSlash_of_isBlank h, relativePath?_of_isBlank h]

theorem sourcePaths_of_allIn (h : AllIn isBlank t) (previous : Option Char) :
    sourcePaths previous 0 t = [] := by
  induction t generalizing previous with
  | nil => rfl
  | cons c t ih =>
    obtain ⟨hc, ht⟩ := allIn_cons.1 h
    rw [sourcePaths, sourcePath?_of_isBlank hc, ite_self]
    exact ih ht (some c)

/-- A blank line is in no format, and no entry of the table of files. -/
theorem summaryEntries_of_allIn {ls : List Text} (h : ∀ t ∈ ls, AllIn isBlank t) :
    summaryEntries ls = [] := by
  have hrow : ∀ t ∈ ls, tableRow? t = none := by
    intro t ht
    simp [tableRow?, trimLeft_of_allIn (h t ht), Numeral.digits?]
  have hsentence : ∀ t ∈ ls, firstMatch? sameFile? (trim t) = none := by
    intro t ht
    rw [trim_of_allIn (h t ht)]
    rfl
  have hafter : ∀ t ∈ (ls.dropWhile fun t => (firstMatch? tableHeader? t).isNone).drop 1, t ∈ ls :=
    fun t ht => (List.dropWhile_suffix _).subset (List.mem_of_mem_drop ht)
  rw [summaryEntries, List.filterMap_eq_nil_iff.2 hsentence,
    List.filterMap_eq_nil_iff.2 fun t ht => hrow t (hafter t ht)]
  rfl

/-- No tier finds a diagnostic in a blank text. -/
theorem readTiers_of_allIn (h : AllIn isBlank t) :
    (readTiers root snippets t Tier.ladder).1 = [] := by
  have hlines : ∀ u ∈ lines t, AllIn isBlank u := by
    intro u hu c hc
    refine h c ?_
    rw [← unlines_lines t]
    exact mem_unlines hu hc
  have hlocated (l : Layout) : l.diagnostics root snippets (lines t) = .ok [] := by
    apply OutputLine.diagnostics_eq_nil
    intro u hu
    rw [trim_of_allIn (hlines u hu)]
    rfl
  have hpaths : scanDiagnostics root t = [] := by
    simp [scanDiagnostics, sourcePaths_of_allIn h]
  have hsummary : summaryDiagnostics root [] [] = (.ok [], []) := rfl
  simp only [Tier.ladder, readTiers, Tier.read, hlocated, hpaths, summaryEntries_of_allIn hlines,
    hsummary]

/-! ### Colours -/

/-- A complete colour sequence. -/
def IsColourSequence (s : Text) : Prop := ∃ parameters c, AllIn isColourParameter parameters ∧
  isAsciiLetter c = true ∧ s = escapeMark :: '[' :: (parameters ++ [c])

/-- The second text is the first with colour sequences put in, anywhere and as many as one
    likes. -/
inductive Coloured : Text → Text → Prop
  | nil : Coloured [] []
  | char (c : Char) {t u : Text} (h : Coloured t u) : Coloured (c :: t) (c :: u)
  | sequence {s t u : Text} (hs : IsColourSequence s) (h : Coloured t u) : Coloured t (s ++ u)

theorem isColourParameter_of_isAsciiLetter (h : isAsciiLetter c = true) :
    isColourParameter c = false := by
  have hcode := code_of_isAsciiLetter h
  have hdigit : isAsciiDigit c = false := by
    rw [Bool.eq_false_iff]
    intro hdigit
    have hrange : 48 ≤ c.toNat ∧ c.toNat ≤ 57 := by
      simpa [isAsciiDigit, Char.le_def, UInt32.le_iff_toNat_le] using hdigit
    omega
  have hne : c ≠ ';' := by
    rintro rfl
    exact absurd h (by decide)
  simp [isColourParameter, hdigit, hne]

theorem dropColours_eq_drop (n : Nat) (t : Text) : dropColours n t = dropColours 0 (t.drop n) := by
  induction n generalizing t with
  | zero => rfl
  | succ n ih =>
    cases t with
    | nil => rfl
    | cons c t => rw [dropColours, ih, List.drop_succ_cons]

/-- A colour sequence is dropped whole and nothing behind it is. -/
theorem dropColours_sequence (h : IsColourSequence s) (t : Text) :
    dropColours 0 (s ++ t) = dropColours 0 t := by
  obtain ⟨parameters, c, hparameters, hc, rfl⟩ := h
  have hstop : Stops isColourParameter (c :: t) :=
    stops_cons.2 (isColourParameter_of_isAsciiLetter hc)
  have hlength : colourLength? ('[' :: (parameters ++ c :: t)) = some (parameters.length + 2) := by
    simp only [colourLength?, takeWhile_run hparameters hstop, dropWhile_run hparameters hstop, hc,
      if_true]
  have htext : escapeMark :: '[' :: (parameters ++ [c]) ++ t =
      escapeMark :: '[' :: (parameters ++ c :: t) := by simp
  rw [htext, dropColours, if_pos rfl, hlength]
  simp only [dropColours_eq_drop (_ + 2)]
  rw [List.drop_succ_cons, List.drop_append, List.drop_eq_nil_of_le (Nat.le_succ _)]
  simp

theorem dropColours_coloured (h : Coloured t u) (hescape : escapeMark ∉ t) :
    dropColours 0 u = t := by
  induction h with
  | nil => rfl
  | char c _ ih =>
    rw [List.mem_cons, not_or] at hescape
    rw [dropColours, if_neg (Ne.symm hescape.1), ih hescape.2]
  | sequence hs _ ih => rw [dropColours_sequence hs, ih hescape]

theorem Coloured.behind (h : Coloured t u) (v : Text) : Coloured (v ++ t) (v ++ u) := by
  induction v with
  | nil => exact h
  | cons c v ih => exact .char c ih

/-! ### Line ends -/

/-- The ways to end a line. -/
inductive LineEnd where
  | feed
  | returnAndFeed
  | carriageReturn
deriving DecidableEq, Repr

def LineEnd.text : LineEnd → Text
  | feed => ['\n']
  | returnAndFeed => ['\r', '\n']
  | carriageReturn => ['\r']

/-- The text with another end for its lines. -/
def LineEnd.write (e : LineEnd) (t : Text) : Text :=
  t.flatMap fun c => if c = '\n' then e.text else [c]

namespace LineEnd

variable {e : LineEnd}

@[simp] theorem write_cons :
    e.write (c :: t) = (if c = '\n' then e.text else [c]) ++ e.write t := rfl

theorem mem_write (h : c ∈ e.write t) : c ∈ t ∨ c ∈ e.text := by
  obtain ⟨d, hd, hc⟩ := List.mem_flatMap.1 h
  split at hc
  · exact .inr hc
  · exact .inl (List.mem_singleton.1 hc ▸ hd)

theorem not_mem_escape_write (h : escapeMark ∉ t) : escapeMark ∉ e.write t := by
  intro hmem
  rcases mem_write hmem with hmem | hmem
  · exact h hmem
  · cases e <;> revert hmem <;> decide

theorem not_mem_feed_write (t : Text) : '\n' ∉ carriageReturn.write t := by
  intro hmem
  obtain ⟨d, -, hd⟩ := List.mem_flatMap.1 hmem
  split at hd
  · revert hd
    decide
  · next hne => exact hne (List.mem_singleton.1 hd).symm

/-- Every way to end lines is undone.  A carriage return alone must not meet a line feed behind
    it, which would make one line end of two. -/
theorem unifyLineEnds_write (h : '\r' ∉ t) (e : LineEnd) : unifyLineEnds (e.write t) = t := by
  induction t with
  | nil => rfl
  | cons c t ih =>
    rw [List.mem_cons, not_or] at h
    have ih := ih h.2
    rw [write_cons]
    split
    · next hc =>
      subst hc
      cases e with
      | feed => rw [text, List.singleton_append, unifyLineEnds.eq_3 _ _ (by simp), ih]; rfl
      | returnAndFeed => rw [text, List.cons_append, List.singleton_append, unifyLineEnds.eq_2, ih]
      | carriageReturn =>
        have hnext : ∀ r, '\r' = '\r' → carriageReturn.write t = '\n' :: r → False := by
          intro r _ heq
          exact not_mem_feed_write t (heq ▸ List.mem_cons_self)
        rw [text, List.singleton_append, unifyLineEnds.eq_3 _ _ hnext, ih]
        rfl
    · rw [List.singleton_append, unifyLineEnds.eq_3 _ _ fun _ hc _ => h.1 hc.symm,
        if_neg (Ne.symm h.1), ih]

end LineEnd

/-! ### What is read -/

theorem allIn_unifyLineEnds (h : AllIn isBlank t) : AllIn isBlank (unifyLineEnds t) := by
  fun_induction unifyLineEnds t with
  | case1 => exact h
  | case2 r ih =>
    rw [allIn_cons, allIn_cons] at h
    exact allIn_cons.2 ⟨by decide, ih h.2.2⟩
  | case3 c r _ ih =>
    rw [allIn_cons] at h
    refine allIn_cons.2 ⟨?_, ih h.2⟩
    split
    · decide
    · exact h.1

/-- The output as the tiers see it. -/
def plainOutput (output : Text) : Text := unifyLineEnds (dropColours 0 output)

/-- The question whether the output is blank only saves work. -/
theorem diagnosticsOf_eq_readTiers (root : Option Text) (snippets : Bool) (output : Text) :
    diagnosticsOf root snippets output =
      (readTiers root snippets (plainOutput output) Tier.ladder).1 := by
  rw [diagnosticsOf, readOutput, plainOutput]
  split
  · next hblank =>
    have hall : AllIn isBlank output := List.all_eq_true.1 hblank
    have hescape : escapeMark ∉ output := fun hmem => absurd (hall _ hmem) (by decide)
    rw [dropColours_of_notMem hescape, readTiers_of_allIn (allIn_unifyLineEnds hall)]
  · rfl

/-- **Colours and line ends do not matter.**  Output that is written with any of the line ends and
    with colour sequences anywhere in it, also inside a line end, a path or a number, has the
    diagnostics of the plain output, with their snippets and the columns of their marks. -/
theorem diagnosticsOf_coloured (root : Option Text) (snippets : Bool) (hescape : escapeMark ∉ t)
    (hreturn : '\r' ∉ t) (e : LineEnd) (h : Coloured (e.write t) u) :
    diagnosticsOf root snippets u = diagnosticsOf root snippets t := by
  have hplain : plainOutput u = plainOutput t := by
    rw [plainOutput, dropColours_coloured h (LineEnd.not_mem_escape_write hescape),
      LineEnd.unifyLineEnds_write hreturn, plainOutput, dropColours_of_notMem hescape,
      unifyLineEnds_of_notMem hreturn]
  rw [diagnosticsOf_eq_readTiers, hplain, ← diagnosticsOf_eq_readTiers]

def plainSample : Text := "src/a.ts(12,5): error TS2304: x\n12  y();\n    ^\n".toList

/-- There are colours in the path, in a number and inside a line end. -/
def colouredSample : Text :=
  "src/\x1b[96ma.ts(1\x1b[1;31m2,5): error TS2304: x\r\x1b[0m\x1b[m\n12  y();\r\n    ^\r\n".toList

theorem diagnosticsOf_coloured_sample :
    (diagnosticsOf none true colouredSample).map (fun d => (d.file, d.line, d.snippet, d.caret)) =
      [("src/a.ts".toList, 12, some "y();".toList, some 4)] := by
  have hsequence : ∀ s ∈ ["\x1b[96m", "\x1b[1;31m", "\x1b[0m", "\x1b[m"],
      IsColourSequence s.toList := by
    have hs (parameters : Text) (h : AllIn isColourParameter parameters) :
        IsColourSequence (escapeMark :: '[' :: (parameters ++ ['m'])) :=
      ⟨parameters, 'm', h, by decide, rfl⟩
    simp only [List.forall_mem_cons]
    exact ⟨hs "96".toList (by decide), hs "1;31".toList (by decide), hs "0".toList (by decide),
      hs [] (by decide), nofun⟩
  have hrest : Coloured "\n12  y();\r\n    ^\r\n".toList "\n12  y();\r\n    ^\r\n".toList := by
    simpa using Coloured.nil.behind "\n12  y();\r\n    ^\r\n".toList
  have hcoloured : Coloured (LineEnd.returnAndFeed.write plainSample) colouredSample :=
    .behind (.sequence (hsequence "\x1b[96m" (by simp)) (.behind (.sequence
      (hsequence "\x1b[1;31m" (by simp)) (.behind (.sequence (hsequence "\x1b[0m" (by simp))
      (.sequence (hsequence "\x1b[m" (by simp)) hrest))
      "2,5): error TS2304: x\r".toList)) "a.ts(1".toList)) "src/".toList
  rw [diagnosticsOf_coloured none true (by decide) (by decide) .returnAndFeed hcoloured]
  decide +kernel

end ImportRepair
