import ImportRepair.Proofs.Import.BareLine
import ImportRepair.Proofs.Import.Written

/-!
# Written statements are read back

A statement that was read from a line can lend its layout to other bindings:
the line that is written for them is read as a statement of the same module,
form and layout with exactly these bindings.  Two clauses are exceptions.  An
empty clause is no clause, and in a clause of types it turns the word `type`
into a default name.  And a default name `type` that stands alone is not read
when the comment behind it looks like another origin.
-/

namespace ImportRepair

open Text

variable {s : Statement} {bs : List Binding} {n : Int} {old : Text}

/-! ### Layouts that can be written -/

namespace Statement

/-- The layout of a statement is one that can be read from a line. -/
structure IsWritable (s : Statement) : Prop where
  specifier_ne : s.specifier ≠ []
  specifier_chars : AllIn isSpecifierChar s.specifier
  indent : AllIn isBlank s.indent
  comment : IsComment s.trailing

/-- The layout is free of line feeds. -/
structure IsOnOneLine (s : Statement) : Prop where
  specifier : '\n' ∉ s.specifier
  indent : '\n' ∉ s.indent
  trailing : '\n' ∉ s.trailing

/-- The comment as it is read from a written line: without a semicolon the white space in front of
    it does not belong to it. -/
def readTrailing (s : Statement) : Text := if s.semicolon then s.trailing else s.trailing.trimLeft

/-- The statement that is read from the line that is written for some bindings. -/
def rewritten (s : Statement) (form : Form) (bs bs' : List Binding) (n : Int) : Statement :=
  { s with bindings := bs', line := n, raw := s.render bs, form, trailing := s.readTrailing }

end Statement

/-! ### The parts of a written line -/

/-- The body of the line that is written for some bindings. -/
def Form.bodyText : Form → List Binding → Text
  | .es typeOnly, bs => clauseText typeOnly bs
  | .commonJs _, bs => targetText bs

namespace Statement

/-- What is written in front of the body. -/
def openingText (s : Statement) : Text :=
  match s.form with
  | .es false => s.indent ++ ("import".toList ++ [' '])
  | .es true => s.indent ++ ("import".toList ++ ([' '] ++ ("type".toList ++ [' '])))
  | .commonJs k => s.indent ++ (k.text ++ [' '])

/-- What is written behind the body. -/
def endingText (s : Statement) : Text :=
  match s.form with
  | .es _ => " from ".toList ++ (s.quotedSpecifier ++ s.closingText)
  | .commonJs _ => " = require(".toList ++ (s.quotedSpecifier ++ ([')'] ++ s.closingText))

theorem render_eq (s : Statement) (bs : List Binding) :
    s.render bs = s.openingText ++ (s.form.bodyText bs ++ s.endingText) := by
  unfold render openingText endingText Form.bodyText
  cases hform : s.form with
  | es typeOnly => cases typeOnly <;> simp
  | commonJs k => simp

theorem opening_openingText (s : Statement) : Opening s.indent s.form s.openingText := by
  have hspace : AllIn isBlank [' '] := by simp; decide
  unfold openingText
  cases hform : s.form with
  | es typeOnly =>
    cases typeOnly with
    | false => exact .values (by simp) hspace
    | true => exact .types (by simp) hspace (by simp) hspace
  | commonJs k => exact .require k (by simp) hspace

theorem specifier?_quotedSpecifier (h : s.IsWritable) (r : Text) :
    specifier? (s.quotedSpecifier ++ r) = some (s.quote, s.specifier, r) :=
  specifier?_eq_some_iff.2 ⟨h.specifier_ne, h.specifier_chars, by simp [quotedSpecifier]⟩

theorem closing?_closingText (h : s.IsWritable) :
    closing? s.closingText = some ⟨s.semicolon, s.readTrailing⟩ := closing?_text h.comment

theorem stops_quotedSpecifier (s : Statement) (r : Text) :
    Stops isBlank (s.quotedSpecifier ++ r) := by
  unfold quotedSpecifier
  cases s.quote <;> exact stops_cons.2 (by decide)

theorem ending?_endingText (h : s.IsWritable) : s.form.ending? s.endingText =
    some ⟨s.quote, s.specifier, ⟨s.semicolon, s.readTrailing⟩⟩ := by
  have hspace : AllIn isBlank [' '] := by simp; decide
  have hclosing := closing?_closingText h
  unfold endingText Form.ending?
  cases hform : s.form with
  | es typeOnly =>
    refine originBehind?_eq_some_iff.2 ⟨[' '], [' '], s.closingText,
      by simp, hspace, by simp, hspace, h.specifier_ne, h.specifier_chars, hclosing, ?_⟩
    simp [quotedSpecifier]
  | commonJs k =>
    have hmark : afterMark? '=' (" = require(".toList ++
        (s.quotedSpecifier ++ ([')'] ++ s.closingText))) =
          some ("require(".toList ++ (s.quotedSpecifier ++ ([')'] ++ s.closingText))) :=
      (afterMark?_eq_some_iff (by decide)).2
        ⟨[' '], [' '], hspace, hspace, stops_cons.2 (by decide), rfl⟩
    have hlead : List.isPrefixOf? "require(".toList ("require(".toList ++
        (s.quotedSpecifier ++ ([')'] ++ s.closingText))) =
          some (s.quotedSpecifier ++ ([')'] ++ s.closingText)) := isPrefixOf?_eq_some_iff.2 rfl
    have htrim : trimLeft (s.quotedSpecifier ++ ([')'] ++ s.closingText)) =
        s.quotedSpecifier ++ ([')'] ++ s.closingText) :=
      dropWhile_of_stops (s.stops_quotedSpecifier _)
    -- white space behind the parenthesis is skipped, so the end of the line is read without it
    obtain ⟨g, hg, hspan⟩ := exists_trimLeft s.closingText
    have hparenthesis : afterMark? ')' ([')'] ++ s.closingText) = some s.closingText.trimLeft :=
      (afterMark?_eq_some_iff (by decide)).2
        ⟨[], g, by simp, hg, stops_trimLeft, by rw [← hspan]; rfl⟩
    have hskipped : closing? s.closingText.trimLeft = closing? s.closingText := by
      have hidem : s.closingText.trimLeft.trimLeft = s.closingText.trimLeft :=
        dropWhile_of_stops stops_trimLeft
      simp only [closing?, hidem]
    simp only [requireBehind?, bind, hmark, Option.bind_some, hlead, htrim,
      specifier?_quotedSpecifier h, hparenthesis, hskipped, hclosing]

end Statement

/-- The bodies that are written for bindings are read back. -/
theorem Form.reads_bodyText {form : Form} (h : form.Admits bs) (hne : bs = [] → form.style ≠ .es)
    (htype : form = .es false → bs ≠ [defaultOf false "type".toList]) :
    form.Reads (form.bodyText bs) bs := by
  cases form with
  | es typeOnly =>
    obtain ⟨defaults, aliases, items, rfl, h⟩ := h
    exact clause?_clauseText h (fun hnil => hne hnil rfl) fun hfalse => htype (by rw [hfalse])
  | commonJs k =>
    have hread : ∀ r, Stops isNamePart r → target? (targetText bs ++ r) = some (some bs, r) :=
      fun r hr => target?_targetText h hr
    have htext : targetText bs ≠ [] ∧ Stops isBlank (targetText bs) := by
      rcases h with ⟨b, ⟨hn, hb⟩, rfl⟩ | h
      · rw [targetText_whole (by rw [hb])]
        exact ⟨hn.ne_nil, hn.isTrimmed.head⟩
      · rw [targetText_named fun b hb => (h b hb).1.2.1]
        exact ⟨by simp [braced], stops_cons.2 (by decide)⟩
    exact ⟨htext.2, htext.1, hread⟩

namespace Statement

/-- **Lines are read back.**  The line that is written for some bindings is a statement with these
    bindings. -/
theorem ofBare?_render (h : s.IsWritable) (hbs : s.form.Admits bs)
    (hne : bs = [] → s.form.style ≠ .es)
    (htype : s.form = .es false → bs ≠ [defaultOf false "type".toList]) :
    ofBare? (s.render bs) n = some (s.rewritten s.form bs bs n) := by
  have hread := ofBare?_line (n := n) h.indent s.opening_openingText
    (Form.reads_bodyText hbs hne htype) (ending?_endingText h)
  rw [← s.render_eq bs] at hread
  exact hread

/-- Reading a line that begins with `import`. -/
theorem ofBare?_import (r : Text) (h : s.IsWritable) :
    ofBare? (s.indent ++ ("import".toList ++ r)) n = (head? r).bind fun hd =>
      (clause? hd.typeOnly hd.clause).map fun bs =>
        ofParts (.es hd.typeOnly) s.indent hd.origin bs (s.indent ++ ("import".toList ++ r)) n := by
  have hstop : Stops isBlank ("import".toList ++ r) := stops_cons.2 (by decide)
  have hlead : List.isPrefixOf? "import".toList ("import".toList ++ r) = some r :=
    isPrefixOf?_eq_some_iff.2 rfl
  simp only [ofBare?, takeWhile_run h.indent hstop, dropWhile_run h.indent hstop, hlead,
    importLine?, bind, ofParts, Option.map_eq_bind]
  rfl

/-- What is written behind the clause of an `import`, without the white space in front of it. -/
def fromText (s : Statement) : Text := "from ".toList ++ (s.quotedSpecifier ++ s.closingText)

/-- The text behind a lone default name `type` is taken for a clause of types. -/
def hidesType (s : Statement) : Bool := (shortestClause? s.fromText).isSome

theorem stops_fromText (s : Statement) : Stops isBlank s.fromText := stops_cons.2 (by decide)

/-- What is taken for a clause holds the quotation marks of the module specifier. -/
theorem not_allIn_of_shortestClause?_fromText {c : Text} {o : Origin}
    (h : shortestClause? s.fromText = some (c, o)) : ¬ AllIn isSpecifierChar c := by
  intro hchars
  obtain ⟨htrim, -, after, hsplit, ho⟩ := shortestClause?_eq_some s.stops_fromText h
  obtain ⟨g, g', r, hgne, hg, -, hg', -, -, -, rfl⟩ := originBehind?_eq_some_iff.1 ho
  have hquote : Stops isSpecifierChar (s.quotedSpecifier ++ s.closingText) :=
    stops_cons.2 (isSpecifierChar_quote s.quote)
  have hblankChars : ∀ {u : Text}, AllIn isBlank u → AllIn isSpecifierChar u :=
    fun hu => hu.mono fun _ => isSpecifierChar_of_isBlank
  have hword : AllIn isSpecifierChar "from".toList := by simp; decide
  -- in front of the first quotation mark there is only the word `from` and a space
  have hsame : "from ".toList ++ (s.quotedSpecifier ++ s.closingText) =
      c ++ (g ++ ("from".toList ++ g')) ++ o.quote.char :: (o.specifier ++ o.quote.char :: r) := by
    simp only [List.append_assoc]
    exact hsplit
  obtain ⟨hfront, -⟩ := run_unique hsame (by simp; decide) hquote
    (allIn_append.2 ⟨hchars, allIn_append.2 ⟨hblankChars hg, allIn_append.2
      ⟨hword, hblankChars hg'⟩⟩⟩) (stops_cons.2 (isSpecifierChar_quote o.quote))
  have hlength := congrArg List.length hfront
  have hcpos := List.length_pos_iff.2 htrim.ne_nil
  have hgpos := List.length_pos_iff.2 hgne
  have hfrom : "from ".toList.length = 5 ∧ "from".toList.length = 4 := by decide
  simp only [List.length_append, hfrom] at hlength
  omega

/-- No clause that holds the module specifier is read. -/
theorem clause?_fromText {c : Text} {o : Origin} {typeOnly : Bool}
    (h : shortestClause? s.fromText = some (c, o)) : clause? typeOnly c = none := by
  rw [Option.eq_none_iff_forall_ne_some]
  intro bs hbs
  exact not_allIn_of_shortestClause?_fromText h (isSpecifierChar_of_clause? hbs)

/-- Without a comment there are no quotation marks for a second origin. -/
theorem hidesType_eq_false (h : s.IsWritable) (htrailing : s.trailing = []) :
    s.hidesType = false := by
  rw [hidesType, Option.isSome_eq_false_iff, Option.isNone_iff_eq_none,
    Option.eq_none_iff_forall_ne_some]
  rintro ⟨c, o⟩ hc
  have hnone : ∀ {u : Text},
      AllIn isSpecifierChar u ↔ u.countP (fun d => !isSpecifierChar d) = 0 := by
    intro u
    simp [List.countP_eq_zero, AllIn]
  have hquote : ∀ q : Quote, (!isSpecifierChar q.char) = true := fun q => by cases q <;> rfl
  have hcount : s.fromText.countP (fun d => !isSpecifierChar d) = 2 := by
    have hchars := hnone.1 h.specifier_chars
    have hfrom : "from ".toList.countP (fun d => !isSpecifierChar d) = 0 := by decide
    have hsemicolon :
        (if s.semicolon then [';'] else []).countP (fun d => !isSpecifierChar d) = 0 := by
      cases s.semicolon <;> rfl
    simp only [fromText, quotedSpecifier, closingText, htrailing, List.countP_append,
      List.countP_cons, List.countP_nil, hchars, hfrom, hsemicolon, hquote, if_true]
  obtain ⟨-, -, after, hsplit, ho⟩ := shortestClause?_eq_some s.stops_fromText hc
  obtain ⟨g, g', r, -, -, -, -, -, -, -, rfl⟩ := originBehind?_eq_some_iff.1 ho
  rw [hsplit] at hcount
  simp only [List.countP_append, List.countP_cons, hquote, if_true] at hcount
  exact not_allIn_of_shortestClause?_fromText hc (hnone.2 (by omega))

theorem originBehind?_fromText {gap : Text} (h : s.IsWritable) (hne : gap ≠ [])
    (hgap : AllIn isBlank gap) : originBehind? (gap ++ s.fromText) =
      some ⟨s.quote, s.specifier, ⟨s.semicolon, s.readTrailing⟩⟩ := by
  have hspace : AllIn isBlank [' '] := by simp; decide
  refine originBehind?_eq_some_iff.2 ⟨gap, [' '], s.closingText, hne, hgap, by simp, hspace,
    h.specifier_ne, h.specifier_chars, closing?_closingText h, ?_⟩
  simp [fromText, quotedSpecifier]

/-- A default name `type` alone is read unless what follows it is taken for a clause. -/
theorem ofBare?_wordType {gap : Text} (h : s.IsWritable) (hne : gap ≠ []) (hgap : AllIn isBlank gap)
    (hthree : splitsInThree gap = false) {raw : Text}
    (hraw : raw = s.indent ++ ("import".toList ++
      ([' '] ++ ("type".toList ++ (gap ++ s.fromText))))) :
    ofBare? raw n = if s.hidesType then none else
      some (ofParts (.es false) s.indent ⟨s.quote, s.specifier, ⟨s.semicolon, s.readTrailing⟩⟩
        [defaultOf false "type".toList] raw n) := by
  have hspace : AllIn isBlank [' '] := by simp; decide
  have hend := originBehind?_fromText h hne hgap
  have hhead := head?_wordType (List.cons_ne_nil ' ' []) hspace rfl hne hgap hthree s.stops_fromText
    hend
  rw [hraw, ofBare?_import _ h, ← hraw, hhead, Option.bind_some]
  cases hc : shortestClause? s.fromText with
  | some p =>
    have hhides : s.hidesType = true := by rw [hidesType, hc]; rfl
    simp only [hhides, if_true, clause?_fromText hc, Option.map_none]
  | none =>
    have hhides : s.hidesType = false := by rw [hidesType, hc]; rfl
    rw [hhides]
    rfl

theorem render_type_eq (hform : s.form = .es false) :
    s.render [defaultOf false "type".toList] = s.indent ++ ("import".toList ++
      ([' '] ++ ("type".toList ++ ([' '] ++ s.fromText)))) := by
  rw [render_eq]
  simp [openingText, hform, Form.bodyText, clauseText, defaultOf, endingText, fromText]

theorem ofBare?_render_type (h : s.IsWritable) (hform : s.form = .es false) :
    ofBare? (s.render [defaultOf false "type".toList]) n = if s.hidesType then none else
      some (s.rewritten s.form [defaultOf false "type".toList]
        [defaultOf false "type".toList] n) := by
  have htext := render_type_eq hform
  rw [ofBare?_wordType h (by simp) (by simp; decide) (by decide) htext, hform]
  rfl

/-- In an empty clause of types the word `type` is a default name. -/
theorem ofBare?_render_no_types (h : s.IsWritable) (hform : s.form = .es true) :
    ofBare? (s.render []) n = if s.hidesType then none else
      some (s.rewritten (.es false) [] [defaultOf false "type".toList] n) := by
  have htext : s.render [] = s.indent ++ ("import".toList ++
      ([' '] ++ ("type".toList ++ ([' ', ' '] ++ s.fromText)))) := by
    rw [render_eq]
    simp [openingText, hform, Form.bodyText, clauseText, endingText, fromText]
  rw [ofBare?_wordType h (by simp) (by simp; decide) (by decide) htext]
  rfl

/-- An empty clause of values is no clause. -/
theorem ofBare?_render_no_values (h : s.IsWritable) (hform : s.form = .es false) :
    ofBare? (s.render []) n = none := by
  have hspaces : AllIn isBlank [' ', ' '] := by simp; decide
  have htext : s.render [] = s.indent ++ ("import".toList ++ ([' ', ' '] ++ s.fromText)) := by
    rw [render_eq]
    simp [openingText, hform, Form.bodyText, clauseText, endingText, fromText]
  have hbody : afterBlanks? ([' ', ' '] ++ s.fromText) = some s.fromText :=
    afterBlanks?_eq_some_iff.2 ⟨_, by simp, hspaces, s.stops_fromText, rfl⟩
  have hlead : List.isPrefixOf? "type".toList s.fromText = none := by rfl
  have hhead : head? ([' ', ' '] ++ s.fromText) =
      (shortestClause? s.fromText).map fun p => ⟨false, p.1, p.2⟩ := by
    simp only [head?, bind, hbody, Option.bind_some, hlead]
  rw [htext, ofBare?_import _ h, ← htext, hhead]
  cases hc : shortestClause? s.fromText with
  | some p => rw [Option.map_some, Option.bind_some, clause?_fromText hc, Option.map_none]
  | none => rfl

/-! ### Written lines in a text -/

theorem endingText_last (h : s.IsWritable) : s.endingText ≠ [] ∧
    ∀ c ∈ s.endingText.getLast?, isBlank c = false := by
  have hquote : isBlank s.quote.char = false := by cases s.quote <;> decide
  have hclosing : ∀ c ∈ s.closingText.getLast?, isBlank c = false := by
    intro c hc
    unfold closingText at hc
    cases htrailing : s.trailing with
    | nil =>
      cases hsemicolon : s.semicolon with
      | false => simp [hsemicolon, htrailing] at hc
      | true =>
        have hc : ';' = c := by simpa [hsemicolon, htrailing] using hc
        rw [← hc]
        decide
    | cons d u =>
      refine h.comment.last c ?_
      rwa [List.getLast?_append_of_ne_nil _ (by simp [htrailing])] at hc
  have hend : ∀ {w : Text} {d : Char}, isBlank d = false →
      ∀ c ∈ (w ++ d :: s.closingText).getLast?, isBlank c = false := by
    intro w d hd c hc
    cases hc' : s.closingText with
    | nil => simp_all
    | cons e u => exact hclosing c (by simpa [hc'] using hc)
  unfold endingText
  split
  · refine ⟨by simp, ?_⟩
    simpa [quotedSpecifier] using hend (w := " from ".toList ++ s.quote.char :: s.specifier) hquote
  · refine ⟨by simp, ?_⟩
    simpa using hend (w := " = require(".toList ++ s.quotedSpecifier) (d := ')') (by decide)

/-- A written line has neither a byte order mark nor a carriage return at its end. -/
theorem isBare_render (h : s.IsWritable) (bs : List Binding) : IsBare (s.render bs) := by
  obtain ⟨hne, hlast⟩ := endingText_last h
  rw [render_eq]
  refine ⟨?_, fun c hc => ?_⟩
  · rw [hasMark_append s.opening_openingText.ne_nil]
    exact s.opening_openingText.hasMark h.indent
  · have hblank := hlast c (by
      rwa [← List.append_assoc, List.getLast?_append_of_ne_nil _ hne] at hc)
    simp only [beq_eq_false_iff_ne]
    rintro rfl
    exact absurd hblank (by decide)

end Statement

/-! ### Layouts of recognised lines -/

/-- The module specifier and the end of the line stand in an ending as they are read. -/
theorem Form.ending?_pieces {form : Form} {after : Text} {o : Origin}
    (h : form.ending? after = some o) :
    o.specifier ≠ [] ∧ AllIn isSpecifierChar o.specifier ∧ o.closing.IsPlain ∧
      ∃ u v w, AllIn isStatementChar u ∧ AllIn isStatementChar v ∧ AllIn isBlank w ∧
        after = u ++ (o.quote.char :: (o.specifier ++ [o.quote.char]) ++
          (v ++ (o.closing.text ++ w))) := by
  cases form with
  | es typeOnly =>
    obtain ⟨g, g', r, -, hg, -, hg', hne, hchars, hclosing, rfl⟩ := originBehind?_eq_some_iff.1 h
    obtain ⟨hplain, v, w, hv, hw, rfl⟩ := closing?_eq_some_iff.1 hclosing
    have hfrom : IsName "from".toList := by decide
    refine ⟨hne, hchars, hplain, g ++ ("from".toList ++ g'), v, w, ?_, statementChars_of_blank hv,
      hw, by simp⟩
    simp only [allIn_append]
    exact ⟨statementChars_of_blank hg, hfrom.statementChars, statementChars_of_blank hg'⟩
  | commonJs k =>
    have h : requireBehind? after = some o := h
    simp only [requireBehind?, bind, Option.bind_eq_some_iff] at h
    obtain ⟨r, hr, t, ht, ⟨q, m, y⟩, hy, z, hz, cl, hclosing, heq⟩ := h
    cases heq
    obtain ⟨g, g', hg, hg', -, rfl⟩ := (afterMark?_eq_some_iff (by decide)).1 hr
    obtain rfl := isPrefixOf?_eq_some_iff.1 ht
    obtain ⟨b, hb, hsplit⟩ := exists_trimLeft t
    obtain ⟨hne, hchars, htrim⟩ := specifier?_eq_some_iff.1 hy
    obtain ⟨d, d', hd, hd', -, rfl⟩ := (afterMark?_eq_some_iff (by decide)).1 hz
    obtain ⟨hplain, e, w, he, hw, rfl⟩ := closing?_eq_some_iff.1 hclosing
    have hcall : AllIn isStatementChar "require(".toList := by simp; decide
    refine ⟨hne, hchars, hplain, g ++ '=' :: (g' ++ ("require(".toList ++ b)),
      d ++ ')' :: (d' ++ e), w, ?_, ?_, hw, ?_⟩
    · simp only [allIn_append, allIn_cons]
      exact ⟨statementChars_of_blank hg, by decide, statementChars_of_blank hg', hcall,
        statementChars_of_blank hb⟩
    · simp only [allIn_append, allIn_cons]
      exact ⟨statementChars_of_blank hd, by decide, statementChars_of_blank hd',
        statementChars_of_blank he⟩
    · rw [hsplit, htrim]
      simp

namespace Statement

/-- The layout of a recognised line can be written again. -/
theorem StandsIn.isWritable {before c after : Text} {o : Origin} (h : s.StandsIn before c after o) :
    s.IsWritable := by
  obtain ⟨hne, hchars, hplain, -⟩ := Form.ending?_pieces h.ending
  have hspecifier : s.specifier = o.specifier := by rw [h.eq_ofParts]; rfl
  have htrailing : s.trailing = o.closing.trailing := by rw [h.eq_ofParts]; rfl
  exact ⟨hspecifier ▸ hne, hspecifier ▸ hchars, h.indent, htrailing ▸ hplain.comment⟩

/-- The bindings of a recognised line are ones that its form can hold. -/
theorem StandsIn.admits {before c after : Text} {o : Origin} (h : s.StandsIn before c after o) :
    s.form.Admits s.bindings := by
  rcases h.body with hbody | ⟨hform, -, hbs⟩
  · cases hform : s.form with
    | es typeOnly =>
      rw [hform] at hbody
      exact admits_of_clause? hbody.1
    | commonJs k =>
      rw [hform] at hbody
      exact admits_of_target? (hbody.2.2 [] (by simp))
  · have hname : IsName "type".toList := by decide
    have hread : clause? false "type".toList = some [defaultOf false "type".toList] := by rfl
    rw [hform, hbs]
    exact admits_of_clause? hread

theorem StandsIn.isBody {before c after : Text} {o : Origin} (h : s.StandsIn before c after o) :
    IsBody c := by
  rcases h.body with hbody | ⟨-, rfl, -⟩
  · cases hform : s.form with
    | es typeOnly =>
      rw [hform] at hbody
      exact isBody_of_clause? hbody.1
    | commonJs k =>
      rw [hform] at hbody
      have htarget := hbody.2.2 [] stops_nil
      rw [List.append_nil] at htarget
      exact isBody_of_target? htarget
  · exact .plain (by simp; decide)

/-- What is known of every statement that was read from a line. -/
structure IsRead (s : Statement) : Prop where
  writable : s.IsWritable
  admits : s.form.Admits s.bindings
  bare : IsBare s.raw
  again : ∀ m, ofLine? s.raw m = some { s with line := m }

theorem isRead_of_ofLine? {t : Text} (h : ofLine? t n = some s) : s.IsRead := by
  obtain ⟨-, -, before, c, after, o, hparts⟩ := ofBare?_cases (ofLine?_eq ▸ h)
  exact ⟨hparts.isWritable, hparts.admits, ofLine?_isBare h, ofLine?_ofLine? h⟩

end Statement

end ImportRepair
