import ImportRepair.Proofs.Merge.Groups
import ImportRepair.Proofs.Text.Context

/-!
# The context of merged statements

The merge knows the lines of statements and nothing about the text around them.
The statements themselves never change the context: whatever such a line opens
is closed at its end, unless a backslash in the module specifier hides the
quotation mark behind it.  So it is the other text alone that decides whether a
statement is merged into one that shares its context.
-/

namespace ImportRepair

open Text

variable {t l c u w : Text} {s : Statement} {n f : Int}

/-! ### Statements are neutral -/

theorem isPlain_of_isStatementChar {d : Char} (h : isStatementChar d = true) :
    Context.isPlain d = true := by
  simp [Context.isPlain, ne_of_isStatementChar h (d := '/') (by decide),
    ne_of_isStatementChar h (d := '\'') (by decide),
    ne_of_isStatementChar h (d := '"') (by decide),
    ne_of_isStatementChar h (d := '\x60') (by decide),
    ne_of_isStatementChar h (d := '\x7b') (by decide),
    ne_of_isStatementChar h (d := '\x7d') (by decide)]

theorem neutral_of_isStatementChar (h : AllIn isStatementChar u) : Context.Neutral u :=
  Context.neutral_of_allIn (h.mono fun _ => isPlain_of_isStatementChar)

theorem neutral_of_isBody (h : IsBody c) : Context.Neutral c := by
  cases h with
  | plain h => exact neutral_of_isStatementChar h
  | braced hhead hbody =>
    exact (neutral_of_isStatementChar hhead).append (neutral_of_isStatementChar hbody).braces

theorem neutral_specifier (q : Quote) (hchars : AllIn isSpecifierChar u) (hline : '\n' ∉ u)
    (hslash : '\\' ∉ u) : Context.Neutral (q.char :: (u ++ [q.char])) := by
  have hquote : q.char = '\'' ∨ q.char = '"' := by
    cases q with
    | single => exact Or.inl rfl
    | double => exact Or.inr rfl
  refine Context.neutral_quoted hquote fun y hy => ⟨?_, ?_, ?_⟩
  · rintro rfl
    have hspecifier := hchars _ hy
    rw [isSpecifierChar_quote] at hspecifier
    cases hspecifier
  · exact fun heq => hslash (heq ▸ hy)
  · exact fun heq => hline (heq ▸ hy)

theorem neutral_closing {o : Closing} (h : o.IsPlain) (hw : AllIn Context.isPlain w)
    (hline : '\n' ∉ o.text ++ w) : Context.Neutral (o.text ++ w ++ ['\n']) := by
  have hsemicolon : Context.Neutral (if o.semicolon then [';'] else []) := by
    refine Context.neutral_of_allIn ?_
    split
    · simp; decide
    · exact allIn_nil
  have hfeed : AllIn Context.isPlain ['\n'] := by simp; decide
  rw [Closing.text] at hline ⊢
  rcases h.comment with hnil | ⟨g, r, hg, hcomment, -, -⟩
  · rw [hnil, List.append_nil, List.append_assoc]
    exact hsemicolon.append (Context.neutral_of_allIn (allIn_append.2 ⟨hw, hfeed⟩))
  · rw [hcomment] at hline ⊢
    have hrest : '\n' ∉ r ++ w := by
      simp only [List.mem_append, List.mem_cons, not_or] at hline ⊢
      obtain ⟨⟨-, -, -, -, hr⟩, hw⟩ := hline
      exact ⟨hr, hw⟩
    have hblank := neutral_of_isStatementChar (statementChars_of_blank hg)
    have hsplit : (if o.semicolon then [';'] else []) ++ (g ++ '/' :: '/' :: r) ++ w ++ ['\n'] =
        (if o.semicolon then [';'] else []) ++ (g ++ ('/' :: '/' :: (r ++ w ++ ['\n']))) := by
      simp only [List.append_assoc, List.cons_append]
    rw [hsplit]
    exact hsemicolon.append (hblank.append (Context.neutral_comment hrest))

theorem isPlain_of_eq {d e : Char} (he : Context.isPlain e = true) (h : (d == e) = true) :
    Context.isPlain d = true := by
  rw [beq_iff_eq.1 h]
  exact he

theorem neutral_ending {form : Form} {after : Text} {o : Origin}
    (h : form.ending? after = some o) (hw : AllIn Context.isPlain w) (hline : '\n' ∉ after ++ w)
    (hslash : '\\' ∉ o.specifier) : Context.Neutral (after ++ w ++ ['\n']) := by
  obtain ⟨-, hchars, hclosing, u, v, w', hu, hv, hw', rfl⟩ := Form.ending?_pieces h
  have hrest : AllIn Context.isPlain (w' ++ w) :=
    allIn_append.2 ⟨(statementChars_of_blank hw').mono fun _ => isPlain_of_isStatementChar, hw⟩
  obtain ⟨hm, htext⟩ : '\n' ∉ o.specifier ∧ '\n' ∉ o.closing.text ++ (w' ++ w) := by
    simp only [List.mem_append, List.mem_cons, not_or] at hline ⊢
    obtain ⟨⟨-, ⟨-, hm, -⟩, -, htext, hgap⟩, hend⟩ := hline
    exact ⟨hm, htext, hgap, hend⟩
  have hspecifier := neutral_specifier o.quote hchars hm hslash
  have hend := (neutral_of_isStatementChar hv).append (neutral_closing hclosing hrest htext)
  have hall := (neutral_of_isStatementChar hu).append (hspecifier.append hend)
  simpa only [List.append_assoc] using hall

/-- **A statement on a line of its own is neutral**, if its quotation marks are what they seem. -/
theorem neutral_of_ofLine? (h : Statement.ofLine? l n = some s) (hline : '\n' ∉ l)
    (hslash : '\\' ∉ s.specifier) : Context.Neutral (l ++ ['\n']) := by
  obtain ⟨hraw, -, before, c, after, o, hparts⟩ :=
    Statement.ofBare?_cases (Statement.ofLine?_eq ▸ h)
  obtain ⟨mark, returns, hmark, hreturns, hl⟩ := exists_bareLine_append l n
  have hsplit : l = mark ++ (before ++ (c ++ (after ++ returns))) := by
    rw [hl, ← hraw, hparts.raw]
    simp only [List.append_assoc]
  have hend : Context.Neutral (after ++ returns ++ ['\n']) := by
    apply neutral_ending hparts.ending
    · exact hreturns.mono fun _ => isPlain_of_eq (by decide)
    · rw [hsplit] at hline
      simp only [List.mem_append, not_or] at hline ⊢
      exact hline.2.2.2
    · rw [hparts.eq_ofParts] at hslash
      exact hslash
  have hfront : Context.Neutral mark :=
    Context.neutral_of_allIn (hmark.mono fun _ => isPlain_of_eq (by decide))
  have hopening := neutral_of_isStatementChar (hparts.opening.chars hparts.indent)
  have hbody := neutral_of_isBody hparts.isBody
  have hall := hfront.append (hopening.append (hbody.append hend))
  rw [hsplit]
  simpa only [List.append_assoc] using hall

/-! ### What stands between merged statements -/

/-- The line holds a statement, and no backslash stands in its module specifier. -/
def holdsStatement (p : Int × Text) : Bool :=
  (Statement.ofLine? p.2 p.1).any fun s => '\\' ∉ s.specifier

/-- The text from one line up to another one without the statements that stand in code. -/
def otherText (t : Text) (m n : Int) : Text :=
  Context.ofLines ((contextAt t m).without holdsStatement (linesBetween t m n))

theorem neutral_of_holdsStatement {p : Int × Text} (hp : p ∈ numberedLines t)
    (h : holdsStatement p = true) : Context.Neutral (p.2 ++ ['\n']) := by
  obtain ⟨s, hs, hslash⟩ := (Option.any_eq_true _ _).1 h
  have hline := not_mem_of_mem_numberedLines hp
  exact neutral_of_ofLine? hs hline (of_decide_eq_true hslash)

theorem sharesContext_iff_otherText {m : Int} (h : m ≤ n) : SharesContext t m n ↔
    ¬ (contextAt t m).InComment ∧ ¬ ((contextAt t m).scan (otherText t m n)).InComment ∧
      Context.Stays (contextAt t m).depth (contextAt t m) (otherText t m n) := by
  have hneutral : ∀ p ∈ linesBetween t m n, holdsStatement p = true →
      Context.Neutral (p.2 ++ ['\n']) := by
    intro p hp
    exact neutral_of_holdsStatement (List.mem_of_mem_filter hp)
  obtain ⟨hscan, hstays⟩ := Context.scan_without (c := contextAt t m)
    (d := (contextAt t m).depth) hneutral
  rw [sharesContext_iff, contextAt_eq_scan h, otherText, hscan, hstays]

/-- **Statements do not part the statements that are merged.**  A statement is merged into an
    earlier one of the same module and class, wherever the two stand.  Whether they share a live
    context is up to the other text between them. -/
theorem redirects_share_context_iff (h : (n, f) ∈ (ImportTable.ofText t).merge.redirects) :
    f < n ∧
    (∃ s ∈ ImportTable.ofText t, ∃ r ∈ ImportTable.ofText t, s.line = n ∧ r.line = f ∧
      s.specifier = r.specifier ∧ s.mergeKey = r.mergeKey) ∧
    (SharesContext t f n ↔
      ¬ (contextAt t f).InComment ∧ ¬ ((contextAt t f).scan (otherText t f n)).InComment ∧
        Context.Stays (contextAt t f).depth (contextAt t f) (otherText t f n)) := by
  obtain ⟨g, hg, -, rfl, s, hs, rfl⟩ := ImportTable.mem_redirects_iff.1 h
  have hlt := ImportTable.first_line_lt (isSorted_ofText t) hg hs
  obtain ⟨hfirst, hspecifier, hkey⟩ :=
    ImportTable.mem_of_mem_statements hg (ImportTable.first_mem_statements g)
  obtain ⟨hlater, hspecifier', hkey'⟩ :=
    ImportTable.mem_of_mem_statements hg (ImportTable.mem_statements_of_later hs)
  refine ⟨hlt, ⟨s, hlater, g.first, hfirst, rfl, rfl, ?_, ?_⟩, ?_⟩
  · rw [hspecifier', hspecifier]
  · rw [hkey', hkey]
  · exact sharesContext_iff_otherText (Int.le_of_lt hlt)

/-- The brace in the comment closes nothing. -/
theorem redirects_share_context_iff_comment :
    let t := ("import \x7b a \x7d from 'm';\nfunction f() \x7b // \x7d\n\x7d\n" ++
      "import \x7b b \x7d from 'm';\n").toList
    (4, 1) ∈ (ImportTable.ofText t).merge.redirects ∧ SharesContext t 1 4 ∧
      otherText t 1 4 = "function f() \x7b // \x7d\n\x7d\n".toList := by
  intro t
  have h : (4, 1) ∈ (ImportTable.ofText t).merge.redirects := by decide +kernel
  refine ⟨h, ?_, by decide +kernel⟩
  apply (redirects_share_context_iff h).2.2.2
  decide +kernel

/-- A statement of one function takes over the binding of another function. -/
theorem redirects_leave_context :
    let t := ("function a() \x7b\n  const x = require('m');\n\x7d\n" ++
      "function b() \x7b\n  const x = require('m');\n\x7d\n").toList
    (5, 2) ∈ (ImportTable.ofText t).merge.redirects ∧ ¬ SharesContext t 2 5 := by
  decide +kernel

end ImportRepair
