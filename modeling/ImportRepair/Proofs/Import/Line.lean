import ImportRepair.Proofs.Import.Frame

/-!
# Reading a line

A recognised line is a body, the clause or the target, between an opening and
an ending.  `Statement.ofBare?_line` reads such a line, and
`Statement.ofBare?_cases` finds the three parts in any line that is recognised.
The ending alone decides the module and the layout, the body alone the
bindings.
-/

namespace ImportRepair

open Text

variable {t c after before raw indent gap gap' : Text} {o : Origin} {bs : List Binding} {n m : Int}

/-! ### What follows the word `import` -/

theorem stops_of_originBehind? (h : originBehind? t = some o) : Stops isNamePart t := by
  obtain ⟨g, g', r, hne, hg, -, -, -, -, -, rfl⟩ := originBehind?_eq_some_iff.1 h
  exact stops_append (hg.stops fun _ => isNamePart_of_isBlank) hne

theorem head?_types (hne : gap ≠ []) (hgap : AllIn isBlank gap) (hne' : gap' ≠ [])
    (hgap' : AllIn isBlank gap') (hc : IsClauseText true c) (ho : originBehind? after = some o) :
    head? (gap ++ ("type".toList ++ (gap' ++ (c ++ after)))) = some ⟨true, c, o⟩ := by
  have hclause := shortestClause?_append hc.isTrimmed hc.chars hc.line ho
  have hbody : afterBlanks? (gap ++ ("type".toList ++ (gap' ++ (c ++ after)))) =
      some ("type".toList ++ (gap' ++ (c ++ after))) :=
    afterBlanks?_eq_some_iff.2 ⟨gap, hne, hgap, stops_cons.2 (by decide), rfl⟩
  have hlead : List.isPrefixOf? "type".toList ("type".toList ++ (gap' ++ (c ++ after))) =
      some (gap' ++ (c ++ after)) := isPrefixOf?_eq_some_iff.2 rfl
  have hrest : afterBlanks? (gap' ++ (c ++ after)) = some (c ++ after) :=
    afterBlanks?_eq_some_iff.2
      ⟨gap', hne', hgap', stops_append hc.isTrimmed.head hc.isTrimmed.ne_nil, rfl⟩
  simp only [head?, bind, hbody, Option.bind_some, hlead, hrest, hclause]

/-- The word `type` with white space behind it does not stand in front of a clause of values. -/
theorem afterWord?_type_append (hc : IsClauseText false c) (ho : originBehind? after = some o) :
    afterWord? "type".toList (c ++ after) = none := by
  obtain ⟨hword, hnone⟩ := hc.word rfl
  rw [afterWord?, Option.bind_eq_none_iff]
  intro g hg
  rcases List.append_eq_append_iff.1 (isPrefixOf?_eq_some_iff.1 hg) with
    ⟨w, htype, hafter⟩ | ⟨w, hcw, hgw⟩
  · have hw : w ≠ [] := by
      rintro rfl
      exact hword (by rw [htype, List.append_nil])
    have hpart : AllIn isNamePart (c ++ w) := htype ▸ by simp; decide
    obtain ⟨d, w, rfl⟩ := List.exists_cons_of_ne_nil hw
    have hstop := stops_of_originBehind? ho
    rw [hafter, List.cons_append, stops_cons] at hstop
    simp [hstop] at hpart
  · rw [Option.eq_none_iff_forall_ne_some]
    intro r hr
    obtain ⟨d, w, rfl⟩ : ∃ d v, w = d :: v := by
      refine List.exists_cons_of_ne_nil ?_
      rintro rfl
      exact hword (by rw [hcw, List.append_nil])
    rw [hgw, List.cons_append, afterBlanks?] at hr
    split at hr
    · next hd =>
      have hread : afterWord? "type".toList c = some (trimLeft w) := by
        rw [afterWord?, isPrefixOf?_eq_some_iff.2 hcw, Option.bind_some, afterBlanks?, if_pos hd]
      rw [hnone] at hread
      cases hread
    · simp at hr

theorem head?_values (hne : gap ≠ []) (hgap : AllIn isBlank gap) (hc : IsClauseText false c)
    (ho : originBehind? after = some o) :
    head? (gap ++ (c ++ after)) = some ⟨false, c, o⟩ := by
  have hclause := shortestClause?_append hc.isTrimmed hc.chars hc.line ho
  have hbody : afterBlanks? (gap ++ (c ++ after)) = some (c ++ after) :=
    afterBlanks?_eq_some_iff.2
      ⟨gap, hne, hgap, stops_append hc.isTrimmed.head hc.isTrimmed.ne_nil, rfl⟩
  have hword := afterWord?_type_append hc ho
  rw [afterWord?, Option.bind_eq_none_iff] at hword
  simp only [head?, bind, hbody, Option.bind_some, hclause, Option.map_some]
  split
  · rfl
  · next g hg => rw [hword g hg]

/-- A clause that is the one word `type` is read where no longer clause is found behind it. -/
theorem head?_wordType {r : Text} (hne : gap ≠ []) (hgap : AllIn isBlank gap)
    (hafter : after = gap' ++ r) (hne' : gap' ≠ []) (hgap' : AllIn isBlank gap')
    (hthree : splitsInThree gap' = false) (hr : Stops isBlank r)
    (ho : originBehind? after = some o) :
    head? (gap ++ ("type".toList ++ after)) =
      some (match shortestClause? r with
        | some (c, o') => ⟨true, c, o'⟩
        | none => ⟨false, "type".toList, o⟩) := by
  have hbody : afterBlanks? (gap ++ ("type".toList ++ after)) = some ("type".toList ++ after) :=
    afterBlanks?_eq_some_iff.2 ⟨gap, hne, hgap, stops_cons.2 (by decide), rfl⟩
  have hlead : List.isPrefixOf? "type".toList ("type".toList ++ after) = some after :=
    isPrefixOf?_eq_some_iff.2 rfl
  have hrest : afterBlanks? after = some r :=
    afterBlanks?_eq_some_iff.2 ⟨gap', hne', hgap', hr, hafter⟩
  have hname : IsName "type".toList := by decide
  have huntyped : shortestClause? ("type".toList ++ after) = some ("type".toList, o) :=
    shortestClause?_append hname.isTrimmed
      (hname.allIn.mono fun _ => isSpecifierChar_of_isNamePart) (by decide) ho
  have hwide : after.takeWhile isBlank = gap' := by rw [hafter, takeWhile_run hgap' hr]
  simp only [head?, bind, hbody, Option.bind_some, hlead, hrest, hwide, hthree, Bool.false_and,
    Bool.false_eq_true, if_false, huntyped, Option.map_some]
  cases shortestClause? r <;> rfl

/-- What is found between the word `import` and the end of a line. -/
inductive HeadIn : Text → Head → Prop
  | types {gap gap' c after : Text} {o : Origin} (hne : gap ≠ []) (hgap : AllIn isBlank gap)
      (hne' : gap' ≠ []) (hgap' : AllIn isBlank gap') (hc : IsTrimmed c) (hline : '\n' ∉ c)
      (ho : originBehind? after = some o) :
      HeadIn (gap ++ ("type".toList ++ (gap' ++ (c ++ after)))) ⟨true, c, o⟩
  | values {gap c after : Text} {o : Origin} (hne : gap ≠ []) (hgap : AllIn isBlank gap)
      (hc : IsTrimmed c) (hline : '\n' ∉ c) (ho : originBehind? after = some o)
      (hword : c = "type".toList ∨ afterWord? "type".toList c = none) :
      HeadIn (gap ++ (c ++ after)) ⟨false, c, o⟩

/-- A text that begins with a clause `type …` begins with the word `type` and white space. -/
theorem exists_afterBlanks?_of_afterWord? (h : afterWord? "type".toList c = some t) (w : Text) :
    ∃ g, List.isPrefixOf? "type".toList (c ++ w) = some g ∧ (afterBlanks? g).isSome := by
  obtain ⟨g, hne, hg, -, rfl⟩ := afterWord?_eq_some_iff.1 h
  refine ⟨g ++ t ++ w, isPrefixOf?_eq_some_iff.2 (by simp), ?_⟩
  obtain ⟨d, g, rfl⟩ := List.exists_cons_of_ne_nil hne
  simp [afterBlanks?, (allIn_cons.1 hg).1]

/-- The rest of a clause `type …` would be found as a clause of its own. -/
theorem afterWord?_of_shortestClause?_eq_none {r : Text} (hgap : AllIn isBlank gap)
    (hr : Stops isBlank r) (hnone : shortestClause? r = none)
    (hc : shortestClause? ("type".toList ++ (gap ++ r)) = some (c, o)) :
    c = "type".toList ∨ afterWord? "type".toList c = none := by
  by_cases hword : c = "type".toList
  · exact Or.inl hword
  refine Or.inr (Option.eq_none_iff_forall_ne_some.2 fun v hv => ?_)
  have htype : Stops isBlank ("type".toList ++ (gap ++ r)) := stops_cons.2 (by decide)
  obtain ⟨htrim, hline, after, heq, ho⟩ := shortestClause?_eq_some htype hc
  obtain ⟨g, hne, hg, hstop, rfl⟩ := afterWord?_eq_some_iff.1 hv
  rw [List.append_assoc, List.append_assoc] at heq
  have hrest := List.append_cancel_left heq
  have hvne : v ≠ [] := by
    rintro rfl
    obtain ⟨x, hx⟩ := Option.ne_none_iff_exists'.1 (mt List.getLast?_eq_none_iff.1 hne)
    have hlast := htrim.last x (by rw [List.append_nil, List.getLast?_append, hx]; rfl)
    simp [hg x (List.mem_of_getLast? hx)] at hlast
  obtain ⟨-, rfl⟩ := run_unique hrest hgap hr hg (stops_append hstop hvne)
  have hfound : (shortestClause? (v ++ after)).isSome :=
    splitShortest?_isSome hvne (fun hmem => hline (by simp [hmem])) ho
  simp [hnone] at hfound

theorem headIn_of_shortestClause? {h : Head} {r : Text} (hne : gap ≠ []) (hgap : AllIn isBlank gap)
    (hstop : Stops isBlank r)
    (hread : ((shortestClause? r).map fun p => (⟨false, p.1, p.2⟩ : Head)) = some h)
    (hword : ∀ c o, shortestClause? r = some (c, o) →
      c = "type".toList ∨ afterWord? "type".toList c = none) :
    HeadIn (gap ++ r) h := by
  obtain ⟨⟨c, o⟩, hc, rfl⟩ := Option.map_eq_some_iff.1 hread
  obtain ⟨htrim, hline, after, rfl, ho⟩ := shortestClause?_eq_some hstop hc
  exact .values hne hgap htrim hline ho (hword c o hc)

theorem headIn_of_head? {h : Head} (hread : head? t = some h) : HeadIn t h := by
  simp only [head?, bind, Option.bind_eq_some_iff] at hread
  obtain ⟨r, hr, hread⟩ := hread
  obtain ⟨gap, hne, hgap, hstop, rfl⟩ := afterBlanks?_eq_some_iff.1 hr
  -- a clause is not of the form `type …` where that word and white space are not at the front
  have huntyped : (∀ g, List.isPrefixOf? "type".toList r = some g → afterBlanks? g = none) →
      ∀ c o, shortestClause? r = some (c, o) →
        c = "type".toList ∨ afterWord? "type".toList c = none := by
    intro hnone c o hc
    obtain ⟨-, -, after, rfl, -⟩ := shortestClause?_eq_some hstop hc
    refine Or.inr (Option.eq_none_iff_forall_ne_some.2 fun u hu => ?_)
    obtain ⟨g, hg, hsome⟩ := exists_afterBlanks?_of_afterWord? hu after
    simp [hnone g hg] at hsome
  split at hread
  · next hlead =>
    refine headIn_of_shortestClause? hne hgap hstop hread (huntyped fun g hg => ?_)
    rw [hlead] at hg
    cases hg
  · next g hlead =>
    split at hread
    · next hblanks =>
      refine headIn_of_shortestClause? hne hgap hstop hread (huntyped fun g' hg' => ?_)
      rw [hlead] at hg'
      cases hg'
      exact hblanks
    · next u hblanks =>
      obtain ⟨gap', hne', hgap', hstop', rfl⟩ := afterBlanks?_eq_some_iff.1 hblanks
      obtain rfl := isPrefixOf?_eq_some_iff.1 hlead
      split at hread
      · next c o hc =>
        cases hread
        obtain ⟨htrim, hline, after, rfl, ho⟩ := shortestClause?_eq_some hstop' hc
        exact .types hne hgap hne' hgap' htrim hline ho
      · next hnone =>
        split at hread
        · simp at hread
        · exact headIn_of_shortestClause? hne hgap hstop hread fun c o hc =>
            afterWord?_of_shortestClause?_eq_none hgap' hstop' hnone hc

/-! ### The three parts of a line -/

/-- What follows the target of a `require` declaration. -/
def requireBehind? (t : Text) : Option Origin := do
  let r ← afterMark? '=' t
  let r ← "require(".toList.isPrefixOf? r
  let (quote, specifier, r) ← specifier? (trimLeft r)
  let r ← afterMark? ')' r
  let c ← closing? r
  some ⟨quote, specifier, c⟩

namespace Form

/-- The ending of a line of this form. -/
def ending? : Form → Text → Option Origin
  | .es _ => originBehind?
  | .commonJs _ => requireBehind?

/-- The text is a body of a line of this form, with these bindings. -/
def Reads : Form → Text → List Binding → Prop
  | .es typeOnly, c, bs => clause? typeOnly c = some bs ∧ IsClauseText typeOnly c
  | .commonJs _, c, bs => Stops isBlank c ∧ c ≠ [] ∧
      ∀ r, Stops isNamePart r → target? (c ++ r) = some (some bs, r)

end Form

/-- The indentation of a line and what stands in front of its body. -/
inductive Opening (indent : Text) : Form → Text → Prop
  | values {gap : Text} (hne : gap ≠ []) (hgap : AllIn isBlank gap) :
      Opening indent (.es false) (indent ++ ("import".toList ++ gap))
  | types {gap gap' : Text} (hne : gap ≠ []) (hgap : AllIn isBlank gap) (hne' : gap' ≠ [])
      (hgap' : AllIn isBlank gap') :
      Opening indent (.es true)
        (indent ++ ("import".toList ++ (gap ++ ("type".toList ++ gap'))))
  | require (k : Keyword) {gap : Text} (hne : gap ≠ []) (hgap : AllIn isBlank gap) :
      Opening indent (.commonJs k) (indent ++ (k.text ++ gap))

namespace Statement

/-- The statement on a line without carriage return and byte order mark. -/
def ofBare? (raw : Text) (n : Int) : Option Statement :=
  match "import".toList.isPrefixOf? (raw.dropWhile isBlank) with
  | some r => importLine? raw (raw.takeWhile isBlank) r n
  | none => requireLine? raw (raw.takeWhile isBlank) (raw.dropWhile isBlank) n

theorem ofLine?_eq : ofLine? t n = ofBare? (bareLine t n) n := rfl

/-- The statement with the given layout, bindings and place. -/
def ofParts (form : Form) (indent : Text) (o : Origin) (bs : List Binding) (raw : Text) (n : Int) :
    Statement :=
  { specifier := o.specifier, bindings := bs, line := n, raw, form, quote := o.quote
    semicolon := o.closing.semicolon, indent, trailing := o.closing.trailing }

end Statement

theorem keyword?_eq_some_iff {k : Keyword} {r : Text} :
    keyword? t = some (k, r) ↔ t = k.text ++ r := by
  have hone : ∀ {w : Keyword} {u : Text},
      (w.text.isPrefixOf? t).map (fun u => (w, u)) = some (k, u) → t = k.text ++ u := by
    intro w u h
    obtain ⟨v, hv, heq⟩ := Option.map_eq_some_iff.1 h
    cases heq
    exact isPrefixOf?_eq_some_iff.1 hv
  constructor
  · intro h
    obtain ⟨w, -, hw⟩ := List.exists_of_findSome?_eq_some h
    exact hone hw
  · rintro rfl
    cases k <;>
      simp [keyword?, Keyword.text, List.isPrefixOf?]

theorem stops_keyword (k : Keyword) : Stops isBlank (k.text ++ t) ∧
    List.isPrefixOf? "import".toList (k.text ++ t) = none := by
  cases k <;> exact ⟨stops_cons.2 (by decide), rfl⟩

theorem stops_of_requireBehind? (h : requireBehind? t = some o) : Stops isNamePart t := by
  simp only [requireBehind?, bind, Option.bind_eq_some_iff] at h
  obtain ⟨r, hr, -⟩ := h
  obtain ⟨g, g', hg, -, -, rfl⟩ := (afterMark?_eq_some_iff (by decide)).1 hr
  cases g with
  | nil => exact stops_cons.2 (by decide)
  | cons d g => exact stops_cons.2 (isNamePart_of_isBlank (allIn_cons.1 hg).1)

/-- **A line is read by its parts.** -/
theorem Statement.ofBare?_line {form : Form} (hindent : AllIn isBlank indent)
    (hopen : Opening indent form before) (hbody : form.Reads c bs)
    (hend : form.ending? after = some o) :
    Statement.ofBare? (before ++ (c ++ after)) n =
      some (Statement.ofParts form indent o bs (before ++ (c ++ after)) n) := by
  -- the indentation and the word behind it
  have hsplit : ∀ {r : Text}, Stops isBlank r → before ++ (c ++ after) = indent ++ r →
      (before ++ (c ++ after)).takeWhile isBlank = indent ∧
        (before ++ (c ++ after)).dropWhile isBlank = r := by
    intro r hr heq
    rw [heq]
    exact ⟨takeWhile_run hindent hr, dropWhile_run hindent hr⟩
  have himport : ∀ {r : Text} {h : Head},
      before ++ (c ++ after) = indent ++ ("import".toList ++ r) →
      head? r = some h → clause? h.typeOnly h.clause = some bs →
      Statement.ofBare? (before ++ (c ++ after)) n =
        some (Statement.ofParts (.es h.typeOnly) indent h.origin bs
          (before ++ (c ++ after)) n) := by
    intro r h heq hhead hclause
    have hstop : Stops isBlank ("import".toList ++ r) := stops_cons.2 (by decide)
    obtain ⟨htake, hdrop⟩ := hsplit hstop heq
    have hlead : List.isPrefixOf? "import".toList ("import".toList ++ r) = some r :=
      isPrefixOf?_eq_some_iff.2 rfl
    simp only [Statement.ofBare?, htake, hdrop, hlead, importLine?, bind, hhead,
      Option.bind_some, hclause, Statement.ofParts]
  cases hopen with
  | @values gap hne hgap =>
    exact himport (r := gap ++ (c ++ after)) (by simp) (head?_values hne hgap hbody.2 hend) hbody.1
  | @types gap gap' hne hgap hne' hgap' =>
    exact himport (r := gap ++ ("type".toList ++ (gap' ++ (c ++ after)))) (by simp)
      (head?_types hne hgap hne' hgap' hbody.2 hend) hbody.1
  | @require k gap hne hgap =>
    obtain ⟨hblank, hcne, htarget⟩ := hbody
    have hend : requireBehind? after = some o := hend
    obtain ⟨hstop, hnone⟩ := stops_keyword k (t := gap ++ (c ++ after))
    obtain ⟨htake, hdrop⟩ := hsplit hstop (by simp)
    have hkeyword : keyword? (k.text ++ (gap ++ (c ++ after))) = some (k, gap ++ (c ++ after)) :=
      keyword?_eq_some_iff.2 rfl
    have hgap : afterBlanks? (gap ++ (c ++ after)) = some (c ++ after) :=
      afterBlanks?_eq_some_iff.2 ⟨gap, hne, hgap, stops_append hblank hcne, rfl⟩
    simp only [requireBehind?, bind, Option.bind_eq_some_iff] at hend
    obtain ⟨r, hr, u, hu, ⟨q, m, v⟩, hv, w, hw, cl, hcl, heq⟩ := hend
    cases heq
    simp only [Statement.ofBare?, htake, hdrop, hnone, requireLine?, bind, hkeyword,
      Option.bind_some, hgap, htarget after (stops_of_requireBehind? hend), hr, hu, hv, hw, hcl,
      Statement.ofParts]

/-- The parts in which a statement stands on its line. -/
structure Statement.StandsIn (s : Statement) (before c after : Text) (o : Origin) : Prop where
  indent : AllIn isBlank s.indent
  opening : Opening s.indent s.form before
  ending : s.form.ending? after = some o
  raw : s.raw = before ++ (c ++ after)
  eq_ofParts : s = Statement.ofParts s.form s.indent o s.bindings s.raw s.line
  /-- A default name `type` alone is read where nothing behind it is taken for a clause. -/
  body : s.form.Reads c s.bindings ∨
    s.form = .es false ∧ c = "type".toList ∧ s.bindings = [defaultOf false "type".toList]

/-- A target is read from the same text in front of anything that cannot continue a name. -/
theorem exists_append_of_target? {r : Text} (h : target? t = some (some bs, r)) :
    ∃ c, t = c ++ r ∧ Stops isBlank c ∧ c ≠ [] ∧
      ∀ r', Stops isNamePart r' → target? (c ++ r') = some (some bs, r') := by
  rcases target?_cases h with ⟨l, hl, -, rfl, rfl⟩ | ⟨body, hbody, rfl, hitems⟩
  · refine ⟨l, rfl, hl.isTrimmed.head, hl.ne_nil, fun r' hr => ?_⟩
    rw [target?, name?_eq_some_iff.2 ⟨rfl, hl, hr⟩]
    rfl
  · refine ⟨'\x7b' :: (body ++ ['\x7d']), by simp, stops_cons.2 (by decide), by simp, ?_⟩
    intro r' _
    have hread : braces? ('\x7b' :: (body ++ ['\x7d']) ++ r') = some (body, r') :=
      braces?_eq_some_iff.2 ⟨hbody, by simp⟩
    have hname : name? ('\x7b' :: (body ++ ['\x7d']) ++ r') = none :=
      name?_of_stops (stops_cons.2 (by decide))
    rw [target?, hname, hread, Option.map_some, hitems]

theorem Statement.standsIn_of_importLine? {s : Statement} (hindent : AllIn isBlank indent)
    (hraw : raw = indent ++ ("import".toList ++ t)) (h : importLine? raw indent t n = some s) :
    s.raw = raw ∧ s.line = n ∧ ∃ before c after o, s.StandsIn before c after o := by
  simp only [importLine?, bind, Option.bind_eq_some_iff] at h
  obtain ⟨hd, hhead, bs, hclause, heq⟩ := h
  cases heq
  have hchars := isSpecifierChar_of_clause? hclause
  refine ⟨rfl, rfl, ?_⟩
  cases headIn_of_head? hhead with
  | @types gap gap' c after o hne hgap hne' hgap' htrim hline ho =>
    have hc : IsClauseText true c := ⟨htrim, hchars, hline, by simp⟩
    exact ⟨_, c, after, o, hindent, .types hne hgap hne' hgap', ho, by simpa using hraw, rfl,
      Or.inl ⟨hclause, hc⟩⟩
  | @values gap c after o hne hgap htrim hline ho hword =>
    refine ⟨_, c, after, o, hindent, .values hne hgap, ho, by simpa using hraw, rfl, ?_⟩
    by_cases hc : c = "type".toList
    · refine Or.inr ⟨rfl, hc, ?_⟩
      have hread : clause? false "type".toList = some [defaultOf false "type".toList] := by rfl
      rw [hc] at hclause
      exact Option.some.inj (hclause.symm.trans hread)
    · exact Or.inl ⟨hclause, htrim, hchars, hline, fun _ => ⟨hc, hword.resolve_left hc⟩⟩

theorem Statement.standsIn_of_requireLine? {s : Statement} (hindent : AllIn isBlank indent)
    (hraw : raw = indent ++ t) (h : requireLine? raw indent t n = some s) :
    s.raw = raw ∧ s.line = n ∧ ∃ before c after o, s.StandsIn before c after o := by
  simp only [requireLine?, bind, Option.bind_eq_some_iff] at h
  obtain ⟨⟨k, r⟩, hkeyword, u, hgap, ⟨bs?, v⟩, htarget, w, hw, x, hx, ⟨q, m, y⟩, hy, z, hz, cl, hcl,
    bs, hbs, heq⟩ := h
  cases heq
  have hbs : bs? = some bs := hbs
  subst hbs
  obtain ⟨gap, hne, hblank, hstop, rfl⟩ := afterBlanks?_eq_some_iff.1 hgap
  obtain rfl := keyword?_eq_some_iff.1 hkeyword
  have hend : requireBehind? v = some ⟨q, m, cl⟩ := by
    simp only [requireBehind?, bind, hw, hx, hy, hz, hcl, Option.bind_some]
  obtain ⟨c, rfl, hc⟩ := exists_append_of_target? htarget
  exact ⟨rfl, rfl, _, c, v, ⟨q, m, cl⟩, hindent, .require k hne hblank, hend,
    by simpa using hraw, rfl, Or.inl hc⟩

/-- **The parts of a recognised line.** -/
theorem Statement.ofBare?_cases {s : Statement} (h : Statement.ofBare? raw n = some s) :
    s.raw = raw ∧ s.line = n ∧ ∃ before c after o, s.StandsIn before c after o := by
  have hindent : AllIn isBlank (raw.takeWhile isBlank) := allIn_takeWhile
  have hraw : raw = raw.takeWhile isBlank ++ raw.dropWhile isBlank :=
    List.takeWhile_append_dropWhile.symm
  unfold Statement.ofBare? at h
  split at h
  · next r hlead =>
    rw [isPrefixOf?_eq_some_iff.1 hlead] at hraw
    exact standsIn_of_importLine? hindent hraw h
  · exact standsIn_of_requireLine? hindent hraw h

end ImportRepair
