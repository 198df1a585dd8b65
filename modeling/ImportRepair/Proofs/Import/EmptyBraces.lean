import ImportRepair.Fix.Console
import ImportRepair.Proofs.Import.Removal

/-!
# What the cleanup deletes

The cleanup looks for empty braces and for the end of a line, and for little in
between.  The quotation marks around a module specifier need not be equal, and
behind `require(` anything may stand that ends in a parenthesis.  So a deleted
line is one complete statement only where the quotation marks agree, or where
the last parenthesis of the line is the one that closes the call.
-/

namespace ImportRepair

open Text

variable {t r u arguments closing : Text} {region : ArgumentRegion} {depth : Nat} {l : Text}

/-! ### The end of a call -/

/-- What follows the parenthesis that closes a call, where the text stands in its arguments and
    `depth` more parentheses are open in front of it.  Strings are skipped. -/
def behindCall? (region : ArgumentRegion) (depth : Nat) : Text → Option Text
  | [] => none
  | c :: r =>
    match region with
    | .escape m => behindCall? (.string m) depth r
    | .string m =>
      if c = '\\' then behindCall? (.escape m) depth r
      else if c = m then behindCall? .plain depth r
      else behindCall? (.string m) depth r
    | .plain =>
      if isStringMark c then behindCall? (.string c) depth r
      else if c = '(' then behindCall? .plain (depth + 1) r
      else if c = ')' then
        match depth with
        | 0 => some r
        | n + 1 => behindCall? .plain n r
      else behindCall? .plain depth r

theorem behindCall?_eq_some (h : behindCall? region depth t = some r) :
    ∃ u, t = u ++ ')' :: r := by
  induction t generalizing region depth with
  | nil => cases h
  | cons c t ih =>
    have hcons : (∃ u, t = u ++ ')' :: r) → ∃ u, c :: t = u ++ ')' :: r := by
      rintro ⟨u, rfl⟩
      exact ⟨c :: u, rfl⟩
    cases region with
    | escape m => exact hcons (ih h)
    | string m =>
      simp only [behindCall?] at h
      split at h
      · exact hcons (ih h)
      · split at h
        · exact hcons (ih h)
        · exact hcons (ih h)
    | plain =>
      simp only [behindCall?] at h
      split at h
      · exact hcons (ih h)
      · split at h
        · exact hcons (ih h)
        · split at h
          · next hc =>
            cases depth with
            | zero =>
              obtain rfl : t = r := Option.some.inj h
              exact ⟨[], by rw [hc]; rfl⟩
            | succ n => exact hcons (ih h)
          · exact hcons (ih h)

theorem behindCall?_eq_none (h : ')' ∉ t) : behindCall? region depth t = none := by
  rw [Option.eq_none_iff_forall_ne_some]
  intro r hr
  obtain ⟨u, rfl⟩ := behindCall?_eq_some hr
  exact h (by simp)

/-- **The last parenthesis closes the call where the arguments are balanced.**  The induction goes
    through the arguments; only their end tells a call apart that goes on behind the parenthesis. -/
theorem behindCall?_eq_some_iff (hclosing : ')' ∉ closing) :
    behindCall? region depth (arguments ++ ')' :: closing) = some closing ↔
      isBalanced region depth arguments = true := by
  induction arguments generalizing region depth with
  | nil =>
    have hnone : ∀ region depth, behindCall? region depth closing ≠ some closing := by
      intro region depth
      rw [behindCall?_eq_none hclosing]
      exact nofun
    cases region with
    | escape m => simpa [behindCall?, isBalanced] using hnone _ _
    | string m =>
      simp only [List.nil_append, behindCall?, isBalanced]
      have hregion : (ArgumentRegion.string m == .plain) = false := rfl
      rw [hregion, Bool.and_false]
      split
      · simpa using hnone _ _
      · split
        · simpa using hnone _ _
        · simpa using hnone _ _
    | plain =>
      have hparenthesis : isStringMark ')' = false := by decide
      cases depth with
      | zero => simp [behindCall?, isBalanced, hparenthesis]
      | succ n => simpa [behindCall?, isBalanced, hparenthesis] using hnone _ _
  | cons c arguments ih =>
    cases region with
    | escape m => exact ih
    | string m =>
      simp only [List.cons_append, behindCall?, isBalanced]
      split
      · exact ih
      · split
        · exact ih
        · exact ih
    | plain =>
      simp only [List.cons_append, behindCall?, isBalanced]
      split
      · exact ih
      · split
        · exact ih
        · split
          · cases depth with
            | zero =>
              have hlonger : arguments ++ ')' :: closing ≠ closing := by
                intro heq
                have hlength := congrArg List.length heq
                simp only [List.length_append, List.length_cons] at hlength
                omega
              simpa using hlonger
            | succ n => exact ih
          · exact ih

/-! ### Ends of statements -/

/-- White space with at most one semicolon in it. -/
def EndsStatement (t : Text) : Prop :=
  ∃ g g', AllIn isBlank g ∧ AllIn isBlank g' ∧ (t = g ∨ t = g ++ ';' :: g')

theorem EndsStatement.not_mem (h : EndsStatement t) : ')' ∉ t := by
  obtain ⟨g, g', hg, hg', ht⟩ := h
  have hblank : ∀ w, AllIn isBlank w → ')' ∉ w := fun w hw hmem => absurd (hw _ hmem) (by decide)
  rcases ht with rfl | rfl
  · exact hblank _ hg
  · simp [hblank _ hg, hblank _ hg']

theorem isStatementEnd_iff : isStatementEnd t = true ↔ EndsStatement t := by
  unfold isStatementEnd
  obtain ⟨g, hg, hspan⟩ := exists_trimLeft t
  constructor
  · intro h
    split at h
    · next w hw =>
      exact ⟨g, w, hg, List.all_eq_true.1 h, Or.inr (by rw [← hw, ← hspan])⟩
    · rw [List.isEmpty_iff.1 h, List.append_nil] at hspan
      exact ⟨g, [], hg, by simp, Or.inl hspan⟩
  · rintro ⟨w, w', hw, hw', rfl | rfl⟩
    · rw [trimLeft_of_allIn hw]
      rfl
    · rw [trimLeft_run hw (stops_cons.2 (by decide))]
      exact List.all_eq_true.2 hw'

theorem trimRight_run {w g : Text} {c : Char} (hc : isBlank c = false) (hg : AllIn isBlank g) :
    trimRight (w ++ c :: g) = w ++ [c] := by
  rw [List.append_cons]
  exact dropEndWhile_append_run hg (by simpa using hc)

/-- The arguments of a call at the end of a line stand in front of its last parenthesis. -/
theorem callBody?_eq_some_iff : callBody? t = some arguments ↔
    ∃ closing, EndsStatement closing ∧ t = arguments ++ ')' :: closing := by
  have hends : ∀ {w v : Text}, (if w.getLast? = some ')' then some w.dropLast else none) = some v →
      w = v ++ [')'] := by
    intro w v h
    split at h
    · next hw => rw [← Option.some.inj h, List.dropLast_append_getLast? _ hw]
    · cases h
  constructor
  · intro h
    simp only [callBody?] at h
    obtain ⟨g, hg, hspan⟩ := exists_dropEndWhile_append (p := isBlank) (t := t)
    change t = trimRight t ++ g at hspan
    split at h
    · next hsemicolon =>
      obtain ⟨g', hg', hspan'⟩ :=
        exists_dropEndWhile_append (p := isBlank) (t := (trimRight t).dropLast)
      change _ = trimRight (trimRight t).dropLast ++ g' at hspan'
      refine ⟨g' ++ ';' :: g, ⟨g', g, hg', hg, Or.inr rfl⟩, ?_⟩
      have hbody := List.dropLast_append_getLast? _ hsemicolon
      rw [hspan, ← hbody, hspan', hends h]
      simp
    · refine ⟨g, ⟨g, [], hg, by simp, Or.inl rfl⟩, ?_⟩
      rw [hspan, hends h]
      simp
  · have hparenthesis : ∀ {g : Text}, AllIn isBlank g →
        trimRight (arguments ++ ')' :: g) = arguments ++ [')'] := trimRight_run (by decide)
    rintro ⟨closing, ⟨g, g', hg, hg', rfl | rfl⟩, rfl⟩
    · simp [callBody?, hparenthesis hg]
    · have hsemicolon : trimRight (arguments ++ ')' :: (g ++ ';' :: g')) =
          arguments ++ ')' :: g ++ [';'] := by
        rw [← trimRight_run (by decide) hg', List.append_assoc, List.cons_append]
      simp only [callBody?, hsemicolon, List.getLast?_concat, if_true, List.dropLast_concat,
        hparenthesis hg]

/-! ### The two patterns -/

theorem afterEmptyBraces?_eq_some_iff : afterEmptyBraces? t = some r ↔ ∃ body g,
    AllIn isBlank body ∧ AllIn isBlank g ∧ Stops isBlank r ∧
      t = '\x7b' :: (body ++ '\x7d' :: (g ++ r)) := by
  constructor
  · intro h
    unfold afterEmptyBraces? at h
    split at h
    · next body rest hbraces =>
      split at h
      · next hblank =>
        obtain ⟨g, hg, hspan⟩ := exists_trimLeft rest
        rw [← Option.some.inj h]
        refine ⟨body, g, List.all_eq_true.1 hblank, hg, stops_trimLeft, ?_⟩
        rw [← hspan]
        exact (braces?_eq_some_iff.1 hbraces).2
      · cases h
    · cases h
  · rintro ⟨body, g, hbody, hg, hr, rfl⟩
    have hbraces : braces? ('\x7b' :: (body ++ '\x7d' :: (g ++ r))) = some (body, g ++ r) :=
      braces?_eq_some_iff.2 ⟨hbody.mono fun _ => isNoBrace_of_isBlank, rfl⟩
    have hblank : allBlank body = true := List.all_eq_true.2 hbody
    rw [afterEmptyBraces?, hbraces]
    simp only [hblank, if_true, trimLeft_run hg hr]

theorem isSpecifierChar_eq_false_iff {c : Char} :
    isSpecifierChar c = false ↔ ∃ q : Quote, c = q.char := by
  constructor
  · intro h
    simp only [isSpecifierChar, Bool.and_eq_false_iff, bne_eq_false_iff_eq] at h
    rcases h with rfl | rfl
    · exact ⟨.single, rfl⟩
    · exact ⟨.double, rfl⟩
  · rintro ⟨q, rfl⟩
    exact isSpecifierChar_quote q

theorem afterQuoted?_eq_some_iff : afterQuoted? t = some r ↔ ∃ (q q' : Quote) (m : Text),
    m ≠ [] ∧ AllIn isSpecifierChar m ∧ t = q.char :: (m ++ q'.char :: r) := by
  constructor
  · intro h
    cases t with
    | nil => cases h
    | cons c t =>
      simp only [afterQuoted?] at h
      split at h
      · cases h
      · next hc =>
        obtain ⟨q, rfl⟩ := isSpecifierChar_eq_false_iff.1 (Bool.eq_false_iff.2 hc)
        split at h
        · next a m d rest hm hrest =>
          obtain rfl := Option.some.inj h
          have hstop : Stops isSpecifierChar (d :: rest) := hrest ▸ stops_dropWhile
          obtain ⟨q', rfl⟩ := isSpecifierChar_eq_false_iff.1 (stops_cons.1 hstop)
          have hspan := List.takeWhile_append_dropWhile (p := isSpecifierChar) (l := t)
          refine ⟨q, q', t.takeWhile isSpecifierChar, ?_, allIn_takeWhile, ?_⟩
          · rw [hm]
            exact List.cons_ne_nil _ _
          · rw [← hrest, hspan]
        · cases h
  · rintro ⟨q, q', m, hne, hm, rfl⟩
    have hstop : Stops isSpecifierChar (q'.char :: r) := stops_cons.2 (isSpecifierChar_quote q')
    simp only [afterQuoted?, isSpecifierChar_quote, takeWhile_run hm hstop, dropWhile_run hm hstop]
    cases m with
    | nil => exact absurd rfl hne
    | cons c m => rfl

/-- What follows the words in front of the braces. -/
theorem exists_opening_iff : (∃ w, afterWord? "import".toList (trimLeft t) = some w ∧
    (afterWord? "type".toList w).getD w = '\x7b' :: u) ↔ ∃ indent typeOnly front,
      AllIn isBlank indent ∧ Opening indent (.es typeOnly) front ∧ t = front ++ '\x7b' :: u := by
  constructor
  · rintro ⟨w, hw, hu⟩
    obtain ⟨indent, hindent, hspan⟩ := exists_trimLeft t
    obtain ⟨gap, hne, hgap, -, htrim⟩ := afterWord?_eq_some_iff.1 hw
    rw [htrim] at hspan
    cases htype : afterWord? "type".toList w with
    | none =>
      rw [htype, Option.getD_none] at hu
      refine ⟨indent, false, _, hindent, .values hne hgap, ?_⟩
      rw [hspan, hu]
      simp only [List.append_assoc]
    | some v =>
      rw [htype, Option.getD_some] at hu
      obtain ⟨gap', hne', hgap', -, rfl⟩ := afterWord?_eq_some_iff.1 htype
      refine ⟨indent, true, _, hindent, .types hne hgap hne' hgap', ?_⟩
      rw [hspan, hu]
      simp only [List.append_assoc]
  · have hbrace : Stops isBlank ('\x7b' :: u) := stops_cons.2 (by decide)
    have hword : ∀ {indent gap w : Text}, AllIn isBlank indent → gap ≠ [] → AllIn isBlank gap →
        Stops isBlank w →
        afterWord? "import".toList (trimLeft (indent ++ ("import".toList ++ (gap ++ w)))) =
          some w := by
      intro indent gap w hindent hne hgap hw
      have hstop : Stops isBlank ("import".toList ++ (gap ++ w)) := stops_cons.2 (by decide)
      rw [trimLeft_run hindent hstop]
      exact afterWord?_eq_some_iff.2 ⟨gap, hne, hgap, hw, rfl⟩
    rintro ⟨indent, typeOnly, front, hindent, hopening, rfl⟩
    cases hopening with
    | @values gap hne hgap =>
      refine ⟨'\x7b' :: u, ?_, rfl⟩
      have htext := hword hindent hne hgap hbrace
      simpa only [List.append_assoc] using htext
    | @types gap gap' hne hgap hne' hgap' =>
      have htype : afterWord? "type".toList ("type".toList ++ (gap' ++ '\x7b' :: u)) =
          some ('\x7b' :: u) := afterWord?_eq_some_iff.2 ⟨gap', hne', hgap', hbrace, rfl⟩
      refine ⟨"type".toList ++ (gap' ++ '\x7b' :: u), ?_, by rw [htype]; rfl⟩
      have htext := hword hindent hne hgap (w := "type".toList ++ (gap' ++ '\x7b' :: u))
        (stops_cons.2 (by decide))
      simpa only [List.append_assoc] using htext

/-- An `import`, of types or not, with empty braces, as far as `from`, and what follows behind
    white space. -/
def OpensImport (t r : Text) : Prop :=
  ∃ indent typeOnly front body gap gap', AllIn isBlank indent ∧
    Opening indent (.es typeOnly) front ∧ AllIn isBlank body ∧ AllIn isBlank gap ∧
    gap' ≠ [] ∧ AllIn isBlank gap' ∧ Stops isBlank r ∧
    t = front ++ '\x7b' :: (body ++ '\x7d' :: (gap ++ ("from".toList ++ (gap' ++ r))))

/-- Such an `import` of a module whose specifier stands between the quotation marks `q` and
    `q'`. -/
def EmptyImport (q q' : Quote) (t : Text) : Prop :=
  ∃ specifier closing, specifier ≠ [] ∧ AllIn isSpecifierChar specifier ∧
    EndsStatement closing ∧ OpensImport t (q.char :: (specifier ++ q'.char :: closing))

/-- What follows `from`, read as the cleanup reads it. -/
def behindFrom? (t : Text) : Option Text := do
  let r ← afterWord? "import".toList (trimLeft t)
  let r ← afterEmptyBraces? ((afterWord? "type".toList r).getD r)
  afterWord? "from".toList r

theorem behindFrom?_eq_some_iff : behindFrom? t = some r ↔ OpensImport t r := by
  simp only [behindFrom?, bind, Option.bind_eq_some_iff]
  constructor
  · rintro ⟨w, hw, v, hv, hr⟩
    obtain ⟨body, gap, hbody, hgap, -, hbraces⟩ := afterEmptyBraces?_eq_some_iff.1 hv
    obtain ⟨indent, typeOnly, front, hindent, hopening, rfl⟩ :=
      exists_opening_iff.1 ⟨w, hw, hbraces⟩
    obtain ⟨gap', hne, hgap', hstop, rfl⟩ := afterWord?_eq_some_iff.1 hr
    exact ⟨indent, typeOnly, front, body, gap, gap', hindent, hopening, hbody, hgap, hne, hgap',
      hstop, rfl⟩
  · rintro ⟨indent, typeOnly, front, body, gap, gap', hindent, hopening, hbody, hgap, hne, hgap',
      hstop, ht⟩
    obtain ⟨w, hw, hbraces⟩ := exists_opening_iff.2 ⟨indent, typeOnly, front, hindent, hopening, ht⟩
    have hempty := afterEmptyBraces?_eq_some_iff.2
      ⟨body, gap, hbody, hgap, stops_cons.2 (by decide), hbraces⟩
    exact ⟨w, hw, _, hempty, afterWord?_eq_some_iff.2 ⟨gap', hne, hgap', hstop, rfl⟩⟩

theorem OpensImport.eq (h : OpensImport t r) (h' : OpensImport t u) : r = u := by
  rw [← behindFrom?_eq_some_iff] at h h'
  exact Option.some.inj (h.symm.trans h')

theorem isEmptyEsImport_eq (t : Text) :
    isEmptyEsImport t = ((behindFrom? t).bind afterQuoted?).any isStatementEnd := by
  unfold isEmptyEsImport behindFrom?
  cases afterWord? "import".toList (trimLeft t) with
  | none => rfl
  | some w =>
    dsimp only [bind, Option.bind_some]
    cases afterEmptyBraces? ((afterWord? "type".toList w).getD w) with
    | none => rfl
    | some v =>
      dsimp only [Option.bind_some]
      cases (afterWord? "from".toList v).bind afterQuoted? with
      | none => rfl
      | some r =>
        dsimp only [Option.bind_some, Option.any_some]
        cases isStatementEnd r with
        | true => rfl
        | false => rfl

theorem isEmptyEsImport_iff : isEmptyEsImport t = true ↔ ∃ q q', EmptyImport q q' t := by
  rw [isEmptyEsImport_eq, Option.any_eq_true]
  simp only [Option.bind_eq_some_iff, behindFrom?_eq_some_iff, afterQuoted?_eq_some_iff,
    isStatementEnd_iff]
  constructor
  · rintro ⟨closing, ⟨r, hr, q, q', specifier, hne, hspecifier, rfl⟩, hend⟩
    exact ⟨q, q', specifier, closing, hne, hspecifier, hend, hr⟩
  · rintro ⟨q, q', specifier, closing, hne, hspecifier, hend, hr⟩
    exact ⟨closing, ⟨_, hr, q, q', specifier, hne, hspecifier, rfl⟩, hend⟩

theorem char_inj {q q' : Quote} (h : q.char = q'.char) : q = q' := by
  have hq : Quote.ofChar? q.char = some q := ofChar?_eq_some_iff.2 rfl
  rw [h, ofChar?_eq_some_iff.2 rfl] at hq
  exact (Option.some.inj hq).symm

/-- The quotation marks of an `import` are fixed by its line. -/
theorem EmptyImport.quotes_eq {q q' p p' : Quote} (h : EmptyImport q q' t)
    (h' : EmptyImport p p' t) : q = p ∧ q' = p' := by
  obtain ⟨m, w, -, hm, -, hopens⟩ := h
  obtain ⟨m', w', -, hm', -, hopens'⟩ := h'
  obtain ⟨hfirst, hrest⟩ := List.cons.inj (hopens.eq hopens')
  have hstop : ∀ (a : Quote) (v : Text), Stops isSpecifierChar (a.char :: v) :=
    fun a _ => stops_cons.2 (isSpecifierChar_quote a)
  obtain ⟨-, hlast⟩ := run_unique hrest hm (hstop _ _) hm' (hstop _ _)
  exact ⟨char_inj hfirst, char_inj (List.cons.inj hlast).1⟩

/-- A declaration with empty braces, as far as `require(`, and what follows. -/
def OpensRequire (t r : Text) : Prop :=
  ∃ (indent : Text) (k : Keyword) (gap body gap' gap'' : Text), AllIn isBlank indent ∧
    AllIn isBlank gap ∧ AllIn isBlank body ∧ AllIn isBlank gap' ∧ AllIn isBlank gap'' ∧
    t = indent ++ (k.text ++ (gap ++ '\x7b' :: (body ++ '\x7d' :: (gap' ++ '=' ::
      (gap'' ++ ("require(".toList ++ r))))))

/-- Such a declaration up to the last parenthesis of the line, with anything in between. -/
def EmptyRequire (arguments closing t : Text) : Prop :=
  OpensRequire t (arguments ++ ')' :: closing) ∧ EndsStatement closing

/-- What follows `require(`, read as the cleanup reads it. -/
def behindRequire? (t : Text) : Option Text := do
  let (_, r) ← keyword? (trimLeft t)
  let r ← afterEmptyBraces? (trimLeft r)
  let r ← afterMark? '=' r
  "require(".toList.isPrefixOf? r

theorem behindRequire?_eq_some_iff : behindRequire? t = some r ↔ OpensRequire t r := by
  simp only [behindRequire?, bind, Option.bind_eq_some_iff, isPrefixOf?_eq_some_iff]
  constructor
  · rintro ⟨⟨k, u⟩, hk, v, hv, w, hw, rfl⟩
    obtain ⟨indent, hindent, hspan⟩ := exists_trimLeft t
    obtain ⟨gap, hgap, hspan'⟩ := exists_trimLeft u
    obtain ⟨body, g, hbody, hg, -, hbraces⟩ := afterEmptyBraces?_eq_some_iff.1 hv
    obtain ⟨g', gap'', hg', hgap'', -, rfl⟩ := (afterMark?_eq_some_iff (by decide)).1 hw
    refine ⟨indent, k, gap, body, g ++ g', gap'', hindent, hgap, hbody, allIn_append.2 ⟨hg, hg'⟩,
      hgap'', ?_⟩
    rw [hspan, keyword?_eq_some_iff.1 hk, hspan', hbraces]
    simp only [List.append_assoc]
  · rintro ⟨indent, k, gap, body, gap', gap'', hindent, hgap, hbody, hgap', hgap'', rfl⟩
    have hcall : Stops isBlank ("require(".toList ++ r) := stops_cons.2 (by decide)
    have hmark := (afterMark?_eq_some_iff (c := '=') (by decide)).2
      ⟨[], gap'', allIn_nil, hgap'', hcall, rfl⟩
    have hequals : Stops isBlank ('=' :: (gap'' ++ ("require(".toList ++ r))) :=
      stops_cons.2 (by decide)
    have hempty := afterEmptyBraces?_eq_some_iff.2 ⟨body, gap', hbody, hgap', hequals, rfl⟩
    have hgap : trimLeft (gap ++ '\x7b' :: (body ++ '\x7d' :: (gap' ++ '=' :: (gap'' ++
        ("require(".toList ++ r))))) = _ := trimLeft_run hgap (stops_cons.2 (by decide))
    rw [← hgap] at hempty
    refine ⟨(k, _), ?_, _, hempty, _, hmark, rfl⟩
    rw [trimLeft_run hindent (stops_keyword k).1]
    exact keyword?_eq_some_iff.2 rfl

theorem OpensRequire.eq (h : OpensRequire t r) (h' : OpensRequire t u) : r = u := by
  rw [← behindRequire?_eq_some_iff] at h h'
  exact Option.some.inj (h.symm.trans h')

theorem isEmptyRequire_iff :
    isEmptyRequire t = true ↔ ∃ arguments closing, EmptyRequire arguments closing t := by
  have heq : isEmptyRequire t = ((behindRequire? t).bind callBody?).isSome := by
    simp only [isEmptyRequire, behindRequire?, bind, Option.bind_assoc]
  rw [heq, Option.isSome_iff_exists]
  simp only [Option.bind_eq_some_iff, behindRequire?_eq_some_iff, callBody?_eq_some_iff]
  constructor
  · rintro ⟨arguments, r, hr, closing, hend, rfl⟩
    exact ⟨arguments, closing, hr, hend⟩
  · rintro ⟨arguments, closing, hr, hend⟩
    exact ⟨arguments, _, hr, closing, hend, rfl⟩

/-! ### Complete statements -/

/-- The text is one complete statement that binds nothing: an `import` between equal quotation
    marks, or a declaration with nothing behind the parenthesis that closes its call. -/
inductive IsEmptyStatement (t : Text) : Prop
  | quoted (q : Quote) (h : EmptyImport q q t)
  | called {r rest : Text} (h : OpensRequire t r) (hcall : behindCall? .plain 0 r = some rest)
      (hend : EndsStatement rest)

/-- A line does not begin with both words. -/
theorem not_opensRequire_of_opensImport (h : OpensImport t r) : ¬ OpensRequire t u := by
  rw [← behindFrom?_eq_some_iff] at h
  rintro ⟨indent, k, gap, body, gap', gap'', hindent, -, -, -, -, rfl⟩
  simp only [behindFrom?, bind, Option.bind_eq_some_iff] at h
  obtain ⟨w, hw, -⟩ := h
  obtain ⟨g, -, -, -, htext⟩ := afterWord?_eq_some_iff.1 hw
  rw [trimLeft_run hindent (stops_keyword k).1] at htext
  have hword := isPrefixOf?_eq_some_iff.2 htext
  rw [(stops_keyword k).2] at hword
  cases hword

theorem eq_of_append_paren {w v : Text} (h : u ++ ')' :: w = arguments ++ ')' :: v)
    (hw : ')' ∉ w) (hv : ')' ∉ v) : w = v := by
  have hends : ∀ {x : Text}, ')' ∉ x → AllIn (· != ')') x.reverse := by
    intro x hx
    rwa [allIn_ne_iff, List.mem_reverse]
  have hrev : w.reverse ++ ')' :: u.reverse = v.reverse ++ ')' :: arguments.reverse := by
    simpa using congrArg List.reverse h
  have hrun := run_unique hrev (hends hw) (stops_cons.2 rfl) (hends hv) (stops_cons.2 rfl)
  exact List.reverse_injective hrun.1

theorem EmptyImport.isEmptyStatement_iff {q q' : Quote} (h : EmptyImport q q' t) :
    IsEmptyStatement t ↔ q = q' := by
  constructor
  · intro hcomplete
    cases hcomplete with
    | quoted p hp =>
      obtain ⟨rfl, rfl⟩ := h.quotes_eq hp
      rfl
    | called hopens =>
      obtain ⟨m, w, -, -, -, himport⟩ := h
      exact absurd hopens (not_opensRequire_of_opensImport himport)
  · rintro rfl
    exact .quoted q h

/-- **A declaration is complete where the last parenthesis of its line closes the call.** -/
theorem EmptyRequire.isEmptyStatement_iff (h : EmptyRequire arguments closing t) :
    IsEmptyStatement t ↔ isOneCall arguments = true := by
  obtain ⟨hopens, hend⟩ := h
  rw [isOneCall, ← behindCall?_eq_some_iff hend.not_mem]
  constructor
  · intro hcomplete
    cases hcomplete with
    | quoted q hq =>
      obtain ⟨m, w, -, -, -, himport⟩ := hq
      exact absurd hopens (not_opensRequire_of_opensImport himport)
    | @called r rest hopens' hcall hrest =>
      obtain rfl := hopens.eq hopens'
      obtain ⟨u, heq⟩ := behindCall?_eq_some hcall
      rw [hcall, eq_of_append_paren heq hend.not_mem hrest.not_mem]
  · intro hcall
    exact .called hopens hcall hend

/-! ### The lines that are deleted -/

/-- A line as the cleanup looks at it: without byte order marks and final carriage returns. -/
def bareStatement (l : Text) : Text := (l.dropEndWhile (· == '\r')).dropWhile (· == byteOrderMark)

theorem bindsNothing_iff : bindsNothing l = true ↔ (∃ q q', EmptyImport q q' (bareStatement l)) ∨
    ∃ arguments closing, EmptyRequire arguments closing (bareStatement l) := by
  have heq : bindsNothing l =
      (isEmptyEsImport (bareStatement l) || isEmptyRequire (bareStatement l)) := rfl
  rw [heq, Bool.or_eq_true, isEmptyEsImport_iff, isEmptyRequire_iff]

/-- **What the cleanup deletes, and what it should not have deleted.**  The lines that are left
    stay as they are, in their order.  A deleted line that is not one complete statement has
    unequal quotation marks, or the call of `require` ends in front of the last parenthesis. -/
theorem dropEmptyImports_deletes (t : Text) :
    dropEmptyImports t = unlines
      (if t.hasMark then LineEdits.markFirst ((lines t).filter fun l => !bindsNothing l)
        else (lines t).filter fun l => !bindsNothing l) ∧
    ∀ l, (bindsNothing l = true ↔ (∃ q q', EmptyImport q q' (bareStatement l)) ∨
        ∃ arguments closing, EmptyRequire arguments closing (bareStatement l)) ∧
      (bindsNothing l = true ∧ ¬ IsEmptyStatement (bareStatement l) ↔
        (∃ q q', EmptyImport q q' (bareStatement l) ∧ q ≠ q') ∨
        ∃ arguments closing, EmptyRequire arguments closing (bareStatement l) ∧
          isOneCall arguments = false) := by
  constructor
  · rw [dropEmptyImports_eq_apply, LineEdits.apply, linesAfter_emptyImportLines,
      List.filterMap_eq_filter]
  · intro l
    refine ⟨bindsNothing_iff, ?_⟩
    rw [bindsNothing_iff]
    constructor
    · rintro ⟨⟨q, q', h⟩ | ⟨arguments, closing, h⟩, hnot⟩
      · rw [h.isEmptyStatement_iff] at hnot
        exact Or.inl ⟨q, q', h, hnot⟩
      · rw [h.isEmptyStatement_iff, Bool.not_eq_true] at hnot
        exact Or.inr ⟨arguments, closing, h, hnot⟩
    · rintro (⟨q, q', h, hne⟩ | ⟨arguments, closing, h, hcall⟩)
      · refine ⟨Or.inl ⟨q, q', h⟩, ?_⟩
        rwa [h.isEmptyStatement_iff]
      · refine ⟨Or.inr ⟨arguments, closing, h⟩, ?_⟩
        rw [h.isEmptyStatement_iff, hcall]
        exact Bool.false_ne_true

/-- A second declarator goes with the first: its name is bound no more. -/
theorem dropEmptyImports_deletes_declarator :
    let line := "const {} = require('a'), b = require('b');".toList
    dropEmptyImports (line ++ "\nuse(b);\n".toList) = "use(b);\n".toList ∧
      ¬ IsEmptyStatement (bareStatement line) := by
  intro line
  have hempty : EmptyRequire "'a'), b = require('b'".toList [';'] (bareStatement line) :=
    ⟨⟨[], .constKeyword, [' '], [], [' '], [' '], by decide, by decide, by decide, by decide,
      by decide, by decide +kernel⟩, [], [], by decide, by decide, Or.inr rfl⟩
  refine ⟨by decide +kernel, ?_⟩
  rw [hempty.isEmptyStatement_iff]
  decide +kernel

end ImportRepair
