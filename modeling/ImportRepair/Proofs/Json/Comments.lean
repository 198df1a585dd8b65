import ImportRepair.Proofs.Json.Token

/-!
# Stripping comments from a document

Stripping works on characters, in two passes that know little of strings: the
first takes a quotation mark behind a backslash for an escaped one, the second
does not look at quotation marks at all.  For which documents this does no harm
is settled here: for those without a string that ends in a backslash or holds a
comma with nothing but white space between it and a closing bracket.
-/

namespace ImportRepair.Jsonc

open Text Json

variable {t u w r g body : Text} {c p : Char}

/-! ### Dropping comments -/

/-- The text without comments, when it starts outside strings. -/
def uncomment (t : Text) : Text := dropComments .plain ' ' t

theorem dropComments_plain (hp : p ≠ '\\') : dropComments .plain p t = uncomment t := by
  cases t with
  | nil => rfl
  | cons c r => simp [uncomment, dropComments, hp]

theorem uncomment_cons (hquote : c ≠ '"') (hslash : c ≠ '/') (hescape : c ≠ '\\') :
    uncomment (c :: r) = c :: uncomment r := by
  simp [uncomment, dropComments, hquote, hslash, dropComments_plain hescape]

theorem uncomment_append (hw : ∀ c ∈ w, c ≠ '"' ∧ c ≠ '/' ∧ c ≠ '\\') :
    uncomment (w ++ r) = w ++ uncomment r := by
  induction w with
  | nil => rfl
  | cons c w ih =>
    obtain ⟨hquote, hslash, hescape⟩ := hw c List.mem_cons_self
    rw [List.cons_append, uncomment_cons hquote hslash hescape,
      ih fun d hd => hw d (List.mem_cons_of_mem _ hd), List.cons_append]

theorem dropComments_line (hw : '\n' ∉ w) :
    dropComments .lineComment p (w ++ '\n' :: r) = '\n' :: uncomment r := by
  induction w generalizing p with
  | nil => rw [List.nil_append, dropComments, if_pos rfl, dropComments_plain (by decide)]
  | cons c w ih =>
    rw [List.mem_cons, not_or] at hw
    rw [List.cons_append, dropComments, if_neg (Ne.symm hw.1), ih hw.2]

theorem dropComments_lastLine (hw : '\n' ∉ w) : dropComments .lineComment p w = [] := by
  induction w generalizing p with
  | nil => rfl
  | cons c w ih =>
    rw [List.mem_cons, not_or] at hw
    rw [dropComments, if_neg (Ne.symm hw.1), ih hw.2]

theorem dropComments_block (hw : ¬['*', '/'] <:+: w) :
    dropComments .blockComment p (w ++ '*' :: '/' :: r) = uncomment r := by
  induction w generalizing p with
  | nil => exact dropComments_plain (p := '/') (by decide)
  | cons c w ih =>
    have hend : ¬(c = '*' && (w ++ '*' :: '/' :: r).head? = some '/') := by
      cases w with
      | nil => simp
      | cons d w =>
        rw [List.cons_append, List.head?_cons, Bool.and_eq_true, decide_eq_true_eq,
          decide_eq_true_eq]
        rintro ⟨rfl, hd⟩
        cases hd
        exact hw ⟨[], w, rfl⟩
    have hrest : ¬['*', '/'] <:+: w := fun h => hw (h.trans (List.suffix_cons c w).isInfix)
    rw [List.cons_append, dropComments, if_neg hend, ih hrest]

theorem uncomment_line (hw : '\n' ∉ w) :
    uncomment ('/' :: '/' :: (w ++ '\n' :: r)) = '\n' :: uncomment r :=
  dropComments_line (p := '/') hw

theorem uncomment_lastLine (hw : '\n' ∉ w) : uncomment ('/' :: '/' :: w) = [] :=
  dropComments_lastLine (p := '/') hw

theorem uncomment_block (hw : ¬['*', '/'] <:+: w) :
    uncomment ('/' :: '*' :: (w ++ '*' :: '/' :: r)) = uncomment r :=
  dropComments_block (p := '*') hw

/-- Within a string every character stays, up to the closing quotation mark. -/
theorem dropComments_string (h : IsBody body) :
    dropComments .string p (body ++ r) =
      body ++ dropComments .string (body.getLast?.getD p) r := by
  induction h generalizing p with
  | nil => rfl
  | @char c body hquote _ _ ih =>
    rw [List.cons_append, dropComments, if_neg (by simp [hquote]), ih, List.getLast?_cons,
      Option.getD_some, List.cons_append]
  | @escape c body _ ih =>
    rw [List.cons_append, List.cons_append, dropComments, if_neg (by simp), dropComments,
      if_neg (by simp), ih, List.getLast?_cons, List.getLast?_cons, Option.getD_some,
      Option.getD_some, List.cons_append, List.cons_append]

theorem uncomment_literal (h : IsBody body) (hlast : body.getLast? ≠ some '\\') :
    uncomment ('"' :: (body ++ '"' :: r)) = '"' :: (body ++ '"' :: uncomment r) := by
  have hstring : uncomment ('"' :: (body ++ '"' :: r)) =
      '"' :: dropComments .string '"' (body ++ '"' :: r) := rfl
  have hclose : body.getLast?.getD '"' ≠ '\\' := by
    cases hbody : body.getLast? with
    | none => decide
    | some c => exact fun hc => hlast (hbody.trans (congrArg some hc))
  rw [hstring, dropComments_string h, dropComments, if_pos (by simp [hclose]),
    dropComments_plain (by decide)]

/-- A string that ends in a backslash is not closed. -/
theorem uncomment_escaped (h : IsBody body) (hlast : body.getLast? = some '\\') :
    uncomment ('"' :: (body ++ '"' :: r)) = '"' :: (body ++ '"' :: dropComments .string '"' r) := by
  have hstring : uncomment ('"' :: (body ++ '"' :: r)) =
      '"' :: dropComments .string '"' (body ++ '"' :: r) := rfl
  rw [hstring, dropComments_string h, hlast, Option.getD_some, dropComments, if_neg (by decide)]

/-! ### Dropping commas -/

/-- A comma with nothing but white space between it and a closing bracket. -/
def HoldsLastComma (t : Text) : Prop :=
  ∃ u w c r, t = u ++ ',' :: (w ++ c :: r) ∧ AllIn isBlank w ∧ isCloser c = true

/-- A closing bracket comes next, behind white space. -/
def Closes (t : Text) : Prop := (trimLeft t).head?.any isCloser = true

theorem dropLastCommas_cons (hc : c ≠ ',') :
    dropLastCommas (c :: r) = c :: dropLastCommas r := by
  rw [dropLastCommas, if_neg (by simp [hc])]

theorem dropLastCommas_append (hw : ',' ∉ w) :
    dropLastCommas (w ++ r) = w ++ dropLastCommas r := by
  induction w with
  | nil => rfl
  | cons c w ih =>
    rw [List.mem_cons, not_or] at hw
    rw [List.cons_append, dropLastCommas_cons (Ne.symm hw.1), ih hw.2, List.cons_append]

theorem dropLastCommas_comma (h : Closes r) : dropLastCommas (',' :: r) = dropLastCommas r := by
  rw [dropLastCommas, if_pos (by simpa [Closes] using h)]

theorem dropLastCommas_comma_of_not (h : ¬Closes r) :
    dropLastCommas (',' :: r) = ',' :: dropLastCommas r := by
  rw [dropLastCommas, if_neg (by simpa [Closes] using h)]

theorem isBlank_of_isCloser (h : isCloser c = true) : isBlank c = false := by
  simp only [isCloser, Bool.or_eq_true, beq_iff_eq] at h
  rcases h with rfl | rfl
  · decide
  · decide

theorem not_closes_nil : ¬Closes [] := nofun

theorem closes_cons_blank (hc : isBlank c = true) : Closes (c :: t) ↔ Closes t := by
  simp [Closes, trimLeft, hc]

theorem closes_cons (hc : isBlank c = false) : Closes (c :: t) ↔ isCloser c = true := by
  simp [Closes, trimLeft, hc]

theorem closes_iff :
    Closes t ↔ ∃ w c r, t = w ++ c :: r ∧ AllIn isBlank w ∧ isCloser c = true := by
  constructor
  · intro h
    obtain ⟨w, hw, ht⟩ := exists_trimLeft t
    cases htrim : trimLeft t with
    | nil => simp [Closes, htrim] at h
    | cons c r => exact ⟨w, c, r, by rw [← htrim, ← ht], hw, by simpa [Closes, htrim] using h⟩
  · rintro ⟨w, c, r, rfl, hw, hc⟩
    rw [Closes, trimLeft_run hw (stops_cons.2 (isBlank_of_isCloser hc))]
    exact hc

theorem closes_append (hblank : isBlank c = false) (hcloser : isCloser c = false) :
    Closes (t ++ c :: r) ↔ Closes t := by
  induction t with
  | nil => simp [closes_cons hblank, hcloser, not_closes_nil]
  | cons d t ih =>
    cases hd : isBlank d with
    | true => rw [List.cons_append, closes_cons_blank hd, closes_cons_blank hd, ih]
    | false => rw [List.cons_append, closes_cons hd, closes_cons hd]

/-- Behind a character that is neither white space nor a closing bracket nothing matters for the
    commas in front of it. -/
theorem dropLastCommas_append_cons (hblank : isBlank c = false) (hcloser : isCloser c = false) :
    dropLastCommas (t ++ c :: r) = dropLastCommas t ++ dropLastCommas (c :: r) := by
  induction t with
  | nil => rfl
  | cons d t ih =>
    by_cases hd : d = ','
    · subst hd
      by_cases h : Closes t
      · rw [List.cons_append, dropLastCommas_comma ((closes_append hblank hcloser).2 h),
          dropLastCommas_comma h, ih]
      · rw [List.cons_append, dropLastCommas_comma_of_not (mt (closes_append hblank hcloser).1 h),
          dropLastCommas_comma_of_not h, ih, List.cons_append]
    · rw [List.cons_append, dropLastCommas_cons hd, dropLastCommas_cons hd, ih, List.cons_append]

theorem holdsLastComma_cons :
    HoldsLastComma (c :: t) ↔ (c = ',' ∧ Closes t) ∨ HoldsLastComma t := by
  constructor
  · rintro ⟨u, w, d, r, h, hw, hd⟩
    cases u with
    | nil =>
      obtain ⟨rfl, rfl⟩ := List.cons.inj h
      exact .inl ⟨rfl, closes_iff.2 ⟨w, d, r, rfl, hw, hd⟩⟩
    | cons b u =>
      obtain ⟨rfl, rfl⟩ := List.cons.inj h
      exact .inr ⟨u, w, d, r, rfl, hw, hd⟩
  · rintro (⟨rfl, h⟩ | ⟨u, w, d, r, rfl, hw, hd⟩)
    · obtain ⟨w, d, r, rfl, hw, hd⟩ := closes_iff.1 h
      exact ⟨[], w, d, r, rfl, hw, hd⟩
    · exact ⟨c :: u, w, d, r, rfl, hw, hd⟩

theorem dropLastCommas_of_not (h : ¬HoldsLastComma t) : dropLastCommas t = t := by
  induction t with
  | nil => rfl
  | cons c t ih =>
    rw [holdsLastComma_cons, not_or, not_and] at h
    by_cases hc : c = ','
    · rw [hc, dropLastCommas_comma_of_not (h.1 hc), ih h.2]
    · rw [dropLastCommas_cons hc, ih h.2]

theorem count_dropLastCommas (hc : c ≠ ',') : (dropLastCommas t).count c = t.count c := by
  induction t with
  | nil => rfl
  | cons d t ih =>
    rw [dropLastCommas]
    split
    · next h =>
      have hd : d = ',' := by simp_all
      rw [ih, hd, List.count_cons_of_ne (Ne.symm hc)]
    · rw [List.count_cons, List.count_cons, ih]

theorem count_comma_dropLastCommas_le : (dropLastCommas t).count ',' ≤ t.count ',' := by
  induction t with
  | nil => exact Nat.le_refl _
  | cons d t ih =>
    rw [dropLastCommas, List.count_cons]
    split
    · omega
    · rw [List.count_cons]
      omega

theorem count_comma_dropLastCommas_lt (h : HoldsLastComma t) :
    (dropLastCommas t).count ',' < t.count ',' := by
  induction t with
  | nil =>
    obtain ⟨u, w, c, r, h, -⟩ := h
    cases u <;> cases h
  | cons c t ih =>
    rcases holdsLastComma_cons.1 h with ⟨rfl, hclose⟩ | h
    · rw [dropLastCommas_comma hclose, List.count_cons_self]
      exact Nat.lt_succ_of_le count_comma_dropLastCommas_le
    · have := ih h
      rw [dropLastCommas, List.count_cons]
      split
      · omega
      · rw [List.count_cons]
        omega

theorem HoldsLastComma.of_infix (h : HoldsLastComma u) (hu : u <:+: t) : HoldsLastComma t := by
  obtain ⟨v, w, c, r, rfl, hw, hc⟩ := h
  obtain ⟨a, b, rfl⟩ := hu
  exact ⟨a ++ v, w, c, r ++ b, by simp, hw, hc⟩

end ImportRepair.Jsonc

namespace ImportRepair.Json

open Text Jsonc

variable {D : Dialect} {x : Token} {l : Lexeme} {xs : List Token} {t u g w : Text} {c : Char}
  {v : Json}

/-! ### Documents with comments -/

/-- A gap ends a number or a word. -/
theorem IsGap.stops (hg : IsGap D g) (ht : Stops isScalarChar t) :
    Stops isScalarChar (g ++ t) := by
  cases hg with
  | nil => exact ht
  | @space c g hc =>
    rw [List.cons_append, stops_cons, Bool.eq_false_iff]
    intro hscalar
    rw [isSpace_of_isScalarChar hscalar] at hc
    cases hc
  | line => exact stops_cons.2 (by decide)
  | block => exact stops_cons.2 (by decide)

theorem Written.stops (h : Written D xs t) (hxs : ∀ y ∈ xs.head?, y.isScalar = false) :
    Stops isScalarChar t := by
  induction h with
  | nil => exact stops_nil
  | gap hg _ ih => exact hg.stops (ih hxs)
  | token hx =>
    obtain ⟨c, u, htext, hscalar, -⟩ := hx.exists_front
    rw [htext, List.cons_append, stops_cons, hscalar]
    exact hxs _ rfl
  | lastComma => exact stops_cons.2 (by decide)
  | lastLine => exact stops_cons.2 (by decide)

theorem Written.ends (h : Written D xs t) (hchain : (x :: xs).IsChain Token.Fits) : x.Ends t := by
  intro hx
  refine h.stops fun y hy => ?_
  cases xs with
  | nil => cases hy
  | cons z xs =>
    cases hy
    exact (List.isChain_cons_cons.1 hchain).1.1 hx

theorem IsGap.closes (hg : IsGap D g) (h : Closes (g ++ t)) : Closes t := by
  induction hg with
  | nil => exact h
  | space hc _ ih => exact ih ((closes_cons_blank (isBlank_of_isSpace hc)).1 h)
  | line => cases (closes_cons (by decide)).1 h
  | block => cases (closes_cons (by decide)).1 h

/-- The gap without its comments. -/
theorem IsGap.exists_uncomment (hg : IsGap D g) :
    ∃ g', IsGap ⟨false, D.lastCommas⟩ g' ∧ ∀ r, uncomment (g ++ r) = g' ++ uncomment r := by
  induction hg with
  | nil => exact ⟨[], .nil, fun _ => rfl⟩
  | @space c g hc _ ih =>
    obtain ⟨g', hg', h⟩ := ih
    refine ⟨c :: g', .space hc hg', fun r => ?_⟩
    have hne : c ≠ '"' ∧ c ≠ '/' ∧ c ≠ '\\' := by
      refine ⟨?_, ?_, ?_⟩
      all_goals
        rintro rfl
        exact absurd hc (by decide)
    rw [List.cons_append, uncomment_cons hne.1 hne.2.1 hne.2.2, h, List.cons_append]
  | line _ hw _ ih =>
    obtain ⟨g', hg', h⟩ := ih
    refine ⟨'\n' :: g', .space (by decide) hg', fun r => ?_⟩
    simp only [List.cons_append, List.append_assoc, uncomment_line hw, h]
  | block _ hw _ ih =>
    obtain ⟨g', hg', h⟩ := ih
    refine ⟨g', hg', fun r => ?_⟩
    simp only [List.cons_append, List.append_assoc, uncomment_block hw, h]

theorem Token.Reads.uncomment_append (hx : x.Reads l)
    (hx' : ∀ body, x = .literal body → body.getLast? ≠ some '\\') :
    uncomment (x.text ++ t) = x.text ++ uncomment t := by
  cases hx with
  | mark m => cases m <;> exact uncomment_cons (by decide) (by decide) (by decide)
  | scalar hw =>
    refine uncomment_append fun c hc => ⟨?_, ?_, ?_⟩
    all_goals
      rintro rfl
      exact absurd (hw _ hc) (by decide)
  | @literal body _ hbody =>
    simpa [Token.text] using uncomment_literal (r := t) hbody (hx' body rfl)

/-- Dropping the comments keeps the tokens, if no string ends in a backslash. -/
theorem Written.comments_dropped (h : Written D xs t) (hchain : xs.IsChain Token.Fits)
    (hxs : ∀ body, .literal body ∈ xs → body.getLast? ≠ some '\\') :
    Written ⟨false, D.lastCommas⟩ xs (uncomment t) := by
  -- Where a comment goes, two tokens may come to touch; `hchain` keeps them apart.
  induction h with
  | nil => exact .nil
  | gap hg _ ih =>
    obtain ⟨g', hg', heq⟩ := hg.exists_uncomment
    rw [heq]
    exact .gap hg' (ih hchain hxs)
  | token hx _ _ ih =>
    have hrest := ih hchain.of_cons fun body hbody => hxs body (List.mem_cons_of_mem _ hbody)
    rw [hx.uncomment_append fun body hbody => hxs body (hbody ▸ List.mem_cons_self)]
    exact .token hx (hrest.ends hchain) hrest
  | @lastComma m g t xs hD hm hg _ ih =>
    have hrest := ih hchain.of_cons fun body hbody => hxs body (List.mem_cons_of_mem _ hbody)
    obtain ⟨g', hg', heq⟩ := hg.exists_uncomment
    have hmark : uncomment (m.char :: t) = m.char :: uncomment t :=
      (Token.Reads.mark m).uncomment_append nofun
    rw [uncomment_cons (by decide) (by decide) (by decide), heq, hmark]
    exact .lastComma hD hm hg' hrest
  | lastLine hD hw =>
    rw [uncomment_lastLine hw]
    exact .nil

/-- Only a token can bring a closing bracket to the front. -/
theorem Written.closes (h : Written D xs t) (hclose : Closes t) :
    ∃ y ∈ xs.head?, y.isCloser = true := by
  induction h with
  | nil => exact absurd hclose not_closes_nil
  | gap hg _ ih => exact ih (hg.closes hclose)
  | token hx =>
    obtain ⟨c, u, htext, -, hblank, hcloser, -⟩ := hx.exists_front
    rw [htext, List.cons_append, closes_cons hblank, hcloser] at hclose
    exact ⟨_, rfl, hclose⟩
  | lastComma => cases (closes_cons (by decide)).1 hclose
  | lastLine => cases (closes_cons (by decide)).1 hclose

theorem IsGap.allIn_isSpace (hg : IsGap .plain g) : AllIn isSpace g := by
  induction hg with
  | nil => exact allIn_nil
  | space hc _ ih => exact allIn_cons.2 ⟨hc, ih⟩
  | line hD => cases hD
  | block hD => cases hD

theorem IsGap.not_mem (hg : IsGap .plain g) (hc : isSpace c = false) : c ∉ g := by
  intro hmem
  have := hg.allIn_isSpace c hmem
  simp [hc] at this

theorem Token.Reads.dropLastCommas_append (hx : x.Reads l) (h : Written D xs t)
    (hchain : (x :: xs).IsChain Token.Fits)
    (hx' : ∀ body, x = .literal body → ¬HoldsLastComma body) :
    dropLastCommas (x.text ++ t) = x.text ++ dropLastCommas t := by
  cases hx with
  | mark m =>
    cases m with
    | comma =>
      refine dropLastCommas_comma_of_not fun hclose => ?_
      obtain ⟨y, hy, hcloser⟩ := h.closes hclose
      cases xs with
      | nil => cases hy
      | cons z xs =>
        cases hy
        have hfits := (List.isChain_cons_cons.1 hchain).1.2 rfl
        rw [hfits] at hcloser
        cases hcloser
    | _ => exact dropLastCommas_cons (by decide)
  | scalar hw =>
    refine Jsonc.dropLastCommas_append fun hc => ?_
    exact absurd (hw _ hc) (by decide)
  | @literal body =>
    have hbody := dropLastCommas_of_not (hx' body rfl)
    have hrest : dropLastCommas ('"' :: t) = '"' :: dropLastCommas t :=
      dropLastCommas_cons (by decide)
    simp only [Token.text, List.cons_append, List.append_assoc, List.nil_append]
    rw [dropLastCommas_cons (by decide), dropLastCommas_append_cons (by decide) (by decide), hbody,
      hrest]

/-- Dropping the last commas keeps the tokens, if no string holds one. -/
theorem Written.commas_dropped (h : Written D xs t) (hD : D.comments = false)
    (hchain : xs.IsChain Token.Fits)
    (hxs : ∀ body, .literal body ∈ xs → ¬HoldsLastComma body) :
    Written .plain xs (dropLastCommas t) := by
  have hplain : ∀ {g}, IsGap D g → IsGap .plain g := fun hg => hg.mono (by simp [hD])
  induction h with
  | nil => exact .nil
  | gap hg _ ih =>
    rw [dropLastCommas_append ((hplain hg).not_mem (by decide))]
    exact .gap (hplain hg) (ih hchain hxs)
  | token hx _ h ih =>
    have hrest := ih hchain.of_cons fun body hbody => hxs body (List.mem_cons_of_mem _ hbody)
    rw [hx.dropLastCommas_append h hchain fun body hbody => hxs body (hbody ▸ List.mem_cons_self)]
    exact .token hx (hrest.ends hchain) hrest
  | @lastComma m g t xs _ hm hg h ih =>
    have hrest := ih hchain.of_cons fun body hbody => hxs body (List.mem_cons_of_mem _ hbody)
    have hcloser : Jsonc.isCloser m.char = true := by
      cases m with
      | closeArray => decide
      | closeObject => decide
      | _ => cases hm
    have hblank : AllIn isBlank g := (hplain hg).allIn_isSpace.mono fun _ => isBlank_of_isSpace
    have hclose : Closes (g ++ m.char :: t) := closes_iff.2 ⟨g, m.char, t, rfl, hblank, hcloser⟩
    have hmark : dropLastCommas (m.char :: t) = m.char :: dropLastCommas t :=
      (Token.Reads.mark m).dropLastCommas_append h hchain nofun
    rw [dropLastCommas_comma hclose, dropLastCommas_append ((hplain hg).not_mem (by decide)), hmark]
    exact .gap (hplain hg) (.token (.mark m) nofun hrest)
  | lastLine h => exact absurd h (by simp [hD])

/-! ### Strings that stripping spoils -/

theorem Written.reads (h : Written D xs t) (hx : x ∈ xs) : ∃ l, x.Reads l := by
  induction h with
  | nil => cases hx
  | gap _ _ ih => exact ih hx
  | @token _ l _ _ hy _ _ ih =>
    rcases List.mem_cons.1 hx with rfl | hx
    · exact ⟨l, hy⟩
    · exact ih hx
  | @lastComma m _ _ _ _ _ _ _ ih =>
    rcases List.mem_cons.1 hx with rfl | hx
    · exact ⟨_, .mark m⟩
    · exact ih hx
  | lastLine => cases hx

theorem Written.count_eq (h : Written .plain xs t) (hc : isSpace c = false) :
    t.count c = (xs.flatMap Token.text).count c := by
  induction h with
  | nil => rfl
  | gap hg _ ih =>
    rw [List.count_append, List.count_eq_zero.2 (hg.not_mem hc), ih, Nat.zero_add]
  | token _ _ _ ih => rw [List.count_append, ih, List.flatMap_cons, List.count_append]
  | lastComma hD => cases hD
  | lastLine hD => cases hD

theorem Written.body_isInfix {body : Text} (h : Written .plain xs t) (hbody : .literal body ∈ xs) :
    body <:+: t := by
  induction h with
  | nil => cases hbody
  | gap _ _ ih => exact (ih hbody).trans (List.suffix_append _ _).isInfix
  | token _ _ _ ih =>
    rcases List.mem_cons.1 hbody with rfl | hbody
    · exact List.IsInfix.trans ⟨['"'], ['"'], by simp [Token.text]⟩
        (List.prefix_append _ _).isInfix
    · exact (ih hbody).trans (List.suffix_append _ _).isInfix
  | lastComma hD => cases hD
  | lastLine hD => cases hD

/-- A gap that shows whether a string is taken to be closed: if it ends in a backslash, a comment
    that holds a quotation mark. -/
def Token.trap : Token → Text
  | literal body => if body.getLast? = some '\\' then "/*\"/**/".toList else [' ']
  | _ => [' ']

/-- What dropping the comments leaves of that gap. -/
def Token.remains : Token → Text
  | literal body => if body.getLast? = some '\\' then "/*\"".toList else [' ']
  | _ => [' ']

theorem isGap_trap : IsGap .commented x.trap := by
  have hspace : IsGap .commented [' '] := .space (by decide) .nil
  cases x with
  | literal body =>
    rw [Token.trap]
    split
    · exact .block (w := ['"', '/', '*']) rfl (by decide) .nil
    · exact hspace
  | _ => exact hspace

theorem written_trap (hxs : ∀ x ∈ xs, ∃ l, Token.Reads x l) :
    Written .commented xs (xs.flatMap fun x => x.text ++ x.trap) := by
  induction xs with
  | nil => exact .nil
  | cons x xs ih =>
    obtain ⟨l, hx⟩ := hxs x List.mem_cons_self
    have hrest := ih fun y hy => hxs y (List.mem_cons_of_mem _ hy)
    rw [List.flatMap_cons, List.append_assoc]
    refine .token hx ?_ (.gap isGap_trap hrest)
    cases x with
    | scalar => exact fun _ => stops_cons.2 (by decide)
    | _ => nofun

theorem Token.Reads.uncomment_trap (hx : x.Reads l) :
    uncomment (x.text ++ (x.trap ++ t)) = x.text ++ (x.remains ++ uncomment t) := by
  have hspace : uncomment ([' '] ++ t) = [' '] ++ uncomment t :=
    uncomment_cons (by decide) (by decide) (by decide)
  by_cases hx' : ∃ body, x = .literal body ∧ body.getLast? = some '\\'
  · obtain ⟨body, rfl, hlast⟩ := hx'
    cases hx with
    | literal hbody =>
      -- The quotation mark in the comment is the one that closes the string.
      have hcomment : dropComments .string '"' ("/*\"/**/".toList ++ t) =
          "/*\"".toList ++ uncomment t :=
        congrArg ("/*\"".toList ++ ·) (uncomment_block (w := []) (by decide))
      have htext : (Token.literal body).text ++ ((Token.literal body).trap ++ t) =
          '"' :: (body ++ '"' :: ("/*\"/**/".toList ++ t)) := by
        simp only [Token.text, Token.trap, if_pos hlast, List.cons_append, List.append_assoc,
          List.nil_append]
      rw [htext, uncomment_escaped hbody hlast, hcomment]
      simp only [Token.text, Token.remains, if_pos hlast, List.cons_append, List.append_assoc,
        List.nil_append]
  · have hlast : ∀ body, x = .literal body → body.getLast? ≠ some '\\' :=
      fun body hbody h => hx' ⟨body, hbody, h⟩
    have htrap : x.trap = [' '] ∧ x.remains = [' '] := by
      cases x with
      | literal body => simp [Token.trap, Token.remains, hlast body rfl]
      | _ => exact ⟨rfl, rfl⟩
    rw [hx.uncomment_append hlast, htrap.1, htrap.2, hspace]

theorem uncomment_trap (hxs : ∀ x ∈ xs, ∃ l, Token.Reads x l) :
    uncomment (xs.flatMap fun x => x.text ++ x.trap) =
      xs.flatMap fun x => x.text ++ x.remains := by
  induction xs with
  | nil => rfl
  | cons x xs ih =>
    obtain ⟨l, hx⟩ := hxs x List.mem_cons_self
    have hrest := ih fun y hy => hxs y (List.mem_cons_of_mem _ hy)
    rw [List.flatMap_cons, List.append_assoc, hx.uncomment_trap, hrest, List.flatMap_cons,
      List.append_assoc]

theorem count_flatMap_append {f g : Token → Text} :
    (xs.flatMap fun x => f x ++ g x).count c =
      (xs.flatMap f).count c + (xs.flatMap g).count c := by
  induction xs with
  | nil => rfl
  | cons x xs ih =>
    simp only [List.flatMap_cons, List.count_append, ih]
    omega

/-- A string that ends in a backslash is taken to go on, and a comment behind it stays. -/
theorem getLast?_ne_of_strip {body : Text} (hxs : ∀ x ∈ xs, ∃ l, Token.Reads x l)
    (h : Written .plain xs (strip (xs.flatMap fun x => x.text ++ x.trap)))
    (hbody : .literal body ∈ xs) : body.getLast? ≠ some '\\' := by
  intro hlast
  have hcount := h.count_eq (c := '/') (by decide)
  rw [strip, count_dropLastCommas (by decide)] at hcount
  change (uncomment _).count '/' = _ at hcount
  rw [uncomment_trap hxs, count_flatMap_append] at hcount
  have hnone : '/' ∉ xs.flatMap Token.remains := List.count_eq_zero.1 (by omega)
  refine hnone (List.mem_flatMap.2 ⟨_, hbody, ?_⟩)
  simp [Token.remains, hlast]

/-- A comma is dropped from a string as from anywhere else. -/
theorem not_holdsLastComma_of_strip {body : Text} (hxs : Written .plain xs t)
    (h : Written .plain xs (dropLastCommas t)) (hbody : .literal body ∈ xs) :
    ¬HoldsLastComma body := by
  intro hholds
  have hlt := count_comma_dropLastCommas_lt (hholds.of_infix (hxs.body_isInfix hbody))
  rw [h.count_eq (by decide), hxs.count_eq (by decide)] at hlt
  exact absurd hlt (Nat.lt_irrefl _)

theorem Written.commented (h : Written .plain xs t) : Written .commented xs t := h.mono nofun nofun

/-- Which documents keep their tokens and their value when comments and last commas are written into
    them and stripped again: those without a string that ends in a backslash or holds a comma with
    nothing but white space between it and a closing bracket. -/
theorem strip_keeps_document_iff {limit : Nat} {d : Text} (hread : read limit d = .ok v) :
    (∃ xs, Written .plain xs d) ∧ ∀ xs, Written .plain xs d →
      ((∀ u, Written .commented xs u →
          Written .plain xs (strip u) ∧ read limit (strip u) = .ok v) ↔
        ∀ body, .literal body ∈ xs →
          body.getLast? ≠ some '\\' ∧ ¬HoldsLastComma body) := by
  refine ⟨exists_written hread, fun xs hd => ?_⟩
  have hchain := hd.isChain hread
  constructor
  · intro h
    have hreads : ∀ x ∈ xs, ∃ l, Token.Reads x l := fun x hx => hd.reads hx
    have hlast : ∀ body, .literal body ∈ xs → body.getLast? ≠ some '\\' :=
      fun body => getLast?_ne_of_strip hreads (h _ (written_trap hreads)).1
    have hd' : Written .plain xs (uncomment d) := hd.comments_dropped hchain hlast
    intro body hbody
    exact ⟨hlast body hbody, not_holdsLastComma_of_strip hd' (h d hd.commented).1 hbody⟩
  · intro h u hu
    have hu' := hu.comments_dropped hchain fun body hbody => (h body hbody).1
    have hstrip : Written .plain xs (strip u) :=
      hu'.commas_dropped rfl hchain fun body hbody => (h body hbody).2
    exact ⟨hstrip, hd.read_eq hstrip hread⟩

/-- Two slashes in a string are no comment. -/
theorem strip_keeps_document_sample :
    let xs := [.mark .openArray, .literal "//".toList, .mark .closeArray]
    let d := "[\"//\"]".toList
    let v := .array [.string "//".toList]
    read 1 d = .ok v ∧ ∀ u, Written .commented xs u → read 1 (strip u) = .ok v := by
  intro xs d v
  have hread : read 1 d = .ok v := rfl
  have hbody : IsBody "//".toList :=
    .char (by decide) (by decide) <| .char (by decide) (by decide) .nil
  have hd : Written .plain xs d :=
    .token (.mark .openArray) nofun <| .token (.literal hbody rfl) nofun <|
      .token (.mark .closeArray) nofun .nil
  have hsound : ∀ body, .literal body ∈ xs → body.getLast? ≠ some '\\' ∧ ¬HoldsLastComma body := by
    intro body hmem
    have hbody : body = "//".toList := by simpa [xs] using hmem
    subst hbody
    refine ⟨by decide, ?_⟩
    rintro ⟨u, w, c, r, h, -⟩
    have hcomma : ',' ∈ "//".toList := by rw [h]; simp
    exact absurd hcomma (by decide)
  exact ⟨hread, fun u hu => (((strip_keeps_document_iff hread).2 xs hd).2 hsound u hu).2⟩

/-- The comma in the one string of the document `["a,]"]` is lost. -/
theorem strip_spoils_document :
    ¬∀ (limit : Nat) (d u : Text) (v : Json) (xs : List Token), read limit d = .ok v →
      Written .plain xs d → Written .commented xs u → read limit (strip u) = .ok v := by
  intro h
  have hread : read 1 "[\"a,]\"]".toList = .ok (.array [.string "a,]".toList]) := rfl
  have hstrip : read 1 (strip "[\"a,]\"]".toList) = .ok (.array [.string "a]".toList]) := rfl
  obtain ⟨xs, hxs⟩ := exists_written hread
  have hkept := hstrip.symm.trans (h _ _ _ _ xs hread hxs hxs.commented)
  simp at hkept

end ImportRepair.Json
