import ImportRepair.Json.Lexer
import ImportRepair.Proofs.Failure
import ImportRepair.Proofs.Text.Scan

/-!
# Where a lexeme ends

A string ends at the first quotation mark that no escape takes in; a number or a
word does not go beyond the letters, digits, signs and points that stand
together.  So what a piece of a JSON text is read as does not depend on what
follows it.
-/

namespace ImportRepair.Json

open Text

variable {t u r w body : Text} {c : Char} {start offset : Nat} {units : List Nat}

/-! ### Strings -/

/-- What may stand between the quotation marks of a string: characters, and escapes of two
    characters at least. -/
inductive IsBody : Text → Prop
  | nil : IsBody []
  | char {c : Char} {t : Text} (hquote : c ≠ '"') (hescape : c ≠ '\\') (h : IsBody t) :
      IsBody (c :: t)
  | escape (c : Char) {t : Text} (h : IsBody t) : IsBody ('\\' :: c :: t)

theorem IsBody.tail (h : IsBody (c :: t)) (hc : c ≠ '\\') : IsBody t := by
  cases h with
  | char _ _ h => exact h
  | escape => exact absurd rfl hc

theorem scanString_char (hquote : c ≠ '"') (hescape : c ≠ '\\') :
    scanString start offset (c :: r) = if c.toNat ≤ 0x1F then .error (.controlCharacter, offset)
      else (scanString start (offset + 1) r).map fun p => (c.toNat :: p.1, p.2) :=
  scanString.eq_7 start offset c r hquote (fun _ _ _ _ _ hc _ => hescape hc)
    (fun _ hc _ => hescape hc) (fun hc _ => hescape hc) fun _ _ hc _ => hescape hc

theorem scanString_escape (hc : c ≠ 'u') :
    scanString start offset ('\\' :: c :: r) = match simpleEscape? c with
      | some d => (scanString start (offset + 2) r).map fun p => (d.toNat :: p.1, p.2)
      | none => .error (.invalidEscape, offset) :=
  scanString.eq_6 start offset c r (fun _ _ _ _ _ h _ => hc h) hc

/-- An escape by code point needs four hexadecimal digits. -/
theorem scanString_unicode_eq_error
    (h : ∀ a b d e v, t = a :: b :: d :: e :: v → hexWord? a b d e = none) :
    ∃ f, scanString start offset ('\\' :: 'u' :: t) = .error f := by
  by_cases hlong : ∃ a b d e v, t = a :: b :: d :: e :: v
  · obtain ⟨a, b, d, e, v, rfl⟩ := hlong
    rw [scanString.eq_3, h a b d e v rfl]
    split
    · next heq => cases heq
    · exact ⟨_, rfl⟩
  · exact ⟨_, scanString.eq_4 start offset t fun a b d e v ht => hlong ⟨a, b, d, e, v, ht⟩⟩

theorem ne_of_hexWord?_eq_some {a b d e : Char} {n : Nat} (h : hexWord? a b d e = some n)
    (hc : c ∈ [a, b, d, e]) : c ≠ '"' ∧ c ≠ '\\' := by
  have hdigit : ∀ {m}, hexValue? c = some m → c ≠ '"' ∧ c ≠ '\\' := by
    intro m hm
    refine ⟨?_, ?_⟩
    all_goals
      rintro rfl
      revert hm
      simp [hexValue?]
  simp only [hexWord?, bind, Option.bind_eq_some_iff] at h
  obtain ⟨_, ha, _, hb, _, hd, _, he, -⟩ := h
  simp only [List.mem_cons, List.not_mem_nil, or_false] at hc
  rcases hc with rfl | rfl | rfl | rfl
  · exact hdigit ha
  · exact hdigit hb
  · exact hdigit hd
  · exact hdigit he

/-- In front of a closing quotation mark the text is read as the same string wherever it stands, or
    else it is refused everywhere. -/
def ReadsAlike (body : Text) : Prop :=
  (∃ units, ∀ start offset r,
      scanString start offset (body ++ '"' :: r) = .ok (units, offset + body.length + 1)) ∨
    ∀ start offset r, ∃ f, scanString start offset (body ++ '"' :: r) = .error f

theorem ReadsAlike.behind {n : Nat} (h : ReadsAlike body)
    (hfront : ∀ start offset r, scanString start offset (u ++ (body ++ '"' :: r)) =
      (scanString start (offset + u.length) (body ++ '"' :: r)).map fun p => (n :: p.1, p.2)) :
    ReadsAlike (u ++ body) := by
  rcases h with ⟨units, h⟩ | h
  · refine .inl ⟨n :: units, fun start offset r => ?_⟩
    rw [List.append_assoc, hfront, h, List.length_append]
    simp only [Except.map, Nat.add_assoc]
  · refine .inr fun start offset r => ?_
    obtain ⟨f, hf⟩ := h start (offset + u.length) r
    exact ⟨f, by rw [List.append_assoc, hfront, hf]; rfl⟩

theorem IsBody.readsAlike (h : IsBody body) : ReadsAlike body := by
  -- By length, since an escape by code point takes four characters that `IsBody` counts singly.
  induction hn : body.length using Nat.strongRecOn generalizing body with
  | ind n ih =>
    subst hn
    cases h with
    | nil => exact .inl ⟨[], fun start offset r => rfl⟩
    | @char c t hquote hescape h =>
      have hrest := ih t.length (Nat.lt_succ_self _) h rfl
      by_cases hcontrol : c.toNat ≤ 0x1F
      · refine .inr fun start offset r => ⟨(.controlCharacter, offset), ?_⟩
        rw [List.cons_append, scanString_char hquote hescape, if_pos hcontrol]
      · refine hrest.behind (u := [c]) (n := c.toNat) fun start offset r => ?_
        rw [List.singleton_append, scanString_char hquote hescape, if_neg hcontrol]
        rfl
    | @escape c t h =>
      by_cases hc : c = 'u'
      · subst hc
        by_cases hhex : ∃ a b d e v n, t = a :: b :: d :: e :: v ∧ hexWord? a b d e = some n
        · obtain ⟨a, b, d, e, v, n, rfl, hn⟩ := hhex
          have hne := fun x hx => (ne_of_hexWord?_eq_some (c := x) hn hx).2
          have hv : IsBody v := (((h.tail (hne a (by simp))).tail (hne b (by simp))).tail
            (hne d (by simp))).tail (hne e (by simp))
          have hrest := ih v.length (by simp only [List.length_cons]; omega) hv rfl
          refine hrest.behind (u := ['\\', 'u', a, b, d, e]) (n := n) fun start offset r => ?_
          have hfull : (v ++ '"' :: r).isEmpty = false := by cases v <;> rfl
          simp only [List.cons_append, List.nil_append, scanString.eq_3, hfull, hn]
          rfl
        · refine .inr fun start offset r => ?_
          refine scanString_unicode_eq_error fun a b d e w hw => ?_
          by_contra hsome
          obtain ⟨n, hn⟩ := Option.ne_none_iff_exists'.1 hsome
          have hquote : '"' ∉ [a, b, d, e] := fun hmem => (ne_of_hexWord?_eq_some hn hmem).1 rfl
          obtain ⟨v, rfl⟩ := exists_of_append_eq (v := [a, b, d, e]) hw hquote
          exact hhex ⟨a, b, d, e, v, n, rfl, hn⟩
      · have hrest := ih t.length (by simp only [List.length_cons]; omega) h rfl
        cases hd : simpleEscape? c with
        | none =>
          refine .inr fun start offset r => ⟨(.invalidEscape, offset), ?_⟩
          rw [List.cons_append, List.cons_append, scanString_escape hc, hd]
        | some d =>
          refine hrest.behind (u := ['\\', c]) (n := d.toNat) fun start offset r => ?_
          simp only [List.cons_append, List.nil_append, scanString_escape hc, hd]
          rfl

/-- A string that is read once is read so wherever it stands. -/
theorem IsBody.scanString_eq (h : IsBody body) {n : Nat}
    (hread : scanString start offset (body ++ '"' :: r) = .ok (units, n)) (start' offset' : Nat)
    (r' : Text) :
    scanString start' offset' (body ++ '"' :: r') = .ok (units, offset' + body.length + 1) := by
  rcases h.readsAlike with ⟨units', h⟩ | h
  · have hunits := (h start offset r).symm.trans hread
    simp only [Except.ok.injEq, Prod.mk.injEq] at hunits
    rw [h, hunits.1]
  · obtain ⟨f, hf⟩ := h start offset r
    rw [hf] at hread
    cases hread

/-- A string that is read ends at a quotation mark. -/
theorem exists_body_of_scanString {n : Nat} (h : scanString start offset t = .ok (units, n)) :
    ∃ body r, IsBody body ∧ t = body ++ '"' :: r := by
  fun_induction scanString start offset t generalizing units n with
  | case2 => exact ⟨[], _, .nil, rfl⟩
  | case3 _ a b d e _ _ hword _ ih =>
    obtain ⟨_, hrest, -⟩ := map_eq_ok_iff.1 h
    obtain ⟨body, r, hbody, rfl⟩ := ih hrest
    have hne := fun x hx => ne_of_hexWord?_eq_some (c := x) hword hx
    refine ⟨'\\' :: 'u' :: a :: b :: d :: e :: body, r, .escape _ ?_, rfl⟩
    exact .char (hne a (by simp)).1 (hne a (by simp)).2 <|
      .char (hne b (by simp)).1 (hne b (by simp)).2 <|
        .char (hne d (by simp)).1 (hne d (by simp)).2 <|
          .char (hne e (by simp)).1 (hne e (by simp)).2 hbody
  | case7 _ c _ _ _ _ _ ih =>
    obtain ⟨_, hrest, -⟩ := map_eq_ok_iff.1 h
    obtain ⟨body, r, hbody, rfl⟩ := ih hrest
    exact ⟨'\\' :: c :: body, r, .escape c hbody, rfl⟩
  | case10 _ c t hquote _ _ halone hescape _ ih =>
    obtain ⟨_, hrest, -⟩ := map_eq_ok_iff.1 h
    obtain ⟨body, r, hbody, rfl⟩ := ih hrest
    have hc : c ≠ '\\' := by
      rintro rfl
      cases hbody with
      | nil => exact hescape _ _ rfl rfl
      | char => exact hescape _ _ rfl rfl
      | escape => exact hescape _ _ rfl rfl
    exact ⟨c :: body, r, .char hquote hc hbody, rfl⟩
  | _ => cases h

/-! ### Numbers and words -/

/-- The characters of a number, of `null`, of `true` and of `false`. -/
def isScalarChar (c : Char) : Bool :=
  isAsciiLetter c || isDecimalDigit c || c == '-' || c == '+' || c == '.'

/-- The number or the word at the front of a text, and its number of characters. -/
def scalar? (t : Text) : Option (Lexeme × Nat) :=
  if "null".toList.isPrefixOf t then some (.null, 4)
  else if "true".toList.isPrefixOf t then some (.bool true, 4)
  else if "false".toList.isPrefixOf t then some (.bool false, 5)
  else (numeric? t).map fun p => (.number p.1, p.2)

theorem isScalarChar_of_isDecimalDigit (h : isDecimalDigit c = true) : isScalarChar c = true := by
  simp [isScalarChar, h]

theorem lexeme_of_isScalarChar (h : isScalarChar c = true) :
    lexeme offset c r = (scalar? (c :: r)).getD (.unknown, r.length + 1) := by
  unfold lexeme scalar?
  split
  iterate 7 exact absurd h (by decide)
  repeat' split
  all_goals simp_all

/-- The whole part at the front of a number. -/
def wholePart : Text → Text
  | '0' :: _ => ['0']
  | t => leadingDigits t

theorem unsigned?_eq {negative : Bool} : unsigned? negative t =
    if (wholePart t).isEmpty then none
    else
      let f := fraction (t.drop (wholePart t).length)
      let e := exponent ((t.drop (wholePart t).length).drop f.2)
      if f.2 = 0 && e.2 = 0 then some (.integer negative (wholePart t), (wholePart t).length)
      else some (.decimal negative (wholePart t ++ f.1) (e.1 - f.1.length),
        (wholePart t).length + f.2 + e.2) := by
  unfold unsigned?
  split
  · rfl
  · next hzero => rw [wholePart.eq_2 t hzero]

/-- The sign at the front of an exponent: whether it is a minus, its number of characters, and what
    follows it. -/
def exponentSign : Text → Bool × Nat × Text
  | '-' :: r => (true, 1, r)
  | '+' :: r => (false, 1, r)
  | r => (false, 0, r)

theorem exponent_cons : exponent (c :: t) =
    if c = 'e' || c = 'E' then
      let s := exponentSign t
      let ds := leadingDigits s.2.2
      let n : Int := Numeral.value ds
      if ds.isEmpty then (0, 0) else (if s.1 then -n else n, 1 + s.2.1 + ds.length)
    else (0, 0) :=
  rfl

theorem length_leadingDigits_le : (leadingDigits t).length ≤ t.length :=
  (List.takeWhile_sublist _).length_le

theorem length_wholePart_le : (wholePart t).length ≤ t.length := by
  unfold wholePart
  split
  · simp
  · exact length_leadingDigits_le

theorem length_fraction_le : (fraction t).2 ≤ t.length := by
  unfold fraction
  split
  · next r =>
    have := length_leadingDigits_le (t := r)
    dsimp only
    split <;> simp only [List.length_cons] <;> omega
  · exact Nat.zero_le _

theorem length_exponentSign : (exponentSign t).2.1 + (exponentSign t).2.2.length = t.length := by
  unfold exponentSign
  split <;> simp only [List.length_cons] <;> omega

theorem length_exponent_le : (exponent t).2 ≤ t.length := by
  cases t with
  | nil => exact Nat.le_refl _
  | cons c t =>
    have hsign := length_exponentSign (t := t)
    have hdigits := length_leadingDigits_le (t := (exponentSign t).2.2)
    rw [exponent_cons]
    dsimp only
    split
    · split <;> simp only [List.length_cons] <;> omega
    · exact Nat.zero_le _

theorem length_of_unsigned? {negative : Bool} {m : Numeric} {n : Nat}
    (h : unsigned? negative t = some (m, n)) : 0 < n ∧ n ≤ t.length := by
  have hwhole := length_wholePart_le (t := t)
  have hfraction := length_fraction_le (t := t.drop (wholePart t).length)
  have hexponent := length_exponent_le
    (t := (t.drop (wholePart t).length).drop (fraction (t.drop (wholePart t).length)).2)
  rw [List.length_drop] at hfraction
  rw [List.length_drop, List.length_drop] at hexponent
  rw [unsigned?_eq] at h
  split at h
  · cases h
  · next hdigits =>
    have hpos : 0 < (wholePart t).length :=
      List.length_pos_iff.2 fun hnil => hdigits (List.isEmpty_iff.2 hnil)
    dsimp only at h
    split at h
    all_goals
      simp only [Option.some.injEq, Prod.mk.injEq] at h
      omega

theorem length_of_word {α : Type} {s : Text} {l m : α} {n : Nat} (hs : 0 < s.length)
    (hword : s.isPrefixOf t = true) (h : some (l, s.length) = some (m, n)) :
    0 < n ∧ n ≤ t.length := by
  have hlength : s.length ≤ t.length := (List.isPrefixOf_iff_prefix.1 hword).length_le
  cases h
  exact ⟨hs, hlength⟩

theorem length_of_numeric? {m : Numeric} {n : Nat} (h : numeric? t = some (m, n)) :
    0 < n ∧ n ≤ t.length := by
  unfold numeric? at h
  split at h
  · next t =>
    split at h
    · next hword => exact length_of_word (s := "-Infinity".toList) (by decide) hword h
    · obtain ⟨p, hp, hn⟩ := Option.map_eq_some_iff.1 h
      have hlength := length_of_unsigned? hp
      cases hn
      exact ⟨Nat.succ_pos _, Nat.succ_le_succ hlength.2⟩
  · split at h
    · next hword => exact length_of_word (by decide) hword h
    · split at h
      · next hword => exact length_of_word (by decide) hword h
      · exact length_of_unsigned? h

/-- A number or a word has a character at least, and ends within the text. -/
theorem length_of_scalar? {l : Lexeme} {n : Nat} (h : scalar? t = some (l, n)) :
    0 < n ∧ n ≤ t.length := by
  unfold scalar? at h
  split at h
  · next hword => exact length_of_word (by decide) hword h
  · split at h
    · next hword => exact length_of_word (by decide) hword h
    · split at h
      · next hword => exact length_of_word (by decide) hword h
      · obtain ⟨p, hp, hn⟩ := Option.map_eq_some_iff.1 h
        cases hn
        exact length_of_numeric? hp

section Locality

variable (hr : Stops isScalarChar r)
include hr

theorem append_ne_cons (hc : isScalarChar c = true) (hw : ¬∃ v, w = c :: v) (v : Text) :
    w ++ r ≠ c :: v := by
  intro h
  cases w with
  | nil =>
    have hne := hr c (by rw [show r = c :: v from h]; rfl)
    exact absurd hc (by simp [hne])
  | cons d w => exact hw ⟨w, by rw [(List.cons.inj h).1]⟩

theorem isPrefixOf_append_of_stops {s : Text} (hs : AllIn isScalarChar s) :
    s.isPrefixOf (w ++ r) = s.isPrefixOf w := by
  induction s generalizing w with
  | nil => rfl
  | cons c s ih =>
    cases w with
    | nil =>
      cases r with
      | nil => rfl
      | cons d r =>
        have hne : c ≠ d := by
          rintro rfl
          exact absurd (allIn_cons.1 hs).1 (by simp [stops_cons.1 hr])
        simp [List.isPrefixOf, hne]
    | cons d w =>
      rw [List.cons_append, List.isPrefixOf, List.isPrefixOf, ih (allIn_cons.1 hs).2]

theorem leadingDigits_append : leadingDigits (w ++ r) = leadingDigits w :=
  takeWhile_append_of_stops fun c hc => by
    have hscalar := hr c hc
    rw [Bool.eq_false_iff] at hscalar ⊢
    exact fun hdigit => hscalar (isScalarChar_of_isDecimalDigit hdigit)

theorem wholePart_append : wholePart (w ++ r) = wholePart w := by
  by_cases hzero : ∃ v, w = '0' :: v
  · obtain ⟨v, rfl⟩ := hzero
    rfl
  · rw [wholePart.eq_2 _ (append_ne_cons hr (by decide) hzero),
      wholePart.eq_2 _ (not_exists.1 hzero), leadingDigits_append hr]

theorem fraction_append : fraction (w ++ r) = fraction w := by
  by_cases hpoint : ∃ v, w = '.' :: v
  · obtain ⟨v, rfl⟩ := hpoint
    rw [List.cons_append, fraction, fraction, leadingDigits_append hr]
  · rw [fraction.eq_2 _ (append_ne_cons hr (by decide) hpoint),
      fraction.eq_2 _ (not_exists.1 hpoint)]

theorem exponentSign_append : exponentSign (w ++ r) =
    ((exponentSign w).1, (exponentSign w).2.1, (exponentSign w).2.2 ++ r) := by
  by_cases hminus : ∃ v, w = '-' :: v
  · obtain ⟨v, rfl⟩ := hminus
    rfl
  · by_cases hplus : ∃ v, w = '+' :: v
    · obtain ⟨v, rfl⟩ := hplus
      rfl
    · rw [exponentSign.eq_3 _ (append_ne_cons hr (by decide) hminus)
          (append_ne_cons hr (by decide) hplus),
        exponentSign.eq_3 _ (not_exists.1 hminus) (not_exists.1 hplus)]

theorem exponent_append : exponent (w ++ r) = exponent w := by
  cases w with
  | nil =>
    cases r with
    | nil => rfl
    | cons d r =>
      have he : ¬(d = 'e' ∨ d = 'E') := by
        rintro (rfl | rfl)
        · exact absurd (stops_cons.1 hr) (by decide)
        · exact absurd (stops_cons.1 hr) (by decide)
      simp [exponent, he]
  | cons e w =>
    simp only [List.cons_append, exponent_cons, exponentSign_append hr, leadingDigits_append hr]

theorem unsigned?_append {negative : Bool} :
    unsigned? negative (w ++ r) = unsigned? negative w := by
  have hwhole := length_wholePart_le (t := w)
  have hfraction := length_fraction_le (t := w.drop (wholePart w).length)
  rw [unsigned?_eq, unsigned?_eq, wholePart_append hr, List.drop_append_of_le_length hwhole,
    fraction_append hr]
  dsimp only
  rw [List.drop_append_of_le_length hfraction, exponent_append hr]

theorem numeric?_append : numeric? (w ++ r) = numeric? w := by
  have hinfinity := isPrefixOf_append_of_stops hr (w := w) (s := "Infinity".toList) (by decide)
  have hnan := isPrefixOf_append_of_stops hr (w := w) (s := "NaN".toList) (by decide)
  by_cases hminus : ∃ v, w = '-' :: v
  · obtain ⟨v, rfl⟩ := hminus
    rw [List.cons_append, numeric?, numeric?, unsigned?_append hr,
      isPrefixOf_append_of_stops hr (by decide)]
  · rw [numeric?.eq_2 _ (append_ne_cons hr (by decide) hminus),
      numeric?.eq_2 _ (not_exists.1 hminus), hinfinity, hnan, unsigned?_append hr]

/-- What follows a number or a word does not change it. -/
theorem scalar?_append : scalar? (w ++ r) = scalar? w := by
  have hnull := isPrefixOf_append_of_stops hr (w := w) (s := "null".toList) (by decide)
  have htrue := isPrefixOf_append_of_stops hr (w := w) (s := "true".toList) (by decide)
  have hfalse := isPrefixOf_append_of_stops hr (w := w) (s := "false".toList) (by decide)
  rw [scalar?, scalar?, hnull, htrue, hfalse, numeric?_append hr]

end Locality

end ImportRepair.Json
