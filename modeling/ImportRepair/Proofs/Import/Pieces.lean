import ImportRepair.Import.Reader
import ImportRepair.Proofs.Text.Scan
import Mathlib.Data.List.Basic

/-!
# What the readers of pieces accept

For each reader of a piece of an import line there is one equivalence: the
texts from which it returns a piece are those that start with that piece,
written in one of its spellings.  Everything that is later said about whole
lines is derived from these equivalences and not from the readers themselves.
-/

namespace ImportRepair

open Text

variable {t r n m : Text}

theorem isPrefixOf?_eq_some_iff {w t r : Text} : w.isPrefixOf? t = some r ↔ t = w ++ r := by
  rw [List.isPrefixOf?_eq_some_iff_append_eq, eq_comm]

/-! ### Names -/

theorem isNamePart_of_isNameStart {c : Char} (h : isNameStart c = true) : isNamePart c = true := by
  have hlow : c.toNat < 128 := by
    simp only [isNameStart, isAsciiLetter, Bool.or_eq_true, Bool.and_eq_true, decide_eq_true_eq,
      beq_iff_eq, Char.le_def] at h
    rcases h with ((⟨-, h⟩ | ⟨-, h⟩) | h) | h
    · exact Nat.lt_of_le_of_lt (UInt32.le_iff_toNat_le.1 h) (by decide)
    · exact Nat.lt_of_le_of_lt (UInt32.le_iff_toNat_le.1 h) (by decide)
    · rw [h]; decide
    · rw [h]; decide
  simp only [isNameStart, Bool.or_eq_true] at h
  simp only [isNamePart, isWord, if_pos hlow, Bool.or_eq_true]
  rcases h with (h | h) | h
  · exact Or.inl (Or.inl (Or.inl h))
  · exact Or.inl (Or.inr h)
  · exact Or.inr h

theorem isBlank_of_isNamePart {c : Char} (h : isNamePart c = true) : isBlank c = false := by
  by_contra hblank
  rw [Bool.not_eq_false] at hblank
  simp only [isNamePart, isWord_of_isBlank hblank, Bool.false_or, beq_iff_eq] at h
  rw [h] at hblank
  exact absurd hblank (by decide)

theorem isNamePart_of_isBlank {c : Char} (h : isBlank c = true) : isNamePart c = false := by
  by_contra hpart
  rw [Bool.not_eq_false] at hpart
  simp [isBlank_of_isNamePart hpart] at h

/-- A character of a name is none of the characters that are not. -/
theorem ne_of_isNamePart {c d : Char} (h : isNamePart c = true) (hd : isNamePart d = false) :
    c ≠ d := by
  rintro rfl
  simp [h] at hd

theorem isSpecifierChar_of_isNamePart {c : Char} (h : isNamePart c = true) :
    isSpecifierChar c = true := by
  simp [isSpecifierChar, ne_of_isNamePart h (d := '\'') (by decide),
    ne_of_isNamePart h (d := '"') (by decide)]

theorem isNoBrace_of_isNamePart {c : Char} (h : isNamePart c = true) : isNoBrace c = true := by
  simp [isNoBrace, ne_of_isNamePart h (d := '\x7b') (by decide),
    ne_of_isNamePart h (d := '\x7d') (by decide)]

theorem ne_of_isBlank {c d : Char} (h : isBlank c = true) (hd : isBlank d = false) : c ≠ d := by
  rintro rfl
  simp [h] at hd

theorem isSpecifierChar_of_isBlank {c : Char} (h : isBlank c = true) :
    isSpecifierChar c = true := by
  simp [isSpecifierChar, ne_of_isBlank h (d := '\'') (by decide),
    ne_of_isBlank h (d := '"') (by decide)]

theorem isNoBrace_of_isBlank {c : Char} (h : isBlank c = true) : isNoBrace c = true := by
  simp [isNoBrace, ne_of_isBlank h (d := '\x7b') (by decide),
    ne_of_isBlank h (d := '\x7d') (by decide)]

/-- A character of a statement outside its quotation marks and its comment, other than a brace. -/
def isStatementChar (c : Char) : Bool :=
  isNamePart c || isBlank c || ['*', ',', ':', '=', '(', ')'].contains c

theorem isStatementChar_of_isNamePart {c : Char} (h : isNamePart c = true) :
    isStatementChar c = true := by
  rw [isStatementChar, h, Bool.true_or, Bool.true_or]

theorem isStatementChar_of_isBlank {c : Char} (h : isBlank c = true) :
    isStatementChar c = true := by
  rw [isStatementChar, h, Bool.or_true, Bool.true_or]

theorem statementChars_of_blank (h : AllIn isBlank t) : AllIn isStatementChar t :=
  h.mono fun _ => isStatementChar_of_isBlank

theorem ne_of_isStatementChar {c d : Char} (h : isStatementChar c = true)
    (hd : isStatementChar d = false) : c ≠ d := by
  rintro rfl
  simp [h] at hd

theorem isSpecifierChar_of_isStatementChar {c : Char} (h : isStatementChar c = true) :
    isSpecifierChar c = true := by
  simp [isSpecifierChar, ne_of_isStatementChar h (d := '\'') (by decide),
    ne_of_isStatementChar h (d := '"') (by decide)]

theorem isNoBrace_of_isStatementChar {c : Char} (h : isStatementChar c = true) :
    isNoBrace c = true := by
  simp [isNoBrace, ne_of_isStatementChar h (d := '\x7b') (by decide),
    ne_of_isStatementChar h (d := '\x7d') (by decide)]

theorem isName_iff : IsName n ↔ ∃ c r, n = c :: r ∧ isNameStart c = true ∧ AllIn isNamePart r := by
  cases n with
  | nil => simp [IsName, name?]
  | cons c r =>
    by_cases hc : isNameStart c
    · simp only [IsName, name?, hc, if_true, Option.some.injEq, Prod.mk.injEq, List.cons.injEq,
        true_and, List.dropWhile_eq_nil_iff, List.takeWhile_eq_self_iff, and_self]
      exact ⟨fun h => ⟨c, r, ⟨rfl, rfl⟩, hc, h⟩, by rintro ⟨_, _, ⟨rfl, rfl⟩, -, h⟩; exact h⟩
    · simp only [IsName, name?, hc, Bool.false_eq_true, if_false, reduceCtorEq, false_iff]
      rintro ⟨_, _, h, hstart, -⟩
      cases h
      exact hc hstart

namespace IsName

theorem allIn (h : IsName n) : AllIn isNamePart n := by
  obtain ⟨c, r, rfl, hc, hr⟩ := isName_iff.1 h
  exact allIn_cons.2 ⟨isNamePart_of_isNameStart hc, hr⟩

theorem ne_nil (h : IsName n) : n ≠ [] := by
  obtain ⟨c, r, rfl, -, -⟩ := isName_iff.1 h
  simp

theorem isTrimmed (h : IsName n) : IsTrimmed n where
  ne_nil := h.ne_nil
  head := h.allIn.stops fun _ => isBlank_of_isNamePart
  last c hc := isBlank_of_isNamePart (h.allIn c (List.mem_of_getLast? hc))

theorem statementChars (h : IsName n) : AllIn isStatementChar n :=
  h.allIn.mono fun _ => isStatementChar_of_isNamePart

theorem stops {p : Char → Bool} (h : IsName n) (hp : ∀ c, isNamePart c = true → p c = false) :
    Stops p (n ++ r) :=
  stops_append (h.allIn.stops hp) h.ne_nil

end IsName

theorem name?_eq_some_iff : name? t = some (n, r) ↔ t = n ++ r ∧ IsName n ∧ Stops isNamePart r := by
  constructor
  · intro h
    cases t with
    | nil => simp [name?] at h
    | cons c t =>
      simp only [name?] at h
      split at h
      · next hc =>
        cases h
        refine ⟨by simp, isName_iff.2 ⟨c, _, rfl, hc, allIn_takeWhile⟩, stops_dropWhile⟩
      · simp at h
  · rintro ⟨rfl, hn, hr⟩
    obtain ⟨c, w, rfl, hc, hw⟩ := isName_iff.1 hn
    simp [name?, hc, takeWhile_run hw hr, dropWhile_run hw hr]

theorem name?_of_stops (h : Stops isNameStart t) : name? t = none := by
  cases t with
  | nil => rfl
  | cons c t => simp [name?, stops_cons.1 h]

theorem onlyName?_eq_some_iff : onlyName? t = some n ↔ t = n ∧ IsName n := by
  unfold onlyName?
  constructor
  · intro h
    split at h
    · next m hm =>
      cases h
      obtain ⟨rfl, hn, -⟩ := name?_eq_some_iff.1 hm
      exact ⟨by simp, hn⟩
    · simp at h
  · rintro ⟨rfl, hn⟩
    rw [show name? t = some (t, []) from hn]

/-! ### White space and words -/

theorem afterBlanks?_eq_some_iff :
    afterBlanks? t = some r ↔ ∃ g, g ≠ [] ∧ AllIn isBlank g ∧ Stops isBlank r ∧ t = g ++ r := by
  cases t with
  | nil =>
    simp only [afterBlanks?, reduceCtorEq, false_iff]
    rintro ⟨g, hne, -, -, heq⟩
    exact hne (List.append_eq_nil_iff.1 heq.symm).1
  | cons c t =>
    simp only [afterBlanks?]
    constructor
    · intro h
      split at h
      · next hc =>
        cases h
        exact ⟨c :: t.takeWhile isBlank, by simp, allIn_cons.2 ⟨hc, allIn_takeWhile⟩,
          stops_dropWhile, by simp [trimLeft]⟩
      · simp at h
    · rintro ⟨g, hne, hg, hr, heq⟩
      cases g with
      | nil => exact absurd rfl hne
      | cons d g =>
        cases heq
        obtain ⟨hd, hg⟩ := allIn_cons.1 hg
        simp [hd, trimLeft, dropWhile_run hg hr]

theorem afterWord?_eq_some_iff {w : Text} : afterWord? w t = some r ↔
    ∃ g, g ≠ [] ∧ AllIn isBlank g ∧ Stops isBlank r ∧ t = w ++ (g ++ r) := by
  simp only [afterWord?, Option.bind_eq_some_iff, isPrefixOf?_eq_some_iff, afterBlanks?_eq_some_iff]
  constructor
  · rintro ⟨u, rfl, g, hne, hg, hr, rfl⟩
    exact ⟨g, hne, hg, hr, rfl⟩
  · rintro ⟨g, hne, hg, hr, rfl⟩
    exact ⟨_, rfl, g, hne, hg, hr, rfl⟩

theorem afterMark?_eq_some_iff {c : Char} (hc : isBlank c = false) : afterMark? c t = some r ↔
    ∃ g g', AllIn isBlank g ∧ AllIn isBlank g' ∧ Stops isBlank r ∧ t = g ++ c :: (g' ++ r) := by
  unfold afterMark?
  constructor
  · intro h
    split at h
    · next d u hu =>
      split at h
      · next hd =>
        cases h
        refine ⟨t.takeWhile isBlank, u.takeWhile isBlank, allIn_takeWhile, allIn_takeWhile,
          stops_dropWhile, ?_⟩
        rw [trimLeft, List.takeWhile_append_dropWhile, ← hd, ← hu, trimLeft,
          List.takeWhile_append_dropWhile]
      · simp at h
    · simp at h
  · rintro ⟨g, g', hg, hg', hr, rfl⟩
    rw [trimLeft, dropWhile_run hg (stops_cons.2 hc)]
    simp [trimLeft, dropWhile_run hg' hr]

/-! ### Module specifiers -/

theorem ofChar?_eq_some_iff {c : Char} {q : Quote} : Quote.ofChar? c = some q ↔ c = q.char := by
  unfold Quote.ofChar?
  cases q with
  | single => by_cases h : c = '\'' <;> by_cases h' : c = '"' <;> simp [Quote.char, h, h']
  | double =>
    by_cases h : c = '"'
    · simp [Quote.char, h]
    · by_cases h' : c = '\'' <;> simp [Quote.char, h, h']

theorem isSpecifierChar_quote (q : Quote) : isSpecifierChar q.char = false := by
  cases q <;> rfl

theorem specifier?_eq_some_iff {q : Quote} : specifier? t = some (q, m, r) ↔
    m ≠ [] ∧ AllIn isSpecifierChar m ∧ t = q.char :: (m ++ q.char :: r) := by
  constructor
  · intro h
    cases t with
    | nil => simp [specifier?] at h
    | cons c t =>
      simp only [specifier?, bind, Option.bind_eq_some_iff, ofChar?_eq_some_iff] at h
      obtain ⟨q', rfl, h⟩ := h
      split at h
      · next m d rest hm hrest =>
        split at h
        · next hd =>
          cases h
          have hspan := List.takeWhile_append_dropWhile (p := isSpecifierChar) (l := t)
          rw [hrest, hd] at hspan
          rw [hm] at hspan
          refine ⟨by simp, hm ▸ allIn_takeWhile, ?_⟩
          rw [hspan]
        · simp at h
      · simp at h
  · rintro ⟨hne, hm, rfl⟩
    have hstop : Stops isSpecifierChar (q.char :: r) := stops_cons.2 (isSpecifierChar_quote q)
    have hquote : Quote.ofChar? q.char = some q := ofChar?_eq_some_iff.2 rfl
    simp only [specifier?, hquote, takeWhile_run hm hstop, dropWhile_run hm hstop]
    cases m with
    | nil => exact absurd rfl hne
    | cons c m => simp

/-! ### Braces -/

theorem braces?_eq_some_iff {body : Text} : braces? t = some (body, r) ↔
    AllIn isNoBrace body ∧ t = '\x7b' :: (body ++ '\x7d' :: r) := by
  constructor
  · intro h
    cases t with
    | nil => simp [braces?] at h
    | cons c t =>
      simp only [braces?] at h
      split at h
      · next hc =>
        split at h
        · next d rest hrest =>
          split at h
          · next hd =>
            cases h
            have hspan := List.takeWhile_append_dropWhile (p := isNoBrace) (l := t)
            rw [hrest, hd] at hspan
            exact ⟨allIn_takeWhile, by rw [hspan, hc]⟩
          · simp at h
        · simp at h
      · simp at h
  · rintro ⟨hbody, rfl⟩
    have hstop : Stops isNoBrace ('\x7d' :: r) := stops_cons.2 (by decide)
    simp [braces?, takeWhile_run hbody hstop, dropWhile_run hbody hstop]

/-! ### Ends of lines -/

/-- The text is nothing, or white space and a comment on one line that does not end in white
    space. -/
def IsComment (u : Text) : Prop :=
  u = [] ∨ ∃ g r, AllIn isBlank g ∧ u = g ++ '/' :: '/' :: r ∧
    (∀ c ∈ ('/' :: '/' :: r).getLast?, isBlank c = false) ∧ '\n' ∉ r

theorem isComment_nil : IsComment [] := Or.inl rfl

namespace IsComment

variable {u : Text}

theorem trimLeft (h : IsComment u) : IsComment u.trimLeft := by
  rcases h with rfl | ⟨g, r, hg, rfl, hlast, hline⟩
  · exact Or.inl rfl
  · refine Or.inr ⟨[], r, by simp, ?_, hlast, hline⟩
    exact dropWhile_run hg (stops_cons.2 (by decide))

theorem stops_semicolon (h : IsComment u) : Stops (· == ';') u := by
  rcases h with rfl | ⟨g, r, hg, rfl, -, -⟩
  · simp
  · cases g with
    | nil => simp
    | cons c g =>
      have hc := (allIn_cons.1 hg).1
      simpa using ne_of_isBlank hc (d := ';') (by decide)

theorem last (h : IsComment u) : ∀ c ∈ u.getLast?, isBlank c = false := by
  rcases h with rfl | ⟨g, r, -, rfl, hlast, -⟩
  · simp
  · simpa [List.getLast?_append] using hlast

end IsComment

theorem comment?_eq_some_iff {u : Text} :
    comment? t = some u ↔ IsComment u ∧ ∃ w, AllIn isBlank w ∧ t = u ++ w := by
  unfold comment?
  constructor
  · intro h
    obtain ⟨g, hg, hspan⟩ := exists_trimLeft t
    split at h
    · next hnil =>
      cases h
      rw [hnil, List.append_nil] at hspan
      exact ⟨isComment_nil, t, hspan ▸ hg, rfl⟩
    · next r hr =>
      split at h
      · simp at h
      · next hline =>
        cases h
        obtain ⟨w, hw, hsplit⟩ := exists_dropEndWhile_append (p := isBlank) (t := '/' :: '/' :: r)
        have hslashes : trimRight ('/' :: '/' :: r) = '/' :: '/' :: trimRight r := by
          rw [trimRight, dropEndWhile_cons_of_neg (by decide), dropEndWhile_cons_of_neg (by decide),
            trimRight]
        have hlast : ∀ c ∈ (trimRight ('/' :: '/' :: r)).getLast?, isBlank c = false :=
          getLast?_dropEndWhile
        rw [hr, hsplit, ← List.append_assoc] at hspan
        change t = g ++ trimRight ('/' :: '/' :: r) ++ w at hspan
        rw [hslashes] at hline hlast hspan
        have hright : t.trimRight = g ++ '/' :: '/' :: trimRight r := by
          rw [hspan]
          exact dropEndWhile_append_run hw (by simpa [List.getLast?_append] using hlast)
        refine ⟨Or.inr ⟨g, _, hg, hright, hlast, fun hmem => hline (by simp [hmem])⟩, w, hw, ?_⟩
        rw [hright, hspan]
    · simp at h
  · rintro ⟨hu, w, hw, rfl⟩
    rcases hu with rfl | ⟨g, r, hg, rfl, hlast, hline⟩
    · simp [trimLeft_of_allIn hw]
    · have hleft : trimLeft (g ++ '/' :: '/' :: r ++ w) = '/' :: '/' :: (r ++ w) := by
        rw [List.append_assoc]
        exact trimLeft_run hg (stops_cons.2 (by decide))
      have hright : trimRight ('/' :: '/' :: (r ++ w)) = '/' :: '/' :: r :=
        dropEndWhile_append_run (u := '/' :: '/' :: r) hw hlast
      have hall : trimRight (g ++ '/' :: '/' :: r ++ w) = g ++ '/' :: '/' :: r :=
        dropEndWhile_append_run hw (by simpa [List.getLast?_append] using hlast)
      simp only [hleft, hright, hall, List.mem_cons, hline]
      simp

/-- The end of a line as it is written. -/
def Closing.text (c : Closing) : Text := (if c.semicolon then [';'] else []) ++ c.trailing

/-- An end of a line that is read as it is written. -/
structure Closing.IsPlain (c : Closing) : Prop where
  comment : IsComment c.trailing
  /-- White space in front of a comment belongs to it behind a semicolon only. -/
  head : c.semicolon = false → Stops isBlank c.trailing

theorem closing?_eq_some_iff {c : Closing} : closing? t = some c ↔
    c.IsPlain ∧ ∃ g w, AllIn isBlank g ∧ AllIn isBlank w ∧ t = g ++ (c.text ++ w) := by
  obtain ⟨semicolon, trailing⟩ := c
  unfold closing?
  constructor
  · intro h
    obtain ⟨g, hg, hspan⟩ := exists_trimLeft t
    split at h
    · next r hr =>
      obtain ⟨u, hu, hc⟩ := Option.map_eq_some_iff.1 h
      cases hc
      obtain ⟨hcomment, w, hw, rfl⟩ := comment?_eq_some_iff.1 hu
      refine ⟨⟨hcomment, by simp⟩, g, w, hg, hw, ?_⟩
      simpa [Closing.text, hr] using hspan
    · next r _ =>
      obtain ⟨u, hu, hc⟩ := Option.map_eq_some_iff.1 h
      cases hc
      obtain ⟨hcomment, w, hw, hr⟩ := comment?_eq_some_iff.1 hu
      refine ⟨⟨hcomment, fun _ => ?_⟩, g, w, hg, hw, ?_⟩
      · have hstop := stops_trimLeft (t := t)
        rw [hr] at hstop
        cases htrailing : trailing with
        | nil => simp
        | cons d trailing => simpa [htrailing] using hstop
      · simpa [Closing.text, ← hr] using hspan
  · rintro ⟨⟨hcomment, hhead⟩, g, w, hg, hw, rfl⟩
    have hread : comment? (trailing ++ w) = some trailing :=
      comment?_eq_some_iff.2 ⟨hcomment, w, hw, rfl⟩
    cases semicolon with
    | true =>
      have hleft : trimLeft (g ++ (Closing.text ⟨true, trailing⟩ ++ w)) = ';' :: (trailing ++ w) :=
        trimLeft_run hg (by simp only [Closing.text, if_true]; exact stops_cons.2 (by decide))
      simp [hleft, hread]
    | false =>
      simp only [Closing.text, Bool.false_eq_true, if_false, List.nil_append]
      have hhead : Stops isBlank trailing := hhead rfl
      cases htrailing : trailing with
      | nil =>
        have hnil : trimLeft (g ++ ([] ++ w)) = [] := trimLeft_of_allIn (by simp [hg, hw])
        rw [hnil]
        rfl
      | cons d u =>
        rw [htrailing] at hread hhead hcomment
        have hleft : trimLeft (g ++ (d :: u ++ w)) = d :: u ++ w :=
          trimLeft_run hg (by simpa using hhead)
        have hsemicolon : d ≠ ';' := by simpa using hcomment.stops_semicolon
        rw [hleft]
        split
        · next r hr => exact absurd (List.cons.inj hr).1 hsemicolon
        · rw [hread]
          rfl

/-- Any comment can stand behind a statement; without a semicolon the white space in front of it
    is not taken for a part of it. -/
theorem closing?_text {semicolon : Bool} {u : Text} (h : IsComment u) :
    closing? (Closing.text ⟨semicolon, u⟩) =
      some ⟨semicolon, if semicolon then u else u.trimLeft⟩ := by
  rw [closing?_eq_some_iff]
  cases semicolon with
  | true => exact ⟨⟨h, by simp⟩, [], [], by simp, by simp, by simp [Closing.text]⟩
  | false =>
    obtain ⟨g, hg, hspan⟩ := exists_trimLeft u
    refine ⟨⟨by simpa using h.trimLeft, fun _ => stops_trimLeft⟩, g, [], hg, by simp, ?_⟩
    simpa [Closing.text] using hspan

end ImportRepair
