import ImportRepair.Proofs.Import.RoundTrip

/-!
# The characters of a new line

A line that is written for a statement is put together from names, from the
marks and words of the layout, and from texts of the old line.  So a class of
characters that holds the layout and the old line holds the new line as well.
-/

namespace ImportRepair

open Text

variable {s : Statement} {b : Binding} {bs : List Binding} {form : Form}
variable {t : Text} {n : Int} {p : Char → Bool}

/-- A character of a name, of a word of the layout, or a mark that the renderer writes. -/
def isLayoutChar (c : Char) : Bool :=
  isNamePart c ||
    [' ', ',', '*', ':', '=', '(', ')', ';', '\x7b', '\x7d', '\'', '"'].contains c

/-- The class holds all names and marks that the renderer writes. -/
def HoldsLayout (p : Char → Bool) : Prop := ∀ c, isLayoutChar c = true → p c = true

theorem holdsLayout_ne {c : Char} (h : isLayoutChar c = false) : HoldsLayout (· != c) := by
  intro d hd
  refine bne_iff_ne.2 ?_
  rintro rfl
  rw [h] at hd
  cases hd

theorem HoldsLayout.allIn (hp : HoldsLayout p) (h : AllIn isLayoutChar t) : AllIn p t := h.mono hp

theorem IsName.layoutChars (h : IsName t) : AllIn isLayoutChar t :=
  h.allIn.mono fun c hc => by rw [isLayoutChar, hc, Bool.true_or]

/-! ### Bindings -/

/-- The names of a binding are names. -/
theorem names_of_admits (h : form.Admits bs) (hb : b ∈ bs) :
    IsName b.localName ∧ ∀ n ∈ b.imported, IsName n := by
  have hplain : ∀ kind typeOnly, b = { localName := b.localName, kind, typeOnly } →
      ∀ n ∈ b.imported, IsName n := by
    intro kind typeOnly heq n hn
    rw [heq] at hn
    cases hn
  have hitem : b.IsItem → IsName b.localName ∧ ∀ n ∈ b.imported, IsName n := by
    rintro ⟨hname, -, m, hm, himported⟩
    refine ⟨hname, fun n hn => ?_⟩
    rw [himported] at hn
    cases hn
    exact hm
  cases form with
  | es typeOnly =>
    rcases isDefault_or_isAlias_or_isItem h hb with hb | hb | hb
    · exact ⟨hb.1, hplain _ _ hb.2⟩
    · exact ⟨hb.1, hplain _ _ hb.2⟩
    · exact hitem hb.1
  | commonJs k =>
    rcases isWhole_or_isItem h hb with hb | hb
    · exact ⟨hb.1, hplain _ _ hb.2⟩
    · exact hitem hb.1

theorem layoutChars_renamed (h : ∀ n ∈ b.imported, IsName n) {n : Text}
    (hn : b.renamed? = some n) : AllIn isLayoutChar n :=
  (h n (Option.filter_eq_some_iff.1 hn).1).layoutChars

theorem layoutChars_text (h : IsName b.localName) (himported : ∀ n ∈ b.imported, IsName n) :
    AllIn isLayoutChar b.text := by
  unfold Binding.text
  split
  · refine allIn_append.2 ⟨?_, ?_⟩
    · split <;> decide
    · split
      · next n hn =>
        have hword : AllIn isLayoutChar " as ".toList := by decide
        exact allIn_append.2 ⟨allIn_append.2 ⟨layoutChars_renamed himported hn, hword⟩,
          h.layoutChars⟩
      · exact h.layoutChars
  · exact h.layoutChars

theorem layoutChars_destructured (h : IsName b.localName)
    (himported : ∀ n ∈ b.imported, IsName n) : AllIn isLayoutChar b.destructured := by
  unfold Binding.destructured
  split
  · next n hn =>
    have hmark : AllIn isLayoutChar ": ".toList := by decide
    exact allIn_append.2 ⟨allIn_append.2 ⟨layoutChars_renamed himported hn, hmark⟩, h.layoutChars⟩
  · exact h.layoutChars

theorem allIn_braced {ts : List Text} (hp : HoldsLayout p) (h : ∀ t ∈ ts, AllIn p t) :
    AllIn p (braced ts) := by
  have hmark : ∀ c, isLayoutChar c = true → p c = true := hp
  have hinner := allIn_intercalate (hmark ',' (by decide)) (hmark ' ' (by decide)) h
  simp only [braced, allIn_cons, allIn_append, allIn_nil, and_true]
  exact ⟨hmark _ (by decide), hmark _ (by decide), hinner, hmark _ (by decide), hmark _ (by decide)⟩

theorem layoutChars_bodyText (h : form.Admits bs) : AllIn isLayoutChar (form.bodyText bs) := by
  have hlayout : HoldsLayout isLayoutChar := fun _ hc => hc
  have hlocal : ∀ b ∈ bs, AllIn isLayoutChar b.localName :=
    fun b hb => (names_of_admits h hb).1.layoutChars
  have htext : ∀ b ∈ bs, ∀ typeOnly, AllIn isLayoutChar { b with typeOnly : Binding }.text :=
    fun b hb _ => layoutChars_text (names_of_admits h hb).1 (names_of_admits h hb).2
  cases form with
  | es typeOnly =>
    refine allIn_intercalate (by decide) (by decide) fun t ht => ?_
    simp only [List.mem_append, List.mem_map, List.mem_filter] at ht
    rcases ht with (⟨b, ⟨hb, -⟩, rfl⟩ | ⟨b, ⟨hb, -⟩, rfl⟩) | ht
    · exact hlocal b hb
    · exact allIn_append.2 ⟨by decide, hlocal b hb⟩
    · split at ht
      · cases ht
      · rw [List.mem_singleton.1 ht]
        refine allIn_braced hlayout fun u hu => ?_
        obtain ⟨b, hb, rfl⟩ := List.mem_map.1 hu
        exact htext b (List.mem_of_mem_filter hb) _
  | commonJs k =>
    simp only [Form.bodyText, targetText]
    split
    · next b hb => exact hlocal b (List.mem_of_find?_eq_some hb)
    · refine allIn_braced hlayout fun u hu => ?_
      obtain ⟨b, hb, rfl⟩ := List.mem_map.1 hu
      exact layoutChars_destructured (names_of_admits h hb).1 (names_of_admits h hb).2

namespace Statement

/-! ### Lines -/

/-- The class holds the texts that a statement hands on to the lines written in its layout. -/
structure LayoutIn (p : Char → Bool) (s : Statement) : Prop where
  indent : AllIn p s.indent
  specifier : AllIn p s.specifier
  trailing : AllIn p s.trailing

/-- **A class that holds the layout holds the written line.** -/
theorem LayoutIn.render (h : s.LayoutIn p) (hp : HoldsLayout p) (hbs : s.form.Admits bs) :
    AllIn p (s.render bs) := by
  have hword : ∀ {t : Text}, AllIn isLayoutChar t → AllIn p t := fun ht => hp.allIn ht
  have hquote : p s.quote.char = true := hp _ (by cases s.quote <;> decide)
  have hquoted : AllIn p s.quotedSpecifier :=
    allIn_cons.2 ⟨hquote, allIn_append.2 ⟨h.specifier, by simpa using hquote⟩⟩
  have hclosing : AllIn p s.closingText := by
    refine allIn_append.2 ⟨?_, h.trailing⟩
    split
    · exact hword (by decide)
    · exact allIn_nil
  rw [render_eq]
  refine allIn_append.2 ⟨?_, allIn_append.2 ⟨hword (layoutChars_bodyText hbs), ?_⟩⟩
  · unfold openingText
    split
    · exact allIn_append.2 ⟨h.indent, hword (by decide)⟩
    · exact allIn_append.2 ⟨h.indent, hword (by decide)⟩
    · next k _ => exact allIn_append.2 ⟨h.indent, hword (by cases k <;> decide)⟩
  · unfold endingText
    split
    · exact allIn_append.2 ⟨hword (by decide), allIn_append.2 ⟨hquoted, hclosing⟩⟩
    · exact allIn_append.2 ⟨hword (by decide), allIn_append.2 ⟨hquoted,
        allIn_append.2 ⟨hword (by decide), hclosing⟩⟩⟩

/-- The layout of a recognised line stands in the line. -/
theorem StandsIn.layoutIn {before c after : Text} {o : Origin} (h : s.StandsIn before c after o)
    (hraw : AllIn p s.raw) : s.LayoutIn p := by
  obtain ⟨-, -, -, u, v, w, -, -, -, hafter⟩ := Form.ending?_pieces h.ending
  have hspecifier : s.specifier = o.specifier := by rw [h.eq_ofParts]; rfl
  have htrailing : s.trailing = o.closing.trailing := by rw [h.eq_ofParts]; rfl
  obtain ⟨rest, hrest⟩ := h.opening.exists_indent
  rw [h.raw, hrest, hafter, ← hspecifier, Closing.text, ← htrailing] at hraw
  simp only [allIn_append, allIn_cons] at hraw
  obtain ⟨⟨hindent, -⟩, -, -, ⟨-, hmodule, -⟩, -, ⟨-, hcomment⟩, -⟩ := hraw
  exact ⟨hindent, hmodule, hcomment⟩

theorem isOnOneLine_iff : s.IsOnOneLine ↔ s.LayoutIn (· != '\n') := by
  constructor
  · intro h
    exact ⟨allIn_ne_iff.2 h.indent, allIn_ne_iff.2 h.specifier, allIn_ne_iff.2 h.trailing⟩
  · intro h
    exact ⟨allIn_ne_iff.1 h.specifier, allIn_ne_iff.1 h.indent, allIn_ne_iff.1 h.trailing⟩

/-- A written line is one line. -/
theorem not_mem_render (h : s.IsOnOneLine) (hbs : s.form.Admits bs) : '\n' ∉ s.render bs :=
  allIn_ne_iff.1 ((isOnOneLine_iff.1 h).render (holdsLayout_ne (by decide)) hbs)

theorem StandsIn.isOnOneLine {before c after : Text} {o : Origin}
    (h : s.StandsIn before c after o) (hline : '\n' ∉ s.raw) : s.IsOnOneLine :=
  isOnOneLine_iff.2 (h.layoutIn (allIn_ne_iff.2 hline))

theorem isOnOneLine_of_ofLine? (h : ofLine? t n = some s) (hline : '\n' ∉ t) :
    '\n' ∉ s.raw ∧ s.IsOnOneLine := by
  obtain ⟨hraw, -, before, c, after, o, hparts⟩ := ofBare?_cases (ofLine?_eq ▸ h)
  have hbare : '\n' ∉ s.raw := by
    rw [hraw]
    exact not_mem_bareLine hline
  exact ⟨hbare, hparts.isOnOneLine hbare⟩

end Statement

end ImportRepair
