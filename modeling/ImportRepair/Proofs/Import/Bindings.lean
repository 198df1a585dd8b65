import ImportRepair.Import.Printer
import ImportRepair.Proofs.Import.Pieces
import ImportRepair.Proofs.Text.Items

/-!
# The bindings that a form of statement can hold

An `import` clause holds at most one default name, at most one namespace alias
and named bindings, and never an alias next to named bindings.  A declaration
by `require` holds one whole module or named values.  `Form.Admits` says this of
a list of bindings; every reader of bindings returns such a list, and every
list of this shape is read back from the form in which it is written.
-/

namespace ImportRepair

open Text

/-! ### Shapes of bindings -/

namespace Binding

/-- A default name of a clause, which shares the type flag of the clause. -/
def IsDefault (typeOnly : Bool) (b : Binding) : Prop :=
  IsName b.localName ∧ b = { localName := b.localName, kind := .defaultName, typeOnly }

/-- A namespace alias of a clause, which shares the type flag of the clause. -/
def IsAlias (typeOnly : Bool) (b : Binding) : Prop :=
  IsName b.localName ∧ b = { localName := b.localName, kind := .namespaceAlias, typeOnly }

/-- The name of a whole `require`. -/
def IsWhole (b : Binding) : Prop :=
  IsName b.localName ∧ b = { localName := b.localName, kind := .wholeRequire }

/-- A named binding. -/
def IsItem (b : Binding) : Prop :=
  IsName b.localName ∧ b.kind = .named ∧ ∃ n, IsName n ∧ b.imported = some n

theorem IsDefault.kind_eq {b : Binding} {typeOnly : Bool} (h : b.IsDefault typeOnly) :
    b.kind = .defaultName := by rw [h.2]

theorem IsAlias.kind_eq {b : Binding} {typeOnly : Bool} (h : b.IsAlias typeOnly) :
    b.kind = .namespaceAlias := by rw [h.2]

theorem IsWhole.kind_eq {b : Binding} (h : b.IsWhole) : b.kind = .wholeRequire := by rw [h.2]

theorem IsItem.eq_mk {b : Binding} (h : IsItem b) :
    ∃ n, IsName n ∧
      b = { localName := b.localName, imported := some n, typeOnly := b.typeOnly } := by
  obtain ⟨-, hkind, n, hn, himported⟩ := h
  refine ⟨n, hn, ?_⟩
  cases b
  cases hkind
  cases himported
  rfl

end Binding

/-- The bindings of a clause by their kind. -/
structure ClauseBindings (typeOnly : Bool) (defaults aliases items : List Binding) : Prop where
  isDefault : ∀ b ∈ defaults, b.IsDefault typeOnly
  defaults_le : defaults.length ≤ 1
  isAlias : ∀ b ∈ aliases, b.IsAlias typeOnly
  aliases_le : aliases.length ≤ 1
  isItem : ∀ b ∈ items, b.IsItem ∧ (typeOnly = true → b.typeOnly = true)
  apart : aliases = [] ∨ items = []

/-- A statement of this form can hold these bindings. -/
def Form.Admits : Form → List Binding → Prop
  | .es typeOnly, bs => ∃ defaults aliases items,
      bs = defaults ++ aliases ++ items ∧ ClauseBindings typeOnly defaults aliases items
  | .commonJs _, bs => (∃ b, b.IsWhole ∧ bs = [b]) ∨ ∀ b ∈ bs, b.IsItem ∧ b.typeOnly = false

/-- Bindings can be left out. -/
theorem Form.Admits.filter {f : Form} {bs : List Binding} (h : f.Admits bs) (p : Binding → Bool) :
    f.Admits (bs.filter p) := by
  cases f with
  | es typeOnly =>
    obtain ⟨defaults, aliases, items, rfl, h⟩ := h
    refine ⟨defaults.filter p, aliases.filter p, items.filter p, by simp, ?_⟩
    exact {
      isDefault := fun b hb => h.isDefault b (List.mem_of_mem_filter hb)
      defaults_le := (List.length_filter_le ..).trans h.defaults_le
      isAlias := fun b hb => h.isAlias b (List.mem_of_mem_filter hb)
      aliases_le := (List.length_filter_le ..).trans h.aliases_le
      isItem := fun b hb => h.isItem b (List.mem_of_mem_filter hb)
      apart := h.apart.imp (by simp +contextual) (by simp +contextual) }
  | commonJs k =>
    rcases h with ⟨b, hb, rfl⟩ | h
    · by_cases hp : p b
      · exact Or.inl ⟨b, hb, by simp [hp]⟩
      · exact Or.inr (by simp [hp])
    · exact Or.inr fun b hb => h b (List.mem_of_mem_filter hb)

theorem isDefault_or_isAlias_or_isItem {typeOnly : Bool} {bs : List Binding} {b : Binding}
    (h : (Form.es typeOnly).Admits bs) (hb : b ∈ bs) :
    b.IsDefault typeOnly ∨ b.IsAlias typeOnly ∨
      (b.IsItem ∧ (typeOnly = true → b.typeOnly = true)) := by
  obtain ⟨defaults, aliases, items, rfl, h⟩ := h
  rcases List.mem_append.1 hb with hb | hb
  · rcases List.mem_append.1 hb with hb | hb
    · exact Or.inl (h.isDefault b hb)
    · exact Or.inr (Or.inl (h.isAlias b hb))
  · exact Or.inr (Or.inr (h.isItem b hb))

theorem isWhole_or_isItem {k : Keyword} {bs : List Binding} {b : Binding}
    (h : (Form.commonJs k).Admits bs) (hb : b ∈ bs) :
    b.IsWhole ∨ (b.IsItem ∧ b.typeOnly = false) := by
  rcases h with ⟨b', hb', rfl⟩ | h
  · rw [List.mem_singleton.1 hb]
    exact Or.inl hb'
  · exact Or.inr (h b hb)

/-! ### Named bindings of a clause -/

variable {t : Text} {b : Binding} {typeOnly : Bool}

theorem plainItem?_eq_some (h : plainItem? typeOnly t = some b) :
    ∃ n, IsName n ∧ IsName b.localName ∧
      b = { localName := b.localName, imported := some n, typeOnly } ∧
      ∃ g g', AllIn isBlank g ∧ AllIn isBlank g' ∧
        (t = n ∨ t = n ++ (g ++ ("as".toList ++ (g' ++ b.localName)))) := by
  simp only [plainItem?, bind, Option.bind_eq_some_iff] at h
  obtain ⟨⟨n, r⟩, hn, h⟩ := h
  obtain ⟨rfl, hname, -⟩ := name?_eq_some_iff.1 hn
  split at h
  · next hr =>
    cases h
    have hr : r = [] := List.isEmpty_iff.1 hr
    exact ⟨n, hname, hname, rfl, [], [], by simp, by simp, Or.inl (by simp [hr])⟩
  · simp only [Option.bind_eq_some_iff] at h
    obtain ⟨u, hu, v, hv, l, hl, h⟩ := h
    cases h
    obtain ⟨g, -, hg, -, rfl⟩ := afterBlanks?_eq_some_iff.1 hu
    obtain ⟨g', -, hg', -, rfl⟩ := afterWord?_eq_some_iff.1 hv
    obtain ⟨rfl, hlocal⟩ := onlyName?_eq_some_iff.1 hl
    exact ⟨n, hname, hlocal, rfl, g, g', hg, hg', Or.inr rfl⟩

theorem plainItem?_name {n : Text} (hn : IsName n) :
    plainItem? typeOnly n = some { localName := n, imported := some n, typeOnly } := by
  simp [plainItem?, show name? n = some (n, []) from hn]

theorem stops_space {p : Char → Bool} {t : Text} (hp : p ' ' = false) : Stops p (' ' :: t) :=
  stops_cons.2 hp

theorem plainItem?_renamed {n l : Text} (hn : IsName n) (hl : IsName l) :
    plainItem? typeOnly (n ++ " as ".toList ++ l) =
      some { localName := l, imported := some n, typeOnly } := by
  have hspace : AllIn isBlank [' '] := by simp; decide
  have hname : name? (n ++ " as ".toList ++ l) = some (n, ' ' :: ("as".toList ++ ([' '] ++ l))) :=
    name?_eq_some_iff.2 ⟨by simp, hn, stops_space (by decide)⟩
  have hblanks : afterBlanks? (' ' :: ("as".toList ++ ([' '] ++ l))) =
      some ("as".toList ++ ([' '] ++ l)) :=
    afterBlanks?_eq_some_iff.2 ⟨[' '], by simp, hspace, stops_cons.2 (by decide), rfl⟩
  have hword : afterWord? "as".toList ("as".toList ++ ([' '] ++ l)) = some l :=
    afterWord?_eq_some_iff.2 ⟨[' '], by simp, hspace, hl.isTrimmed.head, rfl⟩
  have honly : onlyName? l = some l := onlyName?_eq_some_iff.2 ⟨rfl, hl⟩
  simp only [plainItem?, bind, hname, Option.bind_some, List.isEmpty_cons, Bool.false_eq_true,
    if_false, hblanks, hword, honly]

/-- A name is not a word in front of something else. -/
theorem afterWord?_of_isName {w n : Text} (hn : IsName n) : afterWord? w n = none := by
  rw [Option.eq_none_iff_forall_ne_some]
  intro r h
  obtain ⟨g, hne, hg, -, rfl⟩ := afterWord?_eq_some_iff.1 h
  obtain ⟨c, g, rfl⟩ := List.exists_cons_of_ne_nil hne
  have hpart := hn.allIn c (by simp)
  simp [isBlank_of_isNamePart hpart] at hg

/-- The word `type` in front of a renamed export marks no type: what follows is no item. -/
theorem plainItem?_afterWord_renamed {n l : Text} (hn : IsName n) (hl : IsName l) :
    (afterWord? "type".toList (n ++ " as ".toList ++ l)).bind (plainItem? true) = none := by
  rw [Option.bind_eq_none_iff]
  intro r h
  obtain ⟨g, hne, hg, hr, heq⟩ := afterWord?_eq_some_iff.1 h
  rw [List.append_assoc] at heq
  have hstop : Stops isNamePart (g ++ r) :=
    stops_append (hg.stops fun _ => isNamePart_of_isBlank) hne
  obtain ⟨-, hrest⟩ := run_unique heq hn.allIn (stops_space (by decide))
    (by simp; decide) hstop
  obtain ⟨-, rfl⟩ := run_unique (w := [' ']) (r := "as ".toList ++ l) hrest
    (by simp; decide) (stops_cons.2 (by decide)) hg hr
  have hname : name? ("as ".toList ++ l) = some ("as".toList, ' ' :: l) :=
    name?_eq_some_iff.2 ⟨rfl, by decide, stops_space (by decide)⟩
  have hblanks : afterBlanks? (' ' :: l) = some l :=
    afterBlanks?_eq_some_iff.2 ⟨[' '], by simp, by simp; decide, hl.isTrimmed.head, rfl⟩
  simp only [plainItem?, bind, hname, Option.bind_some, List.isEmpty_cons, Bool.false_eq_true,
    if_false, hblanks, afterWord?_of_isName hl, Option.bind_none]

theorem namedItem?_eq_some (h : namedItem? typeOnly t = some b) :
    b.IsItem ∧ (typeOnly = true → b.typeOnly = true) ∧ AllIn isStatementChar t := by
  have hplain : ∀ {flag u}, plainItem? flag u = some b →
      b.IsItem ∧ b.typeOnly = flag ∧ AllIn isStatementChar u := by
    intro flag u hu
    obtain ⟨n, hn, hl, hb, g, g', hg, hg', htext⟩ := plainItem?_eq_some hu
    refine ⟨⟨hl, by rw [hb], n, hn, by rw [hb]⟩, by rw [hb], ?_⟩
    rcases htext with rfl | rfl
    · exact hn.statementChars
    · have has : IsName "as".toList := by decide
      simp only [allIn_append]
      exact ⟨hn.statementChars, statementChars_of_blank hg, has.statementChars,
        statementChars_of_blank hg', hl.statementChars⟩
  unfold namedItem? at h
  cases htyped : (afterWord? "type".toList t).bind (plainItem? true) with
  | some b' =>
    rw [htyped] at h
    cases h
    obtain ⟨u, hu, hb⟩ := Option.bind_eq_some_iff.1 htyped
    obtain ⟨g, -, hg, -, rfl⟩ := afterWord?_eq_some_iff.1 hu
    obtain ⟨hitem, hflag, hchars⟩ := hplain hb
    refine ⟨hitem, fun _ => hflag, ?_⟩
    have htype : IsName "type".toList := by decide
    simp only [allIn_append]
    exact ⟨htype.statementChars, statementChars_of_blank hg, hchars⟩
  | none =>
    rw [htyped] at h
    obtain ⟨hitem, hflag, hchars⟩ := hplain h
    exact ⟨hitem, fun ht => hflag.trans ht, hchars⟩

/-- A named binding as it is written in a clause with the given type flag. -/
def Binding.itemText (typeOnly : Bool) (b : Binding) : Text :=
  { b with typeOnly := b.typeOnly && !typeOnly : Binding }.text

/-- The text of an item, apart from the word `type`: the local name, alone or behind the name of
    the export. -/
theorem Binding.IsItem.itemText_eq (typeOnly : Bool) (h : b.IsItem) : ∃ n, IsName n ∧
    b = { localName := b.localName, imported := some n, typeOnly := b.typeOnly } ∧
    b.itemText typeOnly = (if b.typeOnly && !typeOnly then "type ".toList else []) ++
      (if n = b.localName then b.localName else n ++ " as ".toList ++ b.localName) := by
  obtain ⟨n, hn, hb⟩ := h.eq_mk
  refine ⟨n, hn, hb, ?_⟩
  rw [hb]
  by_cases hsame : n = b.localName
  · simp [Binding.itemText, Binding.text, Binding.renamed?, Option.filter, hsame]
  · simp [Binding.itemText, Binding.text, Binding.renamed?, Option.filter, hsame, hn.ne_nil]

theorem namedItem?_itemText (h : b.IsItem) (hflag : typeOnly = true → b.typeOnly = true) :
    namedItem? typeOnly (b.itemText typeOnly) = some b := by
  obtain ⟨n, hn, hb, htext⟩ := h.itemText_eq typeOnly
  have hl : IsName b.localName := h.1
  have hplain : ∀ flag, plainItem? flag
      (if n = b.localName then b.localName else n ++ " as ".toList ++ b.localName) =
        some { localName := b.localName, imported := some n, typeOnly := flag } := by
    intro flag
    split
    · next hsame => rw [hsame, plainItem?_name hl]
    · exact plainItem?_renamed hn hl
  rw [htext]
  by_cases hmarked : (b.typeOnly && !typeOnly) = true
  · -- the word `type` is written and read
    have hstop : Stops isBlank
        (if n = b.localName then b.localName else n ++ " as ".toList ++ b.localName) := by
      split
      · exact hl.isTrimmed.head
      · rw [List.append_assoc]; exact hn.stops fun _ => isBlank_of_isNamePart
    have hword : afterWord? "type".toList ("type ".toList ++
        (if n = b.localName then b.localName else n ++ " as ".toList ++ b.localName)) =
        some (if n = b.localName then b.localName else n ++ " as ".toList ++ b.localName) :=
      afterWord?_eq_some_iff.2 ⟨[' '], by simp, by simp; decide, hstop, rfl⟩
    have hflagTrue : b.typeOnly = true := by simp at hmarked; exact hmarked.1
    rw [if_pos hmarked, namedItem?, hword, Option.bind_some, hplain, ← hflagTrue, ← hb]
    rfl
  · have hnone : (afterWord? "type".toList
        (if n = b.localName then b.localName else n ++ " as ".toList ++ b.localName)).bind
          (plainItem? true) = none := by
      split
      · rw [afterWord?_of_isName hl]; rfl
      · exact plainItem?_afterWord_renamed hn hl
    have hflagEq : b.typeOnly = typeOnly := by
      cases htype : typeOnly with
      | true => exact hflag htype
      | false => simpa [htype] using hmarked
    rw [if_neg hmarked, List.nil_append, namedItem?, hnone, hplain, ← hflagEq, ← hb]
    rfl

end ImportRepair
