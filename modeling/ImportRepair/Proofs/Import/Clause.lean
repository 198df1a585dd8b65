import ImportRepair.Proofs.Import.Bindings
import Mathlib.Data.List.Forall2

/-!
# Clauses and targets

A clause is an optional default name with its comma, and a group: nothing, a
namespace alias, or items between braces.  Splitting a clause into these two
parts is what lets a group be exchanged for another one: what is read from the
part in front does not depend on the group.
-/

namespace ImportRepair

open Text

variable {t c : Text} {b : Binding} {bs : List Binding} {typeOnly : Bool}

/-! ### Lists of items -/

theorem mapM_eq_some_iff {α β : Type} {f : α → Option β} {xs : List α} {ys : List β} :
    xs.mapM f = some ys ↔ List.Forall₂ (fun x y => f x = some y) xs ys := by
  induction xs generalizing ys with
  | nil => simp [eq_comm]
  | cons x xs ih =>
    rw [List.mapM_cons, List.forall₂_cons_left_iff]
    simp only [bind, Option.bind_eq_some_iff, pure, Option.some.injEq]
    constructor
    · rintro ⟨y, hy, zs, hzs, rfl⟩
      exact ⟨y, zs, hy, ih.1 hzs, rfl⟩
    · rintro ⟨y, zs, hy, hzs, rfl⟩
      exact ⟨y, hy, zs, ih.2 hzs, rfl⟩

theorem mem_of_mapM_eq_some {α β : Type} {f : α → Option β} {xs : List α} {ys : List β}
    (h : xs.mapM f = some ys) :
    (∀ x ∈ xs, ∃ y ∈ ys, f x = some y) ∧ ∀ y ∈ ys, ∃ x ∈ xs, f x = some y := by
  induction mapM_eq_some_iff.1 h with
  | nil => simp
  | @cons x y xs ys hxy hall ih =>
    obtain ⟨hleft, hright⟩ := ih (mapM_eq_some_iff.2 hall)
    constructor
    · intro u hu
      rcases List.mem_cons.1 hu with rfl | hu
      · exact ⟨y, by simp, hxy⟩
      · obtain ⟨v, hv, huv⟩ := hleft u hu
        exact ⟨v, by simp [hv], huv⟩
    · intro v hv
      rcases List.mem_cons.1 hv with rfl | hv
      · exact ⟨x, by simp, hxy⟩
      · obtain ⟨u, hu, huv⟩ := hright v hv
        exact ⟨u, by simp [hu], huv⟩

theorem mapM_map_eq_some {α β : Type} {f : α → Option β} {g : β → α} {ys : List β}
    (h : ∀ y ∈ ys, f (g y) = some y) : (ys.map g).mapM f = some ys := by
  induction ys with
  | nil => rfl
  | cons y ys ih =>
    rw [List.map_cons, List.mapM_cons, h y (by simp), ih fun y hy => h y (by simp [hy])]
    rfl

/-- A character of an item: it ends no item, no braces, no module specifier and no line. -/
def isItemChar (c : Char) : Bool := isSpecifierChar c && isNoBrace c && c != ',' && c != '\n'

theorem isItemChar_of_isNamePart {c : Char} (h : isNamePart c = true) : isItemChar c = true := by
  simp [isItemChar, isSpecifierChar_of_isNamePart h, isNoBrace_of_isNamePart h,
    ne_of_isNamePart h (d := ',') (by decide), ne_of_isNamePart h (d := '\n') (by decide)]

/-- A text that can stand between two commas. -/
structure IsItemText (t : Text) : Prop where
  isTrimmed : IsTrimmed t
  chars : AllIn isItemChar t

theorem IsItemText.not_mem_comma (h : IsItemText t) : ',' ∉ t :=
  fun hmem => absurd (h.chars _ hmem) (by decide)

theorem IsName.isItemText (h : IsName t) : IsItemText t :=
  ⟨h.isTrimmed, h.allIn.mono fun _ => isItemChar_of_isNamePart⟩

/-- Two item texts around a separator that may stand in an item. -/
theorem IsItemText.append {u w : Text} (ht : IsItemText t) (hw : AllIn isItemChar w)
    (hu : IsItemText u) : IsItemText (t ++ w ++ u) where
  isTrimmed := {
    ne_nil := by simp [ht.isTrimmed.ne_nil]
    head := stops_append (stops_append ht.isTrimmed.head ht.isTrimmed.ne_nil)
      (by simp [ht.isTrimmed.ne_nil])
    last := by
      intro c hc
      obtain ⟨d, v, rfl⟩ := List.exists_cons_of_ne_nil hu.isTrimmed.ne_nil
      exact hu.isTrimmed.last c (by simpa [List.getLast?_append] using hc) }
  chars := by simp only [allIn_append]; exact ⟨⟨ht.chars, hw⟩, hu.chars⟩

theorem Binding.IsItem.isItemText (h : b.IsItem) : IsItemText (b.itemText typeOnly) := by
  obtain ⟨n, hn, -, htext⟩ := h.itemText_eq typeOnly
  have hrest : IsItemText
      (if n = b.localName then b.localName else n ++ " as ".toList ++ b.localName) := by
    split
    · exact h.1.isItemText
    · exact hn.isItemText.append (by simp; decide) h.1.isItemText
  rw [htext]
  split
  · have hword : IsName "type".toList := by decide
    simpa using hword.isItemText.append (w := [' ']) (by simp; decide) hrest
  · simpa using hrest

/-- Items between braces are read back. -/
theorem braces?_braced {ts : List Text} (h : ∀ t ∈ ts, IsItemText t) (r : Text) :
    braces? (braced ts ++ r) = some (' ' :: ([',', ' '].intercalate ts ++ [' ']), r) := by
  have hitems := items_intercalate fun t ht => ⟨(h t ht).isTrimmed, (h t ht).not_mem_comma⟩
  have hbody : AllIn isNoBrace (' ' :: ([',', ' '].intercalate ts ++ [' '])) := by
    refine allIn_of_items (by decide) (fun _ => isNoBrace_of_isBlank) ?_
    rw [hitems]
    intro t ht
    exact (h t ht).chars.mono fun c hc => by simp only [isItemChar, Bool.and_eq_true] at hc; tauto
  exact braces?_eq_some_iff.2 ⟨hbody, by simp [braced]⟩

/-! ### Groups -/

/-- The namespace alias of a clause. -/
def aliasOf (typeOnly : Bool) (n : Text) : Binding :=
  { localName := n, kind := .namespaceAlias, typeOnly }

/-- The default name of a clause. -/
def defaultOf (typeOnly : Bool) (n : Text) : Binding :=
  { localName := n, kind := .defaultName, typeOnly }

theorem clauseGroup?_braces {body : Text} (h : AllIn isNoBrace body) :
    clauseGroup? typeOnly ('\x7b' :: (body ++ ['\x7d'])) =
      (items body).mapM (namedItem? typeOnly) := by
  have hread : braces? ('\x7b' :: (body ++ ['\x7d'])) = some (body, []) :=
    braces?_eq_some_iff.2 ⟨h, rfl⟩
  simp [clauseGroup?, hread]

theorem clauseGroup?_alias {n g g' : Text} (hn : IsName n) (hg : AllIn isBlank g)
    (hne : g' ≠ []) (hg' : AllIn isBlank g') :
    clauseGroup? typeOnly ('*' :: (g ++ ("as".toList ++ (g' ++ n)))) =
      some [aliasOf typeOnly n] := by
  have hleft : trimLeft (g ++ ("as".toList ++ (g' ++ n))) = "as".toList ++ (g' ++ n) :=
    trimLeft_run hg (stops_cons.2 (by decide))
  have hword : afterWord? "as".toList ("as".toList ++ (g' ++ n)) = some n :=
    afterWord?_eq_some_iff.2 ⟨g', hne, hg', hn.isTrimmed.head, rfl⟩
  have honly : onlyName? n = some n := onlyName?_eq_some_iff.2 ⟨rfl, hn⟩
  simp only [clauseGroup?, bind, hleft, hword, Option.bind_some, honly, aliasOf]

/-- The three kinds of groups. -/
theorem clauseGroup?_cases (h : clauseGroup? typeOnly t = some bs) :
    (t = [] ∧ bs = []) ∨
    (∃ n g g', IsName n ∧ AllIn isBlank g ∧ AllIn isBlank g' ∧
      t = '*' :: (g ++ ("as".toList ++ (g' ++ n))) ∧ bs = [aliasOf typeOnly n]) ∨
    (∃ body, AllIn isNoBrace body ∧ t = '\x7b' :: (body ++ ['\x7d']) ∧
      (items body).mapM (namedItem? typeOnly) = some bs) := by
  unfold clauseGroup? at h
  split at h
  · cases h
    exact Or.inl ⟨rfl, rfl⟩
  · next r =>
    simp only [bind, Option.bind_eq_some_iff] at h
    obtain ⟨u, hu, n, hn, h⟩ := h
    cases h
    obtain ⟨g, hg, hr⟩ := exists_trimLeft r
    obtain ⟨g', -, hg', -, hu⟩ := afterWord?_eq_some_iff.1 hu
    obtain ⟨rfl, hname⟩ := onlyName?_eq_some_iff.1 hn
    exact Or.inr (Or.inl ⟨u, g, g', hname, hg, hg', by rw [← hu, ← hr], rfl⟩)
  · simp only [bind, Option.bind_eq_some_iff] at h
    obtain ⟨⟨body, rest⟩, hbraces, h⟩ := h
    split at h
    · next heq =>
      cases heq
      obtain ⟨hbody, rfl⟩ := braces?_eq_some_iff.1 hbraces
      exact Or.inr (Or.inr ⟨_, hbody, rfl, h⟩)
    · simp at h

/-- The start of a group is no white space and no start of a name. -/
theorem stops_of_clauseGroup? (h : clauseGroup? typeOnly t = some bs) :
    Stops isBlank t ∧ Stops isNameStart t := by
  rcases clauseGroup?_cases h with ⟨rfl, -⟩ | ⟨n, g, g', -, -, -, rfl, -⟩ | ⟨body, -, rfl, -⟩
  · simp
  · exact ⟨stops_cons.2 (by decide), stops_cons.2 (by decide)⟩
  · exact ⟨stops_cons.2 (by decide), stops_cons.2 (by decide)⟩

theorem isItem_of_mapM {ts : List Text} (h : ts.mapM (namedItem? typeOnly) = some bs) :
    (∀ b ∈ bs, b.IsItem ∧ (typeOnly = true → b.typeOnly = true)) ∧
      ∀ t ∈ ts, AllIn isStatementChar t := by
  obtain ⟨hleft, hright⟩ := mem_of_mapM_eq_some h
  constructor
  · intro b hb
    obtain ⟨t, -, ht⟩ := hright b hb
    obtain ⟨hitem, hflag, -⟩ := namedItem?_eq_some ht
    exact ⟨hitem, hflag⟩
  · intro t ht
    obtain ⟨b, -, hb⟩ := hleft t ht
    exact (namedItem?_eq_some hb).2.2

/-! ### The part in front of a group -/

/-- What stands in front of the group of a clause: nothing, or a default name and a comma. -/
inductive ClauseHead (typeOnly : Bool) : Text → List Binding → Prop
  | nothing : ClauseHead typeOnly [] []
  | default {n g g' : Text} (hn : IsName n) (hg : AllIn isBlank g) (hg' : AllIn isBlank g') :
      ClauseHead typeOnly (n ++ (g ++ ',' :: g')) [defaultOf typeOnly n]

namespace ClauseHead

variable {head group : Text} {defaults : List Binding}

/-- The group behind a head is read on its own. -/
theorem clause?_append (h : ClauseHead typeOnly head defaults) (hblank : Stops isBlank group)
    (hstart : Stops isNameStart group) (hne : head = [] → group ≠ []) :
    clause? typeOnly (head ++ group) =
      (clauseGroup? typeOnly group).map (defaults ++ ·) := by
  cases h with
  | nothing =>
    obtain ⟨d, u, rfl⟩ := List.exists_cons_of_ne_nil (hne rfl)
    simp [clause?, name?_of_stops hstart]
  | @default n g g' hn hg hg' =>
    have hstop : Stops isNamePart (g ++ ',' :: (g' ++ group)) := by
      cases g with
      | nil => exact stops_cons.2 (by decide)
      | cons d g => exact stops_cons.2 (isNamePart_of_isBlank (allIn_cons.1 hg).1)
    have hname : name? (n ++ (g ++ ',' :: g') ++ group) = some (n, g ++ ',' :: (g' ++ group)) :=
      name?_eq_some_iff.2 ⟨by simp, hn, hstop⟩
    have hcomma : trimLeft (g ++ ',' :: (g' ++ group)) = ',' :: (g' ++ group) :=
      trimLeft_run hg (stops_cons.2 (by decide))
    have hgroup : trimLeft (g' ++ group) = group := trimLeft_run hg' hblank
    simp only [clause?, hname, hcomma, hgroup, defaultOf, List.singleton_append]

theorem isDefault (h : ClauseHead typeOnly head defaults) :
    (∀ b ∈ defaults, b.IsDefault typeOnly) ∧ defaults.length ≤ 1 := by
  cases h with
  | nothing => simp
  | default hn hg hg' => simpa [defaultOf, Binding.IsDefault] using hn

theorem chars (h : ClauseHead typeOnly head defaults) : AllIn isStatementChar head := by
  cases h with
  | nothing => exact allIn_nil
  | default hn hg hg' =>
    simp only [allIn_append, allIn_cons]
    exact ⟨hn.statementChars, statementChars_of_blank hg, by decide, statementChars_of_blank hg'⟩

end ClauseHead

/-- The two kinds of clauses. -/
theorem clause?_cases (h : clause? typeOnly c = some bs) :
    (∃ n g, IsName n ∧ AllIn isBlank g ∧ c = n ++ g ∧ bs = [defaultOf typeOnly n]) ∨
    ∃ head defaults group bs', ClauseHead typeOnly head defaults ∧ c = head ++ group ∧
      clauseGroup? typeOnly group = some bs' ∧ bs = defaults ++ bs' := by
  unfold clause? at h
  split at h
  · split at h
    · simp at h
    · exact Or.inr ⟨[], [], c, bs, .nothing, rfl, h, rfl⟩
  · next n r hn =>
    obtain ⟨rfl, hname, -⟩ := name?_eq_some_iff.1 hn
    obtain ⟨g, hg, hr⟩ := exists_trimLeft r
    split at h
    · next hnil =>
      cases h
      rw [hnil, List.append_nil] at hr
      exact Or.inl ⟨n, r, hname, hr ▸ hg, rfl, rfl⟩
    · next u hcomma =>
      obtain ⟨bs', hbs', rfl⟩ := Option.map_eq_some_iff.1 h
      obtain ⟨g', hg', hu⟩ := exists_trimLeft u
      refine Or.inr ⟨_, _, trimLeft u, bs', .default hname hg hg', ?_, hbs', rfl⟩
      rw [hcomma] at hr
      simp [hr, ← hu]
    · simp at h

/-- A clause with a named binding ends in braces, which hold the items of its named bindings. -/
theorem clause?_cases_of_named (h : clause? typeOnly c = some bs)
    (hnamed : ∃ b ∈ bs, b.kind = .named) :
    ∃ head defaults body bs', ClauseHead typeOnly head defaults ∧
      c = head ++ '\x7b' :: (body ++ ['\x7d']) ∧ AllIn isNoBrace body ∧
      (items body).mapM (namedItem? typeOnly) = some bs' ∧ bs = defaults ++ bs' := by
  obtain ⟨b, hb, hkind⟩ := hnamed
  rcases clause?_cases h with
    ⟨n, g, -, -, -, rfl⟩ | ⟨head, defaults, group, bs', hhead, rfl, hgroup, rfl⟩
  · rw [List.mem_singleton.1 hb] at hkind
    cases hkind
  have hitem : b ∈ bs' := by
    rcases List.mem_append.1 hb with hb | hb
    · rw [(hhead.isDefault.1 b hb).kind_eq] at hkind
      cases hkind
    · exact hb
  rcases clauseGroup?_cases hgroup with
    ⟨-, rfl⟩ | ⟨n, g, g', -, -, -, -, rfl⟩ | ⟨body, hbody, rfl, hitems⟩
  · simp at hitem
  · rw [List.mem_singleton.1 hitem] at hkind
    cases hkind
  · exact ⟨head, defaults, body, bs', hhead, rfl, hbody, hitems, rfl⟩

/-- The bindings of a clause are ones that a clause can hold. -/
theorem admits_of_clause? (h : clause? typeOnly c = some bs) : (Form.es typeOnly).Admits bs := by
  rcases clause?_cases h with
    ⟨n, g, hn, hg, rfl, rfl⟩ | ⟨head, ds, group, bs', hhead, rfl, hgroup, rfl⟩
  · refine ⟨[defaultOf typeOnly n], [], [], by simp, ?_⟩
    exact ⟨by simpa [defaultOf, Binding.IsDefault] using hn, by simp, by simp, by simp, by simp,
      by simp⟩
  · obtain ⟨hdefault, hle⟩ := hhead.isDefault
    rcases clauseGroup?_cases hgroup with
      ⟨rfl, rfl⟩ | ⟨n, g, g', hn, hg, hg', rfl, rfl⟩ | ⟨body, hbody, rfl, hitems⟩
    · exact ⟨ds, [], [], by simp, hdefault, hle, by simp, by simp, by simp, by simp⟩
    · refine ⟨ds, [aliasOf typeOnly n], [], by simp, hdefault, hle, ?_, by simp, by simp, by simp⟩
      simpa [aliasOf, Binding.IsAlias] using hn
    · obtain ⟨hitem, -⟩ := isItem_of_mapM hitems
      exact ⟨ds, [], bs', by simp, hdefault, hle, by simp, by simp, hitem, by simp⟩

/-! ### The characters of a body -/

/-- A text without quotation marks and comments that may end in a pair of braces. -/
inductive IsBody : Text → Prop
  | plain {c : Text} (h : AllIn isStatementChar c) : IsBody c
  | braced {head body : Text} (hhead : AllIn isStatementChar head)
      (hbody : AllIn isStatementChar body) : IsBody (head ++ '\x7b' :: (body ++ ['\x7d']))

theorem IsBody.allIn {p : Char → Bool} (h : IsBody c)
    (hp : ∀ d, isStatementChar d = true → p d = true) (hopen : p '\x7b' = true)
    (hclose : p '\x7d' = true) : AllIn p c := by
  cases h with
  | plain h => exact h.mono hp
  | braced hhead hbody =>
    simp only [allIn_append, allIn_cons]
    exact ⟨hhead.mono hp, hopen, hbody.mono hp, hclose, allIn_nil⟩

theorem isBody_of_clause? (h : clause? typeOnly c = some bs) : IsBody c := by
  rcases clause?_cases h with
    ⟨n, g, hn, hg, rfl, -⟩ | ⟨head, ds, group, bs', hhead, rfl, hgroup, -⟩
  · exact .plain (allIn_append.2 ⟨hn.statementChars, statementChars_of_blank hg⟩)
  · rcases clauseGroup?_cases hgroup with
      ⟨rfl, -⟩ | ⟨n, g, g', hn, hg, hg', rfl, -⟩ | ⟨body, -, rfl, hitems⟩
    · exact .plain (allIn_append.2 ⟨hhead.chars, allIn_nil⟩)
    · refine .plain (allIn_append.2 ⟨hhead.chars, ?_⟩)
      have has : IsName "as".toList := by decide
      simp only [allIn_cons, allIn_append]
      exact ⟨by decide, statementChars_of_blank hg, has.statementChars, statementChars_of_blank hg',
        hn.statementChars⟩
    · exact .braced hhead.chars (allIn_of_items (by decide) (fun _ => isStatementChar_of_isBlank)
        (isItem_of_mapM hitems).2)

/-- No quotation mark stands in a clause. -/
theorem isSpecifierChar_of_clause? (h : clause? typeOnly c = some bs) : AllIn isSpecifierChar c :=
  (isBody_of_clause? h).allIn (fun _ => isSpecifierChar_of_isStatementChar) (by decide) (by decide)

end ImportRepair
