import ImportRepair.Proofs.Import.Clause

/-!
# Written clauses and targets are read back

The printer writes a clause as names, aliases and items with commas between
them, and a target as a name or as items between braces.  Reading what it has
written gives the bindings back, whatever their names are: words such as `type`,
`as` and `from` are names like any others.
-/

namespace ImportRepair

open Text

variable {t head group : Text} {b : Binding} {bs defaults aliases items : List Binding}
variable {typeOnly : Bool}

/-! ### Groups -/

/-- A group that can stand at the end of a clause. -/
structure IsGroupText (typeOnly : Bool) (group : Text) (bs : List Binding) : Prop where
  read : clauseGroup? typeOnly group = some bs
  isTrimmed : IsTrimmed group
  chars : AllIn isSpecifierChar group
  line : '\n' ∉ group

theorem isGroupText_alias (h : b.IsAlias typeOnly) :
    IsGroupText typeOnly ("* as ".toList ++ b.localName) [b] where
  read := by
    have hspace : AllIn isBlank [' '] := by simp; decide
    rw [h.2]
    exact clauseGroup?_alias h.1 hspace (List.cons_ne_nil ' ' []) hspace
  isTrimmed := {
    ne_nil := by simp
    head := stops_cons.2 (by decide)
    last := by
      intro c hc
      obtain ⟨d, v, hd⟩ := List.exists_cons_of_ne_nil h.1.ne_nil
      have hlast := h.1.isTrimmed.last c
      rw [hd] at hc hlast
      exact hlast (by simpa [List.getLast?_append] using hc) }
  chars := by
    rw [allIn_append]
    exact ⟨by simp; decide, h.1.allIn.mono fun _ => isSpecifierChar_of_isNamePart⟩
  line := by
    rw [List.mem_append, not_or]
    exact ⟨by decide, fun hmem => absurd (h.1.allIn _ hmem) (by decide)⟩

theorem chars_braced {ts : List Text} (h : ∀ t ∈ ts, IsItemText t) :
    AllIn isSpecifierChar (braced ts) ∧ '\n' ∉ braced ts := by
  have hinner : ∀ p : Char → Bool, p ',' = true → p ' ' = true →
      (∀ c, isItemChar c = true → p c = true) → AllIn p ([',', ' '].intercalate ts) :=
    fun p hcomma hspace hp => allIn_intercalate hcomma hspace fun t ht => (h t ht).chars.mono hp
  have hchars := hinner isSpecifierChar (by decide) (by decide) fun c hc => by
    simp only [isItemChar, Bool.and_eq_true] at hc; tauto
  have hline := hinner (· != '\n') (by decide) (by decide) fun c hc => by
    simp only [isItemChar, Bool.and_eq_true] at hc; tauto
  constructor
  · simp only [braced, allIn_cons, allIn_append, allIn_nil]
    exact ⟨by decide, by decide, hchars, by decide, by decide, trivial⟩
  · intro hmem
    have hall : AllIn (· != '\n') (braced ts) := by
      simp only [braced, allIn_cons, allIn_append, allIn_nil]
      exact ⟨by decide, by decide, hline, by decide, by decide, trivial⟩
    exact absurd (hall _ hmem) (by decide)

theorem isGroupText_braced {ts : List Text} (h : ∀ t ∈ ts, IsItemText t)
    (hread : ts.mapM (namedItem? typeOnly) = some bs) :
    IsGroupText typeOnly (braced ts) bs where
  read := by
    have hbraces := braces?_eq_some_iff.1 (braces?_braced h [])
    rw [List.append_nil] at hbraces
    rw [hbraces.2, clauseGroup?_braces hbraces.1,
      items_intercalate fun t ht => ⟨(h t ht).isTrimmed, (h t ht).not_mem_comma⟩, hread]
  isTrimmed := {
    ne_nil := by simp [braced]
    head := stops_cons.2 (by decide)
    last := by
      intro c hc
      have hc : c = '\x7d' := by simpa [braced, List.getLast?_cons, eq_comm] using hc
      rw [hc]
      decide }
  chars := (chars_braced h).1
  line := (chars_braced h).2

theorem isGroupText_items (h : ∀ b ∈ items, b.IsItem ∧ (typeOnly = true → b.typeOnly = true)) :
    IsGroupText typeOnly (braced (items.map (·.itemText typeOnly))) items := by
  refine isGroupText_braced ?_
    (mapM_map_eq_some fun b hb => namedItem?_itemText (h b hb).1 (h b hb).2)
  intro t ht
  obtain ⟨b, hb, rfl⟩ := List.mem_map.1 ht
  exact (h b hb).1.isItemText

/-! ### Clauses -/

/-- A clause that is read where it stands between `import` and `from`. -/
structure IsClauseText (typeOnly : Bool) (c : Text) : Prop where
  isTrimmed : IsTrimmed c
  chars : AllIn isSpecifierChar c
  line : '\n' ∉ c
  /-- The word `type` at its front is not taken for a mark of types. -/
  word : typeOnly = false → c ≠ "type".toList ∧ afterWord? "type".toList c = none

theorem afterWord?_of_stops (h : Stops isNameStart t) : afterWord? "type".toList t = none := by
  cases t with
  | nil => rfl
  | cons c t =>
    have hc : c ≠ 't' := by
      rintro rfl
      exact absurd (stops_cons.1 h) (by decide)
    have hlead : List.isPrefixOf? "type".toList (c :: t) = none := by
      simp [List.isPrefixOf?, hc.symm]
    rw [afterWord?, hlead]
    rfl

namespace ClauseHead

/-- Whether `type` at the front of a clause counts as a word does not depend on the group. -/
theorem afterWord?_exchange {group' : Text} (h : ClauseHead typeOnly head defaults)
    (hgroup' : Stops isNameStart group')
    (hnone : afterWord? "type".toList (head ++ group) = none) :
    afterWord? "type".toList (head ++ group') = none := by
  cases h with
  | nothing => simpa using afterWord?_of_stops hgroup'
  | @default n g g' hn hg hg' =>
    rw [Option.eq_none_iff_forall_ne_some] at hnone ⊢
    intro r hr
    obtain ⟨w, hne, hw, -, heq⟩ := afterWord?_eq_some_iff.1 hr
    have hcomma : Stops isNamePart (g ++ (',' :: (g' ++ group'))) := by
      cases g with
      | nil => exact stops_cons.2 (by decide)
      | cons d g => exact stops_cons.2 (isNamePart_of_isBlank (allIn_cons.1 hg).1)
    have hstop : Stops isNamePart (w ++ r) :=
      stops_append (hw.stops fun _ => isNamePart_of_isBlank) hne
    rw [List.append_assoc, List.append_assoc, List.cons_append] at heq
    obtain ⟨rfl, hrest⟩ := run_unique heq hn.allIn hcomma (by simp; decide) hstop
    have hgne : g ≠ [] := by
      rintro rfl
      obtain ⟨d, w, rfl⟩ := List.exists_cons_of_ne_nil hne
      rw [List.nil_append, List.cons_append] at hrest
      have hd := (allIn_cons.1 hw).1
      rw [← (List.cons.inj hrest).1] at hd
      exact absurd hd (by decide)
    refine hnone (',' :: (g' ++ group)) (afterWord?_eq_some_iff.2 ⟨g, hgne, hg, ?_, ?_⟩)
    · exact stops_cons.2 (by decide)
    · simp

/-- A head and a group make a clause. -/
theorem isClauseText (h : ClauseHead typeOnly head defaults) (hline : '\n' ∉ head)
    (hgroup : IsGroupText typeOnly group bs)
    (hword : typeOnly = false → afterWord? "type".toList (head ++ group) = none) :
    IsClauseText typeOnly (head ++ group) where
  isTrimmed := {
    ne_nil := by simp [hgroup.isTrimmed.ne_nil]
    head := by
      cases h with
      | nothing => simpa using hgroup.isTrimmed.head
      | default hn hg hg' =>
        rw [List.append_assoc]
        exact hn.stops fun _ => isBlank_of_isNamePart
    last := by
      intro c hc
      obtain ⟨d, u, rfl⟩ := List.exists_cons_of_ne_nil hgroup.isTrimmed.ne_nil
      exact hgroup.isTrimmed.last c (by simpa [List.getLast?_append] using hc) }
  chars := allIn_append.2
    ⟨h.chars.mono fun _ => isSpecifierChar_of_isStatementChar, hgroup.chars⟩
  line := by simp [hline, hgroup.line]
  word htype := by
    refine ⟨fun heq => ?_, hword htype⟩
    cases h with
    | nothing =>
      have hstart := (stops_of_clauseGroup? hgroup.read).2
      rw [List.nil_append] at heq
      rw [heq] at hstart
      exact absurd (stops_cons.1 hstart) (by decide)
    | default hn hg hg' =>
      have hmem : ',' ∈ "type".toList := by rw [← heq]; simp
      exact absurd hmem (by decide)

theorem clause?_group (h : ClauseHead typeOnly head defaults)
    (hgroup : IsGroupText typeOnly group bs) :
    clause? typeOnly (head ++ group) = some (defaults ++ bs) := by
  obtain ⟨hblank, hstart⟩ := stops_of_clauseGroup? hgroup.read
  rw [h.clause?_append hblank hstart fun _ => hgroup.isTrimmed.ne_nil, hgroup.read]
  rfl

end ClauseHead

theorem clauseText_eq (h : ClauseBindings typeOnly defaults aliases items) :
    clauseText typeOnly (defaults ++ aliases ++ items) = [',', ' '].intercalate
      (defaults.map (·.localName) ++ aliases.map (fun b => "* as ".toList ++ b.localName) ++
        if items.isEmpty then [] else [braced (items.map (·.itemText typeOnly))]) := by
  have hdefaults : ∀ b ∈ defaults, b.kind = .defaultName := fun b hb => by
    rw [(h.isDefault b hb).2]
  have haliases : ∀ b ∈ aliases, b.kind = .namespaceAlias := fun b hb => by
    rw [(h.isAlias b hb).2]
  have hitems : ∀ b ∈ items, b.kind = .named := fun b hb => (h.isItem b hb).1.2.1
  have hfilter : ∀ k : BindingKind, (defaults ++ aliases ++ items).filter (·.kind = k) =
      (if k = .defaultName then defaults else []) ++
        (if k = .namespaceAlias then aliases else []) ++
        (if k = .named then items else []) := by
    intro k
    have hone : ∀ (l : List Binding) (k' : BindingKind), (∀ b ∈ l, b.kind = k') →
        l.filter (·.kind = k) = if k = k' then l else [] := by
      intro l k' hl
      split
      · next hk => exact List.filter_eq_self.2 fun b hb => by simp [hl b hb, hk]
      · next hk => exact List.filter_eq_nil_iff.2 fun b hb => by simp [hl b hb, Ne.symm hk]
    rw [List.filter_append, List.filter_append, hone _ _ hdefaults, hone _ _ haliases,
      hone _ _ hitems]
  simp only [clauseText, hfilter, reduceCtorEq, if_true, if_false, List.append_nil, List.nil_append]
  rfl

theorem eq_nil_or_singleton {α : Type} {l : List α} (h : l.length ≤ 1) : l = [] ∨ ∃ a, l = [a] := by
  match l, h with
  | [], _ => exact Or.inl rfl
  | [a], _ => exact Or.inr ⟨a, rfl⟩

/-- What is written behind the default name is a group. -/
theorem exists_isGroupText (h : ClauseBindings typeOnly defaults aliases items)
    (hne : aliases ++ items ≠ []) : ∃ group, IsGroupText typeOnly group (aliases ++ items) ∧
      clauseText typeOnly (defaults ++ aliases ++ items) =
        [',', ' '].intercalate (defaults.map (·.localName) ++ [group]) := by
  rw [clauseText_eq h]
  rcases h.apart with rfl | rfl
  · have hitems : items ≠ [] := hne
    exact ⟨_, isGroupText_items h.isItem, by simp [hitems]⟩
  · rcases eq_nil_or_singleton h.aliases_le with rfl | ⟨b, rfl⟩
    · exact absurd rfl hne
    · exact ⟨_, isGroupText_alias (h.isAlias b (by simp)), by simp⟩

/-- A default name is no word `type` in front of something else: a comma follows it at once. -/
theorem afterWord?_name_comma {n r : Text} (hn : IsName n) :
    afterWord? "type".toList (n ++ ',' :: r) = none := by
  rw [Option.eq_none_iff_forall_ne_some]
  intro u hu
  obtain ⟨w, hne, hw, -, heq⟩ := afterWord?_eq_some_iff.1 hu
  have hstop : Stops isNamePart (w ++ u) :=
    stops_append (hw.stops fun _ => isNamePart_of_isBlank) hne
  obtain ⟨-, hrest⟩ := run_unique heq hn.allIn (stops_cons.2 (by decide)) (by simp; decide) hstop
  obtain ⟨d, w, rfl⟩ := List.exists_cons_of_ne_nil hne
  have hd := (allIn_cons.1 hw).1
  rw [← (List.cons.inj hrest).1] at hd
  exact absurd hd (by decide)

/-- A clause of one default name. -/
theorem isClauseText_name {n : Text} (hn : IsName n)
    (htype : typeOnly = false → n ≠ "type".toList) :
    clause? typeOnly n = some [defaultOf typeOnly n] ∧ IsClauseText typeOnly n := by
  constructor
  · simp only [clause?, show name? n = some (n, []) from hn]
    rfl
  · exact {
      isTrimmed := hn.isTrimmed
      chars := hn.allIn.mono fun _ => isSpecifierChar_of_isNamePart
      line := fun hmem => absurd (hn.allIn _ hmem) (by decide)
      word := fun hfalse => ⟨htype hfalse, afterWord?_of_isName hn⟩ }

/-- **Clauses are read back.**  What is written for some bindings is a clause of these bindings,
    unless it is the one word `type`. -/
theorem clause?_clauseText (h : ClauseBindings typeOnly defaults aliases items)
    (hne : defaults ++ aliases ++ items ≠ [])
    (htype : typeOnly = false → defaults ++ aliases ++ items ≠ [defaultOf false "type".toList]) :
    clause? typeOnly (clauseText typeOnly (defaults ++ aliases ++ items)) =
        some (defaults ++ aliases ++ items) ∧
      IsClauseText typeOnly (clauseText typeOnly (defaults ++ aliases ++ items)) := by
  rcases eq_nil_or_singleton h.defaults_le with rfl | ⟨b, rfl⟩
  · obtain ⟨group, hgroup, htext⟩ := exists_isGroupText h hne
    have hhead : ClauseHead typeOnly [] [] := .nothing
    have hstart := (stops_of_clauseGroup? hgroup.read).2
    have htext : clauseText typeOnly ([] ++ aliases ++ items) = [] ++ group := by
      rw [htext]; simp
    rw [htext]
    exact ⟨hhead.clause?_group hgroup,
      hhead.isClauseText (by simp) hgroup fun _ => afterWord?_of_stops hstart⟩
  · obtain ⟨hn, hb⟩ := h.isDefault b (by simp)
    by_cases hrest : aliases ++ items = []
    · obtain ⟨rfl, rfl⟩ := List.append_eq_nil_iff.1 hrest
      have htext : clauseText typeOnly ([b] ++ [] ++ []) = b.localName := by
        rw [clauseText_eq h]; simp
      have hb : [b] ++ [] ++ [] = [defaultOf typeOnly b.localName] := by
        rw [hb]; rfl
      rw [htext]
      rw [hb] at htype ⊢
      exact isClauseText_name hn fun hfalse hname => htype hfalse (by rw [hname, hfalse])
    · obtain ⟨group, hgroup, htext⟩ := exists_isGroupText h hrest
      have hhead : ClauseHead typeOnly (b.localName ++ ([] ++ ',' :: [' '])) [b] := by
        rw [hb]
        exact .default hn (by simp) (by simp; decide)
      have hsplit : clauseText typeOnly ([b] ++ aliases ++ items) =
          b.localName ++ ([] ++ ',' :: [' ']) ++ group := by
        rw [htext]; simp [List.intercalate_cons_cons]
      have hline : '\n' ∉ b.localName ++ ([] ++ ',' :: [' ']) := by
        rw [List.mem_append, not_or]
        exact ⟨fun hmem => absurd (hn.allIn _ hmem) (by decide), by decide⟩
      rw [hsplit]
      refine ⟨by simpa using hhead.clause?_group hgroup,
        hhead.isClauseText hline hgroup fun _ => ?_⟩
      rw [List.append_assoc]
      exact afterWord?_name_comma hn

/-! ### Targets -/

theorem destructuredItem?_eq_some (h : destructuredItem? t = some b) :
    b.IsItem ∧ b.typeOnly = false ∧ AllIn isStatementChar t := by
  simp only [destructuredItem?, bind, Option.bind_eq_some_iff] at h
  obtain ⟨⟨n, r⟩, hn, h⟩ := h
  obtain ⟨rfl, hname, -⟩ := name?_eq_some_iff.1 hn
  obtain ⟨g, hg, hr⟩ := exists_trimLeft r
  split at h
  · split at h
    · next hnil =>
      cases h
      have hnil : r = [] := List.isEmpty_iff.1 hnil
      rw [hnil, List.append_nil]
      exact ⟨⟨hname, rfl, n, hname, rfl⟩, rfl, hname.statementChars⟩
    · simp at h
  · next u hu =>
    simp only [Option.bind_eq_some_iff] at h
    obtain ⟨l, hl, h⟩ := h
    cases h
    obtain ⟨hul, hlocal⟩ := onlyName?_eq_some_iff.1 hl
    obtain ⟨g', hg', hu'⟩ := exists_trimLeft u
    refine ⟨⟨hlocal, rfl, n, hname, rfl⟩, rfl, ?_⟩
    rw [hr, hu, hu', hul]
    simp only [allIn_append, allIn_cons]
    exact ⟨hname.statementChars, statementChars_of_blank hg, by decide,
      statementChars_of_blank hg', hlocal.statementChars⟩
  · simp at h

theorem Binding.IsItem.destructured_eq (h : b.IsItem) (hvalue : b.typeOnly = false) :
    ∃ n, IsName n ∧ b = { localName := b.localName, imported := some n } ∧
      b.destructured =
        if n = b.localName then b.localName else n ++ ": ".toList ++ b.localName := by
  obtain ⟨n, hn, hb⟩ := h.eq_mk
  rw [hvalue] at hb
  refine ⟨n, hn, hb, ?_⟩
  rw [hb]
  by_cases hsame : n = b.localName
  · simp [Binding.destructured, Binding.renamed?, Option.filter, hsame]
  · simp [Binding.destructured, Binding.renamed?, Option.filter, hsame, hn.ne_nil]

theorem Binding.IsItem.isItemText_destructured (h : b.IsItem) (hvalue : b.typeOnly = false) :
    IsItemText b.destructured := by
  obtain ⟨n, hn, -, htext⟩ := h.destructured_eq hvalue
  rw [htext]
  split
  · exact h.1.isItemText
  · exact hn.isItemText.append (by simp; decide) h.1.isItemText

theorem destructuredItem?_destructured (h : b.IsItem) (hvalue : b.typeOnly = false) :
    destructuredItem? b.destructured = some b := by
  obtain ⟨n, hn, hb, htext⟩ := h.destructured_eq hvalue
  have hl : IsName b.localName := h.1
  rw [htext]
  split
  · next hsame =>
    rw [hsame] at hb
    simp only [destructuredItem?, bind, show name? b.localName = some (b.localName, []) from hl,
      Option.bind_some]
    rw [hb]
    rfl
  · have hname : name? (n ++ ": ".toList ++ b.localName) = some (n, ':' :: (' ' :: b.localName)) :=
      name?_eq_some_iff.2 ⟨by simp, hn, stops_cons.2 (by decide)⟩
    have hcolon : trimLeft (':' :: (' ' :: b.localName)) = ':' :: (' ' :: b.localName) :=
      trimLeft_run (w := []) (by simp) (stops_cons.2 (by decide))
    have hspace : trimLeft (' ' :: b.localName) = b.localName :=
      trimLeft_run (w := [' ']) (by simp; decide) hl.isTrimmed.head
    have honly : onlyName? b.localName = some b.localName := onlyName?_eq_some_iff.2 ⟨rfl, hl⟩
    simp only [destructuredItem?, bind, hname, Option.bind_some, hcolon, hspace, honly]
    exact congrArg some hb.symm

/-- The whole module under a name. -/
def wholeOf (n : Text) : Binding := { localName := n, kind := .wholeRequire }

/-- The two kinds of targets. -/
theorem target?_cases {r : Text} (h : target? t = some (some bs, r)) :
    (∃ n, IsName n ∧ Stops isNamePart r ∧ t = n ++ r ∧ bs = [wholeOf n]) ∨
    ∃ body, AllIn isNoBrace body ∧ t = '\x7b' :: (body ++ '\x7d' :: r) ∧
      (Text.items body).mapM destructuredItem? = some bs := by
  unfold target? at h
  split at h
  · next n r' hn =>
    cases h
    obtain ⟨rfl, hname, hstop⟩ := name?_eq_some_iff.1 hn
    exact Or.inl ⟨n, hname, hstop, rfl, rfl⟩
  · obtain ⟨⟨body, r'⟩, hbraces, heq⟩ := Option.map_eq_some_iff.1 h
    rw [Prod.mk.injEq] at heq
    obtain ⟨hitems, rfl⟩ := heq
    obtain ⟨hbody, rfl⟩ := braces?_eq_some_iff.1 hbraces
    exact Or.inr ⟨body, hbody, rfl, hitems⟩

/-- The bindings of a target are ones that a declaration can hold. -/
theorem admits_of_target? {k : Keyword} {r : Text} (h : target? t = some (some bs, r)) :
    (Form.commonJs k).Admits bs := by
  rcases target?_cases h with ⟨n, hn, -, -, rfl⟩ | ⟨body, -, -, hitems⟩
  · exact Or.inl ⟨_, ⟨hn, rfl⟩, rfl⟩
  · refine Or.inr fun b hb => ?_
    obtain ⟨t, -, ht⟩ := (mem_of_mapM_eq_some hitems).2 b hb
    obtain ⟨hitem, hvalue, -⟩ := destructuredItem?_eq_some ht
    exact ⟨hitem, hvalue⟩

theorem isBody_of_target? (h : target? t = some (some bs, [])) : IsBody t := by
  rcases target?_cases h with ⟨n, hn, -, rfl, -⟩ | ⟨body, -, rfl, hitems⟩
  · rw [List.append_nil]
    exact .plain hn.statementChars
  · refine .braced allIn_nil (allIn_of_items (by decide) (fun _ => isStatementChar_of_isBlank) ?_)
    intro x hx
    obtain ⟨b, -, hb⟩ := (mem_of_mapM_eq_some hitems).1 x hx
    exact (destructuredItem?_eq_some hb).2.2

theorem target?_braced {ts : List Text} {r : Text} (h : ∀ t ∈ ts, IsItemText t)
    (hread : ts.mapM destructuredItem? = some bs) :
    target? (braced ts ++ r) = some (some bs, r) := by
  have hname : name? (braced ts ++ r) = none := name?_of_stops (stops_cons.2 (by decide))
  have hitems := items_intercalate fun t ht => ⟨(h t ht).isTrimmed, (h t ht).not_mem_comma⟩
  simp only [target?, hname, braces?_braced h, Option.map_some, hitems, hread]

theorem targetText_whole (h : b.kind = .wholeRequire) : targetText [b] = b.localName := by
  simp [targetText, h]

theorem targetText_named (h : ∀ b ∈ bs, b.kind = .named) :
    targetText bs = braced (bs.map (·.destructured)) := by
  have hnone : bs.find? (·.kind = .wholeRequire) = none :=
    List.find?_eq_none.2 fun b hb => by simp [h b hb]
  simp only [targetText, hnone]

/-- **Targets are read back.** -/
theorem target?_targetText {k : Keyword} {r : Text} (h : (Form.commonJs k).Admits bs)
    (hr : Stops isNamePart r) : target? (targetText bs ++ r) = some (some bs, r) := by
  rcases h with ⟨b, ⟨hn, hb⟩, rfl⟩ | h
  · have hname : name? (b.localName ++ r) = some (b.localName, r) :=
      name?_eq_some_iff.2 ⟨rfl, hn, hr⟩
    rw [targetText_whole (by rw [hb])]
    simp only [target?, hname]
    rw [hb]
  · rw [targetText_named fun b hb => (h b hb).1.2.1]
    refine target?_braced ?_ (mapM_map_eq_some fun b hb =>
      destructuredItem?_destructured (h b hb).1 (h b hb).2)
    intro t ht
    obtain ⟨b, hb, rfl⟩ := List.mem_map.1 ht
    exact (h b hb).1.isItemText_destructured (h b hb).2

end ImportRepair
