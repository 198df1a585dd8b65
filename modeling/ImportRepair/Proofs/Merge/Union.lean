import ImportRepair.Import.Merge
import ImportRepair.Proofs.Import.Bindings
import ImportRepair.Proofs.Import.Clause
import ImportRepair.Proofs.Import.Written
import Mathlib.Data.List.Find

/-!
# The union of bindings

The union of the bindings of some statements is again a list of bindings that
one statement can hold.  It has every local name of the statements that no
ambiguity drops and no other, and it is empty only where no statement binds
anything.
-/

namespace ImportRepair

variable {specifier n : Text} {s first : Statement} {others ss : List Statement} {u : Union}
variable {b : Binding} {bs : List Binding} {typeOnly : Bool} {k : Keyword}

/-! ### The bindings of one statement by their kind -/

/-- A statement whose form can hold its bindings. -/
def Statement.IsAdmitted (s : Statement) : Prop := s.form.Admits s.bindings

theorem default?_eq_some (h : s.default? = some b) :
    b ∈ s.bindings ∧ (b.kind = .defaultName ∨ b.kind = .wholeRequire) :=
  ⟨List.mem_of_find?_eq_some h, by simpa using List.find?_some h⟩

theorem namespace?_eq_some (h : s.namespace? = some b) :
    b ∈ s.bindings ∧ b.kind = .namespaceAlias :=
  ⟨List.mem_of_find?_eq_some h, by simpa using List.find?_some h⟩

theorem mem_named_iff : b ∈ s.named ↔ b ∈ s.bindings ∧ b.kind = .named := by
  simp [Statement.named]

theorem find?_eq_some_of_unique {p : Binding → Bool} (hb : b ∈ bs) (hp : p b = true)
    (h : ∀ b' ∈ bs, p b' = true → b' = b) : bs.find? p = some b := by
  obtain ⟨b', hb'⟩ := Option.isSome_iff_exists.1 (List.find?_isSome.2 ⟨b, hb, hp⟩)
  rw [hb', h b' (List.mem_of_find?_eq_some hb') (List.find?_some hb')]

theorem eq_of_length_le_one {b' : Binding} (h : bs.length ≤ 1) (hb : b ∈ bs) (hb' : b' ∈ bs) :
    b' = b := by
  rcases eq_nil_or_singleton h with rfl | ⟨a, rfl⟩
  · cases hb
  · rw [List.mem_singleton] at hb hb'
    rw [hb, hb']

theorem binding_cases_es (h : (Form.es typeOnly).Admits s.bindings) (hb : b ∈ s.bindings) :
    s.default? = some b ∨ s.namespace? = some b ∨ b ∈ s.named := by
  obtain ⟨defaults, aliases, items, hbs, h⟩ := h
  have hkind : ∀ b' ∈ s.bindings, (b'.kind = .defaultName ∧ b' ∈ defaults) ∨
      (b'.kind = .namespaceAlias ∧ b' ∈ aliases) ∨ (b'.kind = .named ∧ b' ∈ items) := by
    intro b' hb'
    rw [hbs] at hb'
    rcases List.mem_append.1 hb' with hb' | hb'
    · rcases List.mem_append.1 hb' with hb' | hb'
      · exact Or.inl ⟨(h.isDefault b' hb').kind_eq, hb'⟩
      · exact Or.inr (Or.inl ⟨(h.isAlias b' hb').kind_eq, hb'⟩)
    · exact Or.inr (Or.inr ⟨(h.isItem b' hb').1.2.1, hb'⟩)
  rcases hkind b hb with ⟨hb', hmem⟩ | ⟨hb', hmem⟩ | ⟨hb', -⟩
  · refine Or.inl (find?_eq_some_of_unique hb (by simp [hb']) fun b' hb'' hp => ?_)
    rcases hkind b' hb'' with ⟨-, hmem'⟩ | ⟨hk, -⟩ | ⟨hk, -⟩
    · exact eq_of_length_le_one h.defaults_le hmem hmem'
    · simp [hk] at hp
    · simp [hk] at hp
  · refine Or.inr (Or.inl (find?_eq_some_of_unique hb (by simp [hb']) fun b' hb'' hp => ?_))
    rcases hkind b' hb'' with ⟨hk, -⟩ | ⟨-, hmem'⟩ | ⟨hk, -⟩
    · simp [hk] at hp
    · exact eq_of_length_le_one h.aliases_le hmem hmem'
    · simp [hk] at hp
  · exact Or.inr (Or.inr (mem_named_iff.2 ⟨hb, hb'⟩))

theorem binding_cases_commonJs (h : (Form.commonJs k).Admits s.bindings) (hb : b ∈ s.bindings) :
    s.default? = some b ∨ b ∈ s.named := by
  rcases h with ⟨b', hwhole, hbs⟩ | h
  · rw [hbs, List.mem_singleton] at hb
    subst hb
    refine Or.inl ?_
    simp [Statement.default?, hbs, hwhole.kind_eq]
  · exact Or.inr (mem_named_iff.2 ⟨hb, (h b hb).1.2.1⟩)

/-- Every binding is the default, the alias or a named one. -/
theorem Statement.IsAdmitted.binding_cases (h : s.IsAdmitted) (hb : b ∈ s.bindings) :
    s.default? = some b ∨ s.namespace? = some b ∨ b ∈ s.named := by
  unfold Statement.IsAdmitted at h
  cases hform : s.form with
  | es typeOnly => exact binding_cases_es (hform ▸ h) hb
  | commonJs k => exact (binding_cases_commonJs (hform ▸ h) hb).imp id Or.inr

/-! ### The union of named bindings -/

theorem mem_of_representative? {localName : Text} (h : representative? bs localName = some b) :
    b ∈ bs ∧ b.localName = localName := by
  have hsame : b ∈ bs.filter (·.localName == localName) := by
    cases hfind : (bs.filter (·.localName == localName)).find? fun b => !b.typeOnly with
    | some b' =>
      simp only [representative?, hfind] at h
      cases h
      exact List.mem_of_find?_eq_some hfind
    | none =>
      simp only [representative?, hfind] at h
      exact List.mem_of_head? h
  simpa using hsame

theorem exists_representative? (hb : b ∈ bs) : ∃ b', representative? bs b.localName = some b' := by
  have hne : bs.filter (·.localName == b.localName) ≠ [] :=
    List.ne_nil_of_mem (a := b) (by simp [hb])
  obtain ⟨c, cs, hc⟩ := List.exists_cons_of_ne_nil hne
  unfold representative?
  rw [hc]
  cases hfind : (c :: cs).find? fun b => !b.typeOnly with
  | some b' => exact ⟨b', by simp only [hfind]; rfl⟩
  | none => exact ⟨c, by simp only [hfind]; rfl⟩

theorem mem_of_mem_namedUnion (h : b ∈ namedUnion ss) : ∃ s ∈ ss, b ∈ s.named := by
  simp only [namedUnion, List.mem_filterMap] at h
  obtain ⟨localName, -, h⟩ := h
  exact List.mem_flatMap.1 (mem_of_representative? h).1

theorem exists_mem_namedUnion (hs : s ∈ ss) (hb : b ∈ s.named) :
    ∃ b' ∈ namedUnion ss, b'.localName = b.localName := by
  have hmem : b ∈ ss.flatMap Statement.named := List.mem_flatMap.2 ⟨s, hs, hb⟩
  obtain ⟨b', hb'⟩ := exists_representative? hmem
  refine ⟨b', ?_, (mem_of_representative? hb').2⟩
  simp only [namedUnion, List.mem_filterMap, List.mem_mergeSort, List.mem_eraseDups, List.mem_map]
  exact ⟨b.localName, ⟨b, hmem, rfl⟩, hb'⟩

/-- Where the statements bring along the local names in order, nothing is left to sort. -/
theorem namedUnion_of_pairwise
    (h : ((ss.flatMap Statement.named).map (·.localName)).eraseDups.Pairwise (Text.le · ·)) :
    namedUnion ss = ((ss.flatMap Statement.named).map (·.localName)).eraseDups.filterMap
      (representative? (ss.flatMap Statement.named)) := by
  rw [namedUnion, List.mergeSort_of_pairwise h]

theorem namedUnion_eq_nil_iff : namedUnion ss = [] ↔ ∀ s ∈ ss, s.named = [] := by
  constructor
  · intro h s hs
    rw [List.eq_nil_iff_forall_not_mem]
    intro b hb
    obtain ⟨b', hb', -⟩ := exists_mem_namedUnion hs hb
    simp [h] at hb'
  · intro h
    rw [List.eq_nil_iff_forall_not_mem]
    intro b hb
    obtain ⟨s, hs, hb⟩ := mem_of_mem_namedUnion hb
    simp [h s hs] at hb

/-! ### The union of a class -/

/-- The default names and the names of whole modules of some statements. -/
def defaultNames (ss : List Statement) : List Text :=
  ss.filterMap fun s => s.default?.map (·.localName)

/-- The namespace aliases of some statements. -/
def aliasNames (ss : List Statement) : List Text :=
  ss.filterMap fun s => s.namespace?.map (·.localName)

theorem mem_defaultNames_iff :
    n ∈ defaultNames ss ↔ ∃ s ∈ ss, ∃ b, s.default? = some b ∧ b.localName = n := by
  simp [defaultNames]

theorem mem_aliasNames_iff :
    n ∈ aliasNames ss ↔ ∃ s ∈ ss, ∃ b, s.namespace? = some b ∧ b.localName = n := by
  simp [aliasNames]

theorem defaultNames_eq_nil_iff : defaultNames ss = [] ↔ ∀ s ∈ ss, s.default? = none := by
  simp [defaultNames, List.filterMap_eq_nil_iff]

theorem aliasNames_eq_nil_iff : aliasNames ss = [] ↔ ∀ s ∈ ss, s.namespace? = none := by
  simp [aliasNames, List.filterMap_eq_nil_iff]

/-- Statements without names bind nothing. -/
theorem names_eq_nil_iff (h : ∀ s ∈ ss, s.IsAdmitted) :
    (defaultNames ss = [] ∧ aliasNames ss = [] ∧ namedUnion ss = []) ↔
      ∀ s ∈ ss, s.bindings = [] := by
  rw [defaultNames_eq_nil_iff, aliasNames_eq_nil_iff, namedUnion_eq_nil_iff]
  constructor
  · rintro ⟨hdefaults, haliases, hnamed⟩ s hs
    rw [List.eq_nil_iff_forall_not_mem]
    intro b hb
    rcases (h s hs).binding_cases hb with hb | hb | hb
    · rw [hdefaults s hs] at hb
      cases hb
    · rw [haliases s hs] at hb
      cases hb
    · simp [hnamed s hs] at hb
  · intro hnil
    refine ⟨fun s hs => ?_, fun s hs => ?_, fun s hs => ?_⟩
    · simp [Statement.default?, hnil s hs]
    · simp [Statement.namespace?, hnil s hs]
    · simp [Statement.named, hnil s hs]

/-- One `import` statement holds the bindings of all of these. -/
structure IsExpressible (typeOnly : Bool) (ss : List Statement) : Prop where
  apart : aliasNames ss = [] ∨ namedUnion ss = []
  /-- A clause of types holds a default name only by itself. -/
  alone : typeOnly = true → defaultNames ss = [] ∨ (aliasNames ss = [] ∧ namedUnion ss = [])

/-- The first default name, the first alias and the named bindings. -/
def clauseUnion (typeOnly : Bool) (ss : List Statement) : List Binding :=
  (defaultNames ss).head?.toList.map (defaultOf typeOnly) ++
    (aliasNames ss).head?.toList.map (aliasOf typeOnly) ++ namedUnion ss

theorem union?_es_eq_some_iff (specifier : Text) (hform : first.form = .es typeOnly) :
    union? specifier first others = some u ↔ IsExpressible typeOnly (first :: others) ∧
      u = ⟨clauseUnion typeOnly (first :: others),
        (ambiguity? specifier .defaultName (defaultNames (first :: others))).toList ++
          (ambiguity? specifier .namespaceAlias (aliasNames (first :: others))).toList⟩ := by
  have hunion : union? specifier first others =
      if !(aliasNames (first :: others)).isEmpty &&
        !(namedUnion (first :: others)).isEmpty then none
      else if typeOnly && !(defaultNames (first :: others)).isEmpty &&
        !((namedUnion (first :: others)).isEmpty &&
          (aliasNames (first :: others)).isEmpty) then none
      else some ⟨clauseUnion typeOnly (first :: others),
        (ambiguity? specifier .defaultName (defaultNames (first :: others))).toList ++
          (ambiguity? specifier .namespaceAlias (aliasNames (first :: others))).toList⟩ := by
    unfold union?
    rw [hform]
    rfl
  rw [hunion]
  split
  · next h =>
    simp only [Bool.and_eq_true, Bool.not_eq_true', List.isEmpty_eq_false_iff] at h
    simp only [reduceCtorEq, false_iff, not_and]
    exact fun hex => absurd hex.apart (by simp [h])
  · next h =>
    split
    · next h' =>
      simp only [Bool.and_eq_true, Bool.not_eq_true', Bool.and_eq_false_iff,
        List.isEmpty_eq_false_iff] at h'
      simp only [reduceCtorEq, false_iff, not_and]
      intro hex
      rcases hex.alone h'.1.1 with hnil | ⟨halias, hnamed⟩
      · exact absurd hnil h'.1.2
      · exact absurd h'.2 (by simp [halias, hnamed])
    · next h' =>
      rw [Option.some.injEq, eq_comm]
      refine ⟨fun hu => ⟨⟨?_, fun htype => ?_⟩, hu⟩, fun hu => hu.2⟩
      · by_contra hcon
        simp only [not_or] at hcon
        exact h (by simp [hcon])
      · by_contra hcon
        simp only [not_or, not_and_or] at hcon
        exact h' (by simp [htype, hcon.1, hcon.2.symm])

/-- The union of the bindings of declarations: one whole module, or named values. -/
theorem union?_commonJs_eq_some_iff (hform : first.form = .commonJs k) :
    union? specifier first others = some u ↔
      (defaultNames (first :: others) = [] ∧ u = ⟨namedUnion (first :: others), []⟩) ∨
      ∃ n ns, defaultNames (first :: others) = n :: ns ∧ namedUnion (first :: others) = [] ∧
        u = ⟨[wholeOf n], (ambiguity? specifier .wholeRequire (n :: ns)).toList⟩ := by
  cases hnames : defaultNames (first :: others) with
  | nil =>
    have hunion : union? specifier first others = some ⟨namedUnion (first :: others), []⟩ := by
      rw [defaultNames] at hnames
      simp only [union?, hform, hnames]
    simp [hunion, eq_comm]
  | cons n ns =>
    have hunion : union? specifier first others =
        if (namedUnion (first :: others)).isEmpty then
          some ⟨[wholeOf n], (ambiguity? specifier .wholeRequire (n :: ns)).toList⟩
        else none := by
      rw [defaultNames] at hnames
      simp only [union?, hform, hnames]
      rfl
    rw [hunion]
    simp only [reduceCtorEq, false_and, false_or, List.cons.injEq]
    split
    · next hnil =>
      rw [List.isEmpty_iff] at hnil
      constructor
      · intro h
        cases h
        exact ⟨n, ns, ⟨rfl, rfl⟩, hnil, rfl⟩
      · rintro ⟨-, -, ⟨rfl, rfl⟩, -, rfl⟩
        rfl
    · next hne =>
      rw [List.isEmpty_iff] at hne
      simp only [reduceCtorEq, false_iff]
      rintro ⟨-, -, -, hnil, -⟩
      exact hne hnil

/-! ### What a union holds -/

/-- Statements that share style and type flag have the same form, up to the declaring word. -/
theorem form_of_mergeKey {r : Statement} (h : s.mergeKey = r.mergeKey) :
    (∀ typeOnly, r.form = .es typeOnly → s.form = .es typeOnly) ∧
      ∀ k, r.form = .commonJs k → ∃ k', s.form = .commonJs k' := by
  simp only [Statement.mergeKey, MergeKey.mk.injEq] at h
  constructor
  · intro typeOnly hr
    rw [hr] at h
    cases hs : s.form with
    | es b => rw [hs] at h; exact congrArg Form.es h.2
    | commonJs k => rw [hs] at h; exact absurd h.1 (by simp [Form.style])
  · intro k hr
    rw [hr] at h
    cases hs : s.form with
    | es b => rw [hs] at h; exact absurd h.1 (by simp [Form.style])
    | commonJs k' => exact ⟨k', rfl⟩

/-- The statements of a class: they share style and type flag, and each can hold its bindings. -/
def IsClass (first : Statement) (ss : List Statement) : Prop :=
  ∀ s ∈ ss, s.mergeKey = first.mergeKey ∧ s.IsAdmitted

theorem IsClass.admits_es (h : IsClass first ss) (hform : first.form = .es typeOnly) (hs : s ∈ ss) :
    (Form.es typeOnly).Admits s.bindings := by
  obtain ⟨hkey, hadmits⟩ := h s hs
  rwa [Statement.IsAdmitted, (form_of_mergeKey hkey).1 typeOnly hform] at hadmits

theorem IsClass.admits_commonJs (h : IsClass first ss) (hform : first.form = .commonJs k)
    (hs : s ∈ ss) : ∃ k', (Form.commonJs k').Admits s.bindings := by
  obtain ⟨hkey, hadmits⟩ := h s hs
  obtain ⟨k', hk'⟩ := (form_of_mergeKey hkey).2 k hform
  rw [Statement.IsAdmitted, hk'] at hadmits
  exact ⟨k', hadmits⟩

theorem IsClass.namespace?_eq_none (h : IsClass first ss) (hform : first.form = .commonJs k)
    (hs : s ∈ ss) : s.namespace? = none := by
  obtain ⟨k', hadmits⟩ := h.admits_commonJs hform hs
  rw [Option.eq_none_iff_forall_ne_some]
  intro b hb
  obtain ⟨hb, hkind⟩ := namespace?_eq_some hb
  rcases isWhole_or_isItem hadmits hb with hb | ⟨hb, -⟩
  · simp [hb.kind_eq] at hkind
  · simp [hb.2.1] at hkind

theorem isName_of_mem_bindings (h : s.IsAdmitted) (hb : b ∈ s.bindings) : IsName b.localName := by
  unfold Statement.IsAdmitted at h
  cases hform : s.form with
  | es typeOnly =>
    rw [hform] at h
    rcases isDefault_or_isAlias_or_isItem h hb with hb | hb | ⟨hb, -⟩ <;> exact hb.1
  | commonJs k =>
    rw [hform] at h
    rcases isWhole_or_isItem h hb with hb | ⟨hb, -⟩ <;> exact hb.1

theorem isName_of_mem_defaultNames (hclass : IsClass first ss) (h : n ∈ defaultNames ss) :
    IsName n := by
  obtain ⟨s, hs, b, hb, rfl⟩ := mem_defaultNames_iff.1 h
  exact isName_of_mem_bindings (hclass s hs).2 (default?_eq_some hb).1

theorem isName_of_mem_aliasNames (hclass : IsClass first ss) (h : n ∈ aliasNames ss) :
    IsName n := by
  obtain ⟨s, hs, b, hb, rfl⟩ := mem_aliasNames_iff.1 h
  exact isName_of_mem_bindings (hclass s hs).2 (namespace?_eq_some hb).1

theorem mem_of_mem_head?_toList {α : Type} {l : List α} {a : α} (h : a ∈ l.head?.toList) : a ∈ l :=
  List.mem_of_head? (Option.mem_toList.1 h)

/-- **One statement can hold a union.** -/
theorem admits_union (hclass : IsClass first (first :: others))
    (h : union? specifier first others = some u) : first.form.Admits u.bindings := by
  cases hform : first.form with
  | es typeOnly =>
    obtain ⟨hex, rfl⟩ := (union?_es_eq_some_iff _ hform).1 h
    refine ⟨_, _, _, rfl, ?_⟩
    refine {
      isDefault := fun b hb => ?_
      defaults_le := by cases defaultNames (first :: others) <;> simp
      isAlias := fun b hb => ?_
      aliases_le := by cases aliasNames (first :: others) <;> simp
      isItem := fun b hb => ?_
      apart := ?_ }
    · obtain ⟨n, hn, rfl⟩ := List.mem_map.1 hb
      exact ⟨isName_of_mem_defaultNames hclass (mem_of_mem_head?_toList hn), rfl⟩
    · obtain ⟨n, hn, rfl⟩ := List.mem_map.1 hb
      exact ⟨isName_of_mem_aliasNames hclass (mem_of_mem_head?_toList hn), rfl⟩
    · obtain ⟨s, hs, hb⟩ := mem_of_mem_namedUnion hb
      obtain ⟨hb, hkind⟩ := mem_named_iff.1 hb
      rcases isDefault_or_isAlias_or_isItem (hclass.admits_es hform hs) hb with hb | hb | hb
      · simp [hb.kind_eq] at hkind
      · simp [hb.kind_eq] at hkind
      · exact hb
    · exact hex.apart.imp (fun hnil => by simp [hnil]) id
  | commonJs k =>
    rcases (union?_commonJs_eq_some_iff hform).1 h with ⟨-, rfl⟩ | ⟨n, ns, hnames, -, rfl⟩
    · refine Or.inr fun b hb => ?_
      obtain ⟨s, hs, hb⟩ := mem_of_mem_namedUnion hb
      obtain ⟨hb, hkind⟩ := mem_named_iff.1 hb
      obtain ⟨k', hadmits⟩ := hclass.admits_commonJs hform hs
      rcases isWhole_or_isItem hadmits hb with hb | hb
      · simp [hb.kind_eq] at hkind
      · exact hb
    · have hn : n ∈ defaultNames (first :: others) := by simp [hnames]
      exact Or.inl ⟨_, ⟨isName_of_mem_defaultNames hclass hn, rfl⟩, rfl⟩

/-! ### Names of a union -/

/-- The first name is kept, and an ambiguity reports every other one. -/
theorem exists_ambiguity_of_ne (specifier : Text) (kind : UniqueKind) {names : List Text} {w : Text}
    (hw : names.head? = some w) (h : n ∈ names) (hne : n ≠ w) :
    ∃ a ∈ (ambiguity? specifier kind names).toList,
      a.specifier = specifier ∧ a.kind = kind ∧ a.kept = w ∧ n ∈ a.dropped := by
  cases names with
  | nil => cases hw
  | cons m ms =>
    obtain rfl : m = w := Option.some.inj hw
    have hmem : n ∈ (m :: ms).eraseDups := List.mem_eraseDups.2 h
    rw [List.eraseDups_cons] at hmem
    have hrest : n ∈ (ms.filter fun b => !b == m).eraseDups :=
      (List.mem_cons.1 hmem).resolve_left hne
    obtain ⟨d, ds, hd⟩ := List.exists_cons_of_ne_nil (List.ne_nil_of_mem hrest)
    refine ⟨⟨specifier, kind, m, d :: ds⟩, ?_, rfl, rfl, rfl, hd ▸ hrest⟩
    simp [ambiguity?, List.eraseDups_cons, hd]

theorem keptNames_of_ambiguity? (specifier : Text) (kind : UniqueKind) {names : List Text}
    (h : n ∈ names) :
    n ∈ names.head?.toList ∨ ∃ a ∈ (ambiguity? specifier kind names).toList,
      a.specifier = specifier ∧ n ∈ a.dropped := by
  obtain ⟨w, ws, rfl⟩ := List.exists_cons_of_ne_nil (List.ne_nil_of_mem h)
  by_cases hw : n = w
  · exact Or.inl (by simp [hw])
  · obtain ⟨a, ha, hspecifier, -, -, hdropped⟩ := exists_ambiguity_of_ne specifier kind rfl h hw
    exact Or.inr ⟨a, ha, hspecifier, hdropped⟩

/-- **No name is lost without an ambiguity.**  A local name of a statement is one of the union, or
    an ambiguity of the union drops it. -/
theorem mem_boundNames_union (hclass : IsClass first (first :: others))
    (h : union? specifier first others = some u) (hs : s ∈ first :: others)
    (hn : n ∈ s.boundNames) :
    n ∈ u.bindings.map (·.localName) ∨
      ∃ a ∈ u.ambiguities, a.specifier = specifier ∧ n ∈ a.dropped := by
  obtain ⟨b, hb, rfl⟩ := List.mem_map.1 hn
  have hnamed : b ∈ s.named → b.localName ∈ (namedUnion (first :: others)).map (·.localName) := by
    intro hb
    obtain ⟨b', hb', hname⟩ := exists_mem_namedUnion hs hb
    exact List.mem_map.2 ⟨b', hb', hname⟩
  cases hform : first.form with
  | es typeOnly =>
    obtain ⟨-, rfl⟩ := (union?_es_eq_some_iff _ hform).1 h
    simp only [clauseUnion, List.map_append, List.mem_append, List.map_map, or_assoc]
    rcases (hclass s hs).2.binding_cases hb with hb | hb | hb
    · rcases keptNames_of_ambiguity? specifier .defaultName
        (mem_defaultNames_iff.2 ⟨s, hs, b, hb, rfl⟩) with hkept | ⟨a, ha, hdropped⟩
      · exact Or.inl (by simpa [defaultOf] using hkept)
      · exact Or.inr (Or.inr (Or.inr ⟨a, Or.inl ha, hdropped⟩))
    · rcases keptNames_of_ambiguity? specifier .namespaceAlias
        (mem_aliasNames_iff.2 ⟨s, hs, b, hb, rfl⟩) with hkept | ⟨a, ha, hdropped⟩
      · exact Or.inr (Or.inl (by simpa [aliasOf] using hkept))
      · exact Or.inr (Or.inr (Or.inr ⟨a, Or.inr ha, hdropped⟩))
    · exact Or.inr (Or.inr (Or.inl (hnamed hb)))
  | commonJs k =>
    obtain ⟨k', hadmits⟩ := hclass.admits_commonJs hform hs
    rcases binding_cases_commonJs hadmits hb with hb | hb
    · have hmem := mem_defaultNames_iff.2 ⟨s, hs, b, hb, rfl⟩
      rcases (union?_commonJs_eq_some_iff hform).1 h with ⟨hnil, -⟩ | ⟨m, ms, hnames, -, rfl⟩
      · simp [hnil] at hmem
      · rw [hnames] at hmem
        rcases keptNames_of_ambiguity? specifier .wholeRequire hmem with hkept | hdropped
        · exact Or.inl (by simpa [wholeOf] using hkept)
        · exact Or.inr hdropped
    · rcases (union?_commonJs_eq_some_iff hform).1 h with ⟨-, rfl⟩ | ⟨m, ms, -, hnil, -⟩
      · exact Or.inl (hnamed hb)
      · have hmem := hnamed hb
        simp [hnil] at hmem

/-- A union is empty only where no statement binds anything. -/
theorem union_bindings_eq_nil_iff (hclass : IsClass first (first :: others))
    (h : union? specifier first others = some u) :
    u.bindings = [] ↔ ∀ s ∈ first :: others, s.bindings = [] := by
  rw [← names_eq_nil_iff fun s hs => (hclass s hs).2]
  cases hform : first.form with
  | es typeOnly =>
    obtain ⟨-, rfl⟩ := (union?_es_eq_some_iff _ hform).1 h
    simp [clauseUnion]
  | commonJs k =>
    have haliases : aliasNames (first :: others) = [] :=
      aliasNames_eq_nil_iff.2 fun s hs => hclass.namespace?_eq_none hform hs
    rcases (union?_commonJs_eq_some_iff hform).1 h with ⟨hnil, rfl⟩ | ⟨m, ms, hcons, -, rfl⟩
    · simp [hnil, haliases]
    · simp [hcons]

/-- A default name of a union is a default name of a statement. -/
theorem mem_defaultNames_of_union (hclass : IsClass first (first :: others))
    (h : union? specifier first others = some u) (hb : b ∈ u.bindings)
    (hkind : b.kind = .defaultName) : ∃ s ∈ first :: others, ∃ b' ∈ s.bindings,
      b'.kind = .defaultName ∧ b'.localName = b.localName := by
  cases hform : first.form with
  | es typeOnly =>
    obtain ⟨-, rfl⟩ := (union?_es_eq_some_iff _ hform).1 h
    simp only [clauseUnion, List.mem_append, List.mem_map] at hb
    rcases hb with (⟨n, hn, rfl⟩ | ⟨n, hn, rfl⟩) | hb
    · obtain ⟨s, hs, b', hb', hname⟩ := mem_defaultNames_iff.1 (mem_of_mem_head?_toList hn)
      obtain ⟨hmem, hkind'⟩ := default?_eq_some hb'
      refine ⟨s, hs, b', hmem, ?_, hname⟩
      rcases isDefault_or_isAlias_or_isItem (hclass.admits_es hform hs) hmem with
        hb' | hb' | ⟨hb', -⟩
      · exact hb'.kind_eq
      · simp [hb'.kind_eq] at hkind'
      · simp [hb'.2.1] at hkind'
    · simp [aliasOf] at hkind
    · obtain ⟨s, hs, hb⟩ := mem_of_mem_namedUnion hb
      simp [(mem_named_iff.1 hb).2] at hkind
  | commonJs k =>
    rcases (union?_commonJs_eq_some_iff hform).1 h with ⟨-, rfl⟩ | ⟨n, ns, -, -, rfl⟩
    · obtain ⟨s, hs, hb⟩ := mem_of_mem_namedUnion hb
      simp [(mem_named_iff.1 hb).2] at hkind
    · rw [List.mem_singleton] at hb
      rw [hb] at hkind
      simp [wholeOf] at hkind

/-! ### The first name of a kind -/

/-- The bindings of this kind. -/
def UniqueKind.ofBindings : UniqueKind → BindingKind
  | .defaultName => .defaultName
  | .namespaceAlias => .namespaceAlias
  | .wholeRequire => .wholeRequire

variable {kind : UniqueKind} {x w : Text}

/-- The statement binds the name as its default name, its alias or its whole module. -/
def Statement.BindsAs (s : Statement) (kind : UniqueKind) (x : Text) : Prop :=
  ∃ b ∈ s.bindings, b.kind = kind.ofBindings ∧ b.localName = x

instance : Decidable (s.BindsAs kind x) := inferInstanceAs (Decidable (∃ b ∈ s.bindings, _))

/-- The names of one kind that some statements bind, in their order. -/
def uniqueNames (kind : UniqueKind) (ss : List Statement) : List Text :=
  ss.filterMap fun s => (s.bindings.find? (·.kind = kind.ofBindings)).map (·.localName)

/-- A statement holds one binding of a kind. -/
theorem Statement.IsAdmitted.eq_of_kind_eq {b' : Binding} (h : s.IsAdmitted) (hb : b ∈ s.bindings)
    (hb' : b' ∈ s.bindings) (hkind : b.kind = kind.ofBindings)
    (hkind' : b'.kind = kind.ofBindings) : b' = b := by
  have hnamed : ∀ d ∈ s.named, d.kind ≠ kind.ofBindings := by
    intro d hd
    rw [(mem_named_iff.1 hd).2]
    cases kind <;> decide
  have hapart : ∀ d d' : Binding, s.default? = some d → s.namespace? = some d' →
      d.kind = kind.ofBindings → d'.kind ≠ kind.ofBindings := by
    intro d d' hd hd' hk hk'
    have hdefault := (default?_eq_some hd).2
    rw [hk, ← hk', (namespace?_eq_some hd').2] at hdefault
    simp at hdefault
  rcases h.binding_cases hb with hd | hd | hd <;> rcases h.binding_cases hb' with hd' | hd' | hd'
  · exact Option.some.inj (hd'.symm.trans hd)
  · exact absurd hkind' (hapart b b' hd hd' hkind)
  · exact absurd hkind' (hnamed b' hd')
  · exact absurd hkind (hapart b' b hd' hd hkind')
  · exact Option.some.inj (hd'.symm.trans hd)
  · exact absurd hkind' (hnamed b' hd')
  · exact absurd hkind (hnamed b hd)
  · exact absurd hkind (hnamed b hd)
  · exact absurd hkind (hnamed b hd)

theorem mem_uniqueNames_iff (h : ∀ s ∈ ss, s.IsAdmitted) :
    x ∈ uniqueNames kind ss ↔ ∃ s ∈ ss, s.BindsAs kind x := by
  simp only [uniqueNames, List.mem_filterMap, Option.map_eq_some_iff]
  constructor
  · rintro ⟨s, hs, b, hb, hname⟩
    exact ⟨s, hs, b, List.mem_of_find?_eq_some hb, by simpa using List.find?_some hb, hname⟩
  · rintro ⟨s, hs, b, hb, hkind, hname⟩
    have hfind := find?_eq_some_of_unique (p := fun d => decide (d.kind = kind.ofBindings)) hb
      (by simp [hkind]) fun b' hb' hkind' =>
        (h s hs).eq_of_kind_eq hb hb' hkind (by simpa using hkind')
    exact ⟨s, hs, b, hfind, hname⟩

theorem uniqueNames_namespaceAlias (ss : List Statement) :
    uniqueNames .namespaceAlias ss = aliasNames ss := rfl

/-- The default names of clauses, and the whole modules of declarations. -/
theorem uniqueNames_eq_defaultNames
    (h : ∀ s ∈ ss, ∀ b ∈ s.bindings, (b.kind = .defaultName ∨ b.kind = .wholeRequire) ↔
      b.kind = kind.ofBindings) :
    uniqueNames kind ss = defaultNames ss := by
  refine List.filterMap_congr fun s hs => ?_
  have hfind : s.bindings.find? (·.kind = kind.ofBindings) = s.default? := by
    refine List.find?_congr fun b hb => ?_
    rw [Bool.eq_iff_iff, Bool.or_eq_true, decide_eq_true_eq, decide_eq_true_eq, decide_eq_true_eq]
    exact (h s hs b hb).symm
  rw [hfind]

theorem uniqueNames_eq_nil (h : ∀ s ∈ ss, ∀ b ∈ s.bindings, b.kind ≠ kind.ofBindings) :
    uniqueNames kind ss = [] := by
  rw [uniqueNames, List.filterMap_eq_nil_iff]
  intro s hs
  rw [Option.map_eq_none_iff, List.find?_eq_none]
  intro b hb
  simpa using h s hs b hb

theorem IsClass.kind_es (hclass : IsClass first ss) (hform : first.form = .es typeOnly) :
    ∀ s ∈ ss, ∀ b ∈ s.bindings, b.kind ≠ .wholeRequire := by
  intro s hs b hb
  rcases isDefault_or_isAlias_or_isItem (hclass.admits_es hform hs) hb with hb | hb | ⟨hb, -⟩
  · simp [hb.kind_eq]
  · simp [hb.kind_eq]
  · simp [hb.2.1]

theorem IsClass.kind_commonJs (hclass : IsClass first ss) (hform : first.form = .commonJs k) :
    ∀ s ∈ ss, ∀ b ∈ s.bindings, b.kind ≠ .defaultName ∧ b.kind ≠ .namespaceAlias := by
  intro s hs b hb
  obtain ⟨k', hadmits⟩ := hclass.admits_commonJs hform hs
  rcases isWhole_or_isItem hadmits hb with hb | ⟨hb, -⟩
  · simp [hb.kind_eq]
  · simp [hb.2.1]

theorem first_wins_of_union_es (hclass : IsClass first (first :: others))
    (hform : first.form = .es typeOnly) (hu : union? specifier first others = some u)
    (hw : (uniqueNames kind (first :: others)).head? = some w) :
    (∃ b ∈ u.bindings, b.kind = kind.ofBindings ∧ b.localName = w) ∧
    ∀ x ∈ uniqueNames kind (first :: others), x ≠ w → ∃ a ∈ u.ambiguities,
      a.specifier = specifier ∧ a.kind = kind ∧ a.kept = w ∧ x ∈ a.dropped := by
  obtain ⟨-, rfl⟩ := (union?_es_eq_some_iff _ hform).1 hu
  have hkinds := hclass.kind_es hform
  cases kind with
  | defaultName =>
    have hnames : uniqueNames .defaultName (first :: others) = defaultNames (first :: others) :=
      uniqueNames_eq_defaultNames fun s hs b hb => or_iff_left (hkinds s hs b hb)
    rw [hnames] at hw ⊢
    refine ⟨⟨defaultOf typeOnly w, by simp [clauseUnion, hw], rfl, rfl⟩, ?_⟩
    intro x hx hne
    obtain ⟨a, ha, hreport⟩ := exists_ambiguity_of_ne specifier .defaultName hw hx hne
    exact ⟨a, List.mem_append_left _ ha, hreport⟩
  | namespaceAlias =>
    rw [uniqueNames_namespaceAlias] at hw ⊢
    refine ⟨⟨aliasOf typeOnly w, by simp [clauseUnion, hw], rfl, rfl⟩, ?_⟩
    intro x hx hne
    obtain ⟨a, ha, hreport⟩ := exists_ambiguity_of_ne specifier .namespaceAlias hw hx hne
    exact ⟨a, List.mem_append_right _ ha, hreport⟩
  | wholeRequire =>
    rw [uniqueNames_eq_nil hkinds] at hw
    cases hw

theorem first_wins_of_union_commonJs (hclass : IsClass first (first :: others))
    (hform : first.form = .commonJs k) (hu : union? specifier first others = some u)
    (hw : (uniqueNames kind (first :: others)).head? = some w) :
    (∃ b ∈ u.bindings, b.kind = kind.ofBindings ∧ b.localName = w) ∧
    ∀ x ∈ uniqueNames kind (first :: others), x ≠ w → ∃ a ∈ u.ambiguities,
      a.specifier = specifier ∧ a.kind = kind ∧ a.kept = w ∧ x ∈ a.dropped := by
  have hkinds := hclass.kind_commonJs hform
  cases kind with
  | defaultName =>
    have hnil : uniqueNames .defaultName (first :: others) = [] :=
      uniqueNames_eq_nil fun s hs b hb => (hkinds s hs b hb).1
    rw [hnil] at hw
    cases hw
  | namespaceAlias =>
    have hnil : uniqueNames .namespaceAlias (first :: others) = [] :=
      uniqueNames_eq_nil fun s hs b hb => (hkinds s hs b hb).2
    rw [hnil] at hw
    cases hw
  | wholeRequire =>
    have hnames : uniqueNames .wholeRequire (first :: others) = defaultNames (first :: others) :=
      uniqueNames_eq_defaultNames fun s hs b hb => or_iff_right (hkinds s hs b hb).1
    rw [hnames] at hw ⊢
    rcases (union?_commonJs_eq_some_iff hform).1 hu with ⟨hnil, -⟩ | ⟨m, ms, hcons, -, rfl⟩
    · rw [hnil] at hw
      cases hw
    · rw [hcons] at hw ⊢
      obtain rfl : m = w := Option.some.inj hw
      refine ⟨⟨wholeOf m, List.mem_singleton_self _, rfl, rfl⟩, ?_⟩
      intro x hx hne
      exact exists_ambiguity_of_ne specifier .wholeRequire rfl hx hne

/-- **The first name of a kind wins.**  The union binds it, and an ambiguity reports every other
    name of the kind. -/
theorem first_wins_of_union (hclass : IsClass first (first :: others))
    (hu : union? specifier first others = some u)
    (hw : (uniqueNames kind (first :: others)).head? = some w) :
    (∃ b ∈ u.bindings, b.kind = kind.ofBindings ∧ b.localName = w) ∧
    ∀ x ∈ uniqueNames kind (first :: others), x ≠ w → ∃ a ∈ u.ambiguities,
      a.specifier = specifier ∧ a.kind = kind ∧ a.kept = w ∧ x ∈ a.dropped := by
  cases hform : first.form with
  | es typeOnly => exact first_wins_of_union_es hclass hform hu hw
  | commonJs k => exact first_wins_of_union_commonJs hclass hform hu hw

end ImportRepair
