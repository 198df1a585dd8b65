import ImportRepair.Proofs.Merge.Members

/-!
# What a union loses

A union has one place for each local name of a named binding and one place for
the default name, the alias and the whole module.  A binding that finds its
place taken is lost: an ambiguity reports the names of the single places, and
nothing reports a named binding whose local name stands for another export.
-/

namespace ImportRepair

variable {specifier : Text} {first s : Statement} {others ss : List Statement} {u : Union}
variable {b e : Binding} {typeOnly : Bool} {unique : UniqueKind}

/-! ### The three fates of a binding -/

/-- The union binds the local name to the same export, as a binding of the same kind. -/
def Union.Keeps (u : Union) (b : Binding) : Prop :=
  ∃ e ∈ u.bindings, e.kind = b.kind ∧ e.imported = b.imported ∧ e.localName = b.localName

/-- An ambiguity drops the local name in favour of another binding of the kind. -/
def Union.Reports (specifier : Text) (u : Union) (b : Binding) : Prop :=
  ∃ a ∈ u.ambiguities, a.specifier = specifier ∧ a.kind.ofBindings = b.kind ∧
    b.localName ∈ a.dropped ∧ ∃ e ∈ u.bindings, e.kind = b.kind ∧ e.localName = a.kept

/-- The binding is a named one, and its local name stands for another export, which the first
    value or else the first type of that local name brings along. -/
def Union.Displaces (ss : List Statement) (u : Union) (b : Binding) : Prop :=
  b.kind = .named ∧ ∃ e ∈ u.bindings, Represents (ss.flatMap Statement.named) e ∧
    e.localName = b.localName ∧ e.imported ≠ b.imported

instance (u : Union) (b : Binding) : Decidable (u.Keeps b) :=
  inferInstanceAs (Decidable (∃ e ∈ u.bindings, _))

theorem kind_cases (kind : BindingKind) : kind = .named ∨ ∃ unique : UniqueKind,
    kind = unique.ofBindings := by
  cases kind with
  | defaultName => exact Or.inr ⟨.defaultName, rfl⟩
  | namespaceAlias => exact Or.inr ⟨.namespaceAlias, rfl⟩
  | named => exact Or.inl rfl
  | wholeRequire => exact Or.inr ⟨.wholeRequire, rfl⟩

theorem UniqueKind.ofBindings_ne_named (unique : UniqueKind) : unique.ofBindings ≠ .named := by
  cases unique <;> decide

/-- Only a named binding records an export. -/
theorem imported_eq_none (h : s.IsAdmitted) (hb : b ∈ s.bindings) (hkind : b.kind ≠ .named) :
    b.imported = none := by
  unfold Statement.IsAdmitted at h
  cases hform : s.form with
  | es typeOnly =>
    rw [hform] at h
    rcases isDefault_or_isAlias_or_isItem h hb with hb | hb | hb
    · rw [hb.2]
    · rw [hb.2]
    · exact absurd hb.1.2.1 hkind
  | commonJs k =>
    rw [hform] at h
    rcases isWhole_or_isItem h hb with hb | hb
    · rw [hb.2]
    · exact absurd hb.1.2.1 hkind

/-! ### Named bindings -/

namespace IsUnion

variable (hu : IsUnion specifier typeOnly ss u)

include hu

/-- A named binding stays, or the representative of its local name stands in its place. -/
theorem keeps_or_displaces (hs : s ∈ ss) (hb : b ∈ s.bindings) (hkind : b.kind = .named) :
    u.Keeps b ∨ u.Displaces ss b := by
  have hnamed : b ∈ ss.flatMap Statement.named :=
    List.mem_flatMap.2 ⟨s, hs, mem_named_iff.2 ⟨hb, hkind⟩⟩
  obtain ⟨e, he, hname⟩ := hu.entries b hnamed
  obtain ⟨hmem, hkind'⟩ := List.mem_filter.1 he
  by_cases himported : e.imported = b.imported
  · left
    exact ⟨e, hmem, by rw [hkind]; exact of_decide_eq_true hkind', himported, hname⟩
  · right
    exact ⟨hkind, e, hmem, (hu.entry e).1 he, hname, himported⟩

theorem eq_of_localName {e' : Binding} (he : e ∈ u.named) (he' : e' ∈ u.named)
    (hname : e.localName = e'.localName) : e = e' := by
  have hnodup : (u.named.map (·.localName)).Nodup := by
    apply List.pairwise_map.2
    apply hu.increasing.imp
    intro a b hlt heq
    exact List.lt_irrefl _ (heq ▸ hlt)
  exact List.inj_on_of_nodup_map hnodup he he' hname

theorem not_displaces_of_keeps (h : u.Keeps b) : ¬ u.Displaces ss b := by
  rintro ⟨hkind, e', he', hrep, hname', himported'⟩
  obtain ⟨e, he, hkind', himported, hname⟩ := h
  have hmem : e ∈ u.named := List.mem_filter.2 ⟨he, by simp [hkind', hkind]⟩
  have hmem' : e' ∈ u.named := (hu.entry e').2 hrep
  have heq : e = e' := hu.eq_of_localName hmem hmem' (hname.trans hname'.symm)
  exact himported' (heq ▸ himported)

/-! ### Bindings of a kind with one place -/

theorem mem_bindings_of_mem_firstOf (h : e ∈ firstOf unique.ofBindings typeOnly ss) :
    e ∈ u.bindings := by
  rw [hu.order]
  cases unique with
  | defaultName => simp [show e ∈ firstOf .defaultName typeOnly ss from h]
  | namespaceAlias => simp [show e ∈ firstOf .namespaceAlias typeOnly ss from h]
  | wholeRequire => simp [show e ∈ firstOf .wholeRequire typeOnly ss from h]

theorem mem_firstOf_of_mem_bindings (he : e ∈ u.bindings) (hkind : e.kind = unique.ofBindings) :
    e ∈ firstOf unique.ofBindings typeOnly ss := by
  rw [hu.order] at he
  have hother : ∀ kind, e ∈ firstOf kind typeOnly ss → e ∈ firstOf unique.ofBindings typeOnly ss :=
    fun kind h => by rwa [← hkind, (mem_firstOf h).1]
  simp only [List.mem_append] at he
  rcases he with ((he | he) | he) | he
  · exact hother _ he
  · exact hother _ he
  · exact hother _ he
  · have hnamed : e.kind = .named := of_decide_eq_true (List.mem_filter.1 he).2
    exact absurd (hkind.symm.trans hnamed) unique.ofBindings_ne_named

/-- The first name of a kind stays, and an ambiguity reports every other one. -/
theorem keeps_or_reports (hs : s ∈ ss) (hadmitted : s.IsAdmitted) (hb : b ∈ s.bindings)
    (hkind : b.kind = unique.ofBindings) : u.Keeps b ∨ u.Reports specifier b := by
  have hmem : b.localName ∈ namesOf unique.ofBindings ss :=
    mem_namesOf_iff.2 ⟨s, hs, b, hb, hkind, rfl⟩
  obtain ⟨w, ws, hnames⟩ := List.exists_cons_of_ne_nil (List.ne_nil_of_mem hmem)
  have hhead : (namesOf unique.ofBindings ss).head? = some w := by rw [hnames]; rfl
  have hfirst : { localName := w, kind := unique.ofBindings, typeOnly } ∈ u.bindings := by
    have hmem : { localName := w, kind := unique.ofBindings, typeOnly } ∈
        firstOf unique.ofBindings typeOnly ss := by
      rw [firstOf, hhead]
      exact List.mem_singleton.2 rfl
    exact hu.mem_bindings_of_mem_firstOf hmem
  by_cases hw : b.localName = w
  · left
    have himported : b.imported = none :=
      imported_eq_none hadmitted hb (hkind ▸ unique.ofBindings_ne_named)
    exact ⟨_, hfirst, hkind.symm, himported.symm, hw.symm⟩
  · right
    obtain ⟨a, ha, -, hunique, hkept, hdropped⟩ :=
      exists_ambiguity_of_ne specifier unique hhead hmem hw
    obtain ⟨hspecifier, -, hne, heq⟩ := ambiguity?_eq_some_iff.1 (Option.mem_toList.1 ha)
    have hambiguity : a ∈ u.ambiguities :=
      (hu.ambiguity a).2 ⟨hspecifier, hne, by rw [hunique, heq]⟩
    exact ⟨a, hambiguity, hspecifier, by rw [hunique, hkind], hdropped, _, hfirst, hkind.symm,
      hkept.symm⟩

theorem not_reports_of_keeps (h : u.Keeps b) : ¬ u.Reports specifier b := by
  rintro ⟨a, ha, -, hkind, hdropped, -⟩
  obtain ⟨e, he, hkind', -, hname⟩ := h
  obtain ⟨-, -, heq⟩ := (hu.ambiguity a).1 ha
  -- `e` is the first binding of its kind, so its name is the one that the ambiguity keeps
  have hkept : e.localName = a.kept := by
    have hfirst := hu.mem_firstOf_of_mem_bindings he (hkind'.trans hkind.symm)
    obtain ⟨n, hn, rfl⟩ := List.mem_map.1 hfirst
    obtain ⟨ns, hns⟩ := List.head?_eq_some_iff.1 (Option.mem_toList.1 hn)
    rw [hns, List.eraseDups_cons] at heq
    exact (List.cons.inj heq).1
  have hnodup : (a.kept :: a.dropped).Nodup := heq ▸ nodup_eraseDups _
  exact (List.nodup_cons.1 hnodup).1 (hkept ▸ hname ▸ hdropped)

end IsUnion

/-! ### Every binding has one fate -/

theorem isClass_of_read (hread : ∀ s ∈ first :: others, ∃ t n, Statement.ofLine? t n = some s)
    (hkey : ∀ s ∈ others, s.mergeKey = first.mergeKey) : IsClass first (first :: others) := by
  intro s hs
  obtain ⟨t, n, ht⟩ := hread s hs
  have hsame : s.mergeKey = first.mergeKey := (List.mem_cons.1 hs).elim (fun h => h ▸ rfl) (hkey s)
  exact ⟨hsame, (Statement.isRead_of_ofLine? ht).admits⟩

/-- **A binding of a merged statement has exactly one fate.**  It is a binding of the union, or an
    ambiguity reports that it is dropped, or it is a named binding whose local name already stands
    for another export.  The last is not reported. -/
theorem fate_of_union (hread : ∀ s ∈ first :: others, ∃ t n, Statement.ofLine? t n = some s)
    (hkey : ∀ s ∈ others, s.mergeKey = first.mergeKey)
    (hunion : union? specifier first others = some u) :
    ∀ s ∈ first :: others, ∀ b ∈ s.bindings,
      (u.Keeps b ∨ u.Reports specifier b ∨ u.Displaces (first :: others) b) ∧
        (u.Keeps b → ¬ u.Reports specifier b ∧ ¬ u.Displaces (first :: others) b) ∧
        (u.Reports specifier b → ¬ u.Displaces (first :: others) b) := by
  intro s hs b hb
  have hclass := isClass_of_read hread hkey
  have hu := isUnion_of_isClass hclass hunion
  refine ⟨?_, fun hkeeps => ⟨hu.not_reports_of_keeps hkeeps, hu.not_displaces_of_keeps hkeeps⟩, ?_⟩
  · rcases kind_cases b.kind with hkind | ⟨unique, hkind⟩
    · exact (hu.keeps_or_displaces hs hb hkind).imp id Or.inr
    · exact (hu.keeps_or_reports hs (hclass s hs).2 hb hkind).imp id Or.inl
  · rintro ⟨a, -, -, hkind, -, -⟩ ⟨hnamed, -⟩
    exact a.kind.ofBindings_ne_named (hkind.trans hnamed)

/-- The default name `Y` is reported, and `b` loses its local name to `a`. -/
theorem fate_of_union_renamed :
    let line := "import X, { a as c } from 'm'"
    let line' := "import Y, { b as c } from 'm'"
    let a : Binding := { localName := "c".toList, imported := some "a".toList }
    let b : Binding := { localName := "c".toList, imported := some "b".toList }
    let first : Statement :=
      { specifier := "m".toList, bindings := [defaultOf false "X".toList, a]
        line := 1, raw := line.toList, form := .es false, quote := .single, semicolon := false
        indent := [], trailing := [] }
    let second : Statement :=
      { first with bindings := [defaultOf false "Y".toList, b], line := 2, raw := line'.toList }
    let u : Union :=
      ⟨[defaultOf false "X".toList, a], [⟨"m".toList, .defaultName, "X".toList, ["Y".toList]⟩]⟩
    Statement.ofLine? line.toList 1 = some first ∧ Statement.ofLine? line'.toList 2 = some second ∧
      second.mergeKey = first.mergeKey ∧ union? "m".toList first [second] = some u ∧
      u.Keeps a ∧ u.Reports "m".toList (defaultOf false "Y".toList) ∧
      u.Displaces [first, second] b := by
  intro line line' a b first second u
  have hfirst : Statement.ofLine? line.toList 1 = some first := by decide +kernel
  have hsecond : Statement.ofLine? line'.toList 2 = some second := by decide +kernel
  have hread : ∀ s ∈ [first, second], ∃ t n, Statement.ofLine? t n = some s := by
    intro s hs
    rcases List.mem_pair.1 hs with rfl | rfl
    · exact ⟨_, _, hfirst⟩
    · exact ⟨_, _, hsecond⟩
  have hkey : ∀ s ∈ [second], s.mergeKey = first.mergeKey := by decide +kernel
  have hunion : union? "m".toList first [second] = some u := by
    rw [union?, namedUnion_of_pairwise (by decide +kernel)]
    decide +kernel
  have hfate := fate_of_union hread hkey hunion
  have hdropped : ¬ u.Keeps (defaultOf false "Y".toList) := by decide +kernel
  have hlost : ¬ u.Keeps b := by decide +kernel
  refine ⟨hfirst, hsecond, rfl, hunion, by decide +kernel, ?_, ?_⟩
  · rcases (hfate second (by simp) (defaultOf false "Y".toList) (by simp [second])).1 with h | h | h
    · exact absurd h hdropped
    · exact h
    · exact absurd h.1 (by decide)
  · rcases (hfate second (by simp) b (by simp [second])).1 with h | ⟨a, -, -, hkind, -⟩ | h
    · exact absurd h hlost
    · exact absurd hkind a.kind.ofBindings_ne_named
    · exact h

/-- Two exports of one local name: the second is lost, and no ambiguity names it. -/
theorem union_loses_unreported :
    let line := "import { a as x } from 'm';"
    let line' := "import { b as x } from 'm';"
    let a : Binding := { localName := "x".toList, imported := some "a".toList }
    let b : Binding := { localName := "x".toList, imported := some "b".toList }
    let first : Statement :=
      { specifier := "m".toList, bindings := [a]
        line := 1, raw := line.toList, form := .es false, quote := .single, semicolon := true
        indent := [], trailing := [] }
    let second : Statement := { first with bindings := [b], line := 2, raw := line'.toList }
    let u : Union := ⟨[a], []⟩
    Statement.ofLine? line.toList 1 = some first ∧ Statement.ofLine? line'.toList 2 = some second ∧
      second.mergeKey = first.mergeKey ∧ union? "m".toList first [second] = some u ∧
      ¬ u.Keeps b ∧ ¬ ∃ a ∈ u.ambiguities, b.localName ∈ a.dropped := by
  intro line line' a b first second u
  have hunion : union? "m".toList first [second] = some u := by
    rw [union?, namedUnion_of_pairwise (by decide +kernel)]
    decide +kernel
  exact ⟨by decide +kernel, by decide +kernel, rfl, hunion, by decide +kernel, by decide +kernel⟩

end ImportRepair
