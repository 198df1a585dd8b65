import ImportRepair.Proofs.Grouping
import ImportRepair.Proofs.Import.RoundTrip
import ImportRepair.Proofs.Merge.Union
import ImportRepair.Proofs.Text.Order
import Mathlib.Data.List.Induction
import Mathlib.Logic.Function.Basic

/-!
# The members of a union

A union consists of the first default name or the first whole module, the first
alias, and one named binding for each local name, in the order of the names.
Named bindings of one local name are settled as they are read: the first one
stays, except that a value takes the place of a type.
-/

namespace ImportRepair

variable {specifier n : Text} {s first : Statement} {others ss : List Statement} {u : Union}
variable {b e : Binding} {bs : List Binding} {typeOnly : Bool} {k : Keyword}

/-! ### One binding for each local name -/

/-- The entries by local name, after one more binding is read. -/
def enterBinding (entries : Text → Option Binding) (b : Binding) : Text → Option Binding :=
  match entries b.localName with
  | none => Function.update entries b.localName (some b)
  | some e =>
    if e.typeOnly && !b.typeOnly then Function.update entries b.localName (some b) else entries

theorem enterBinding_of_ne (entries : Text → Option Binding) (h : n ≠ b.localName) :
    enterBinding entries b n = entries n := by
  rw [enterBinding]
  cases entries b.localName with
  | none => exact Function.update_of_ne h _ _
  | some e =>
    dsimp only
    split
    · exact Function.update_of_ne h _ _
    · rfl

theorem representative?_eq (bs : List Binding) (n : Text) : representative? bs n =
    ((bs.find? fun b => b.localName == n && !b.typeOnly).or (bs.find? (·.localName == n))) := by
  rw [representative?, List.find?_filter, List.head?_filter]
  simp only [Bool.decide_and, Bool.decide_eq_true]
  cases bs.find? fun b => b.localName == n && !b.typeOnly <;> rfl

theorem find?_value_eq_none (h : (bs.find? fun b => b.localName == n && !b.typeOnly) = none)
    (he : bs.find? (·.localName == n) = some e) : e.typeOnly = true := by
  have hname : e.localName = n := by simpa using List.find?_some he
  simpa [hname] using List.find?_eq_none.1 h e (List.mem_of_find?_eq_some he)

/-- What one more binding changes: the entry of its own local name at most. -/
theorem representative?_concat (bs : List Binding) (b : Binding) :
    representative? (bs ++ [b]) = enterBinding (representative? bs) b := by
  funext n
  by_cases hname : b.localName = n
  · subst hname
    rw [enterBinding]
    cases hvalue : bs.find? fun a => a.localName == b.localName && !a.typeOnly with
    | some v =>
      have hv : v.typeOnly = false := by
        have hfound := List.find?_some hvalue
        simp only [Bool.and_eq_true, Bool.not_eq_true'] at hfound
        exact hfound.2
      simp [representative?_eq, List.find?_append, hvalue, hv]
    | none =>
      cases hany : bs.find? (·.localName == b.localName) with
      | none =>
        cases hb : b.typeOnly <;>
          simp [representative?_eq, List.find?_append, hvalue, hany, hb]
      | some e =>
        have he := find?_value_eq_none hvalue hany
        cases hb : b.typeOnly <;>
          simp [representative?_eq, List.find?_append, hvalue, hany, he, hb]
  · rw [enterBinding_of_ne _ (Ne.symm hname)]
    simp [representative?_eq, List.find?_append, hname]

/-- **The representatives are the entries of one pass over the bindings.** -/
theorem representative?_eq_foldl (bs : List Binding) :
    representative? bs = bs.foldl enterBinding fun _ => none := by
  induction bs using List.reverseRecOn with
  | nil => rfl
  | append_singleton bs b ih => rw [representative?_concat, ih, List.foldl_concat]

/-- The binding is the first value of its local name, or the first type where there is no value. -/
inductive Represents (bs : List Binding) (b : Binding) : Prop
  | value {before after : List Binding} (heq : bs = before ++ b :: after)
      (hvalue : b.typeOnly = false)
      (hfirst : ∀ a ∈ before, a.localName = b.localName → a.typeOnly = true)
  | type {before after : List Binding} (heq : bs = before ++ b :: after)
      (hfirst : ∀ a ∈ before, a.localName ≠ b.localName)
      (htypes : ∀ a ∈ bs, a.localName = b.localName → a.typeOnly = true)

theorem representative?_eq_some_iff :
    representative? bs n = some b ↔ b.localName = n ∧ Represents bs b := by
  rw [representative?_eq, Option.or_eq_some_iff]
  constructor
  · rintro (hvalue | ⟨hnone, hany⟩)
    · obtain ⟨hb, before, after, heq, hfirst⟩ := List.find?_eq_some_iff_append.1 hvalue
      simp only [Bool.and_eq_true, beq_iff_eq, Bool.not_eq_true'] at hb hfirst
      obtain ⟨rfl, hb⟩ := hb
      exact ⟨rfl, .value heq hb fun a ha hname => by simpa [hname] using hfirst a ha⟩
    · obtain ⟨hb, before, after, heq, hfirst⟩ := List.find?_eq_some_iff_append.1 hany
      simp only [beq_iff_eq, Bool.not_eq_true', beq_eq_false_iff_ne] at hb hfirst
      subst hb
      refine ⟨rfl, .type heq hfirst fun a ha hname => ?_⟩
      simpa [hname] using List.find?_eq_none.1 hnone a ha
  · rintro ⟨rfl, hb⟩
    cases hb with
    | value heq hvalue hfirst =>
      refine Or.inl (List.find?_eq_some_iff_append.2 ⟨by simpa using hvalue, _, _, heq, ?_⟩)
      intro a ha
      by_cases hname : a.localName = b.localName
      · simp [hfirst a ha hname]
      · simp [hname]
    | type heq hfirst htypes =>
      refine Or.inr ⟨List.find?_eq_none.2 fun a ha => ?_, List.find?_eq_some_iff_append.2
        ⟨beq_self_eq_true _, _, _, heq, fun a ha => by simpa using hfirst a ha⟩⟩
      by_cases hname : a.localName = b.localName
      · simp [htypes a ha hname]
      · simp [hname]

/-! ### Named bindings in order -/

theorem map_localName_namedUnion (ss : List Statement) : (namedUnion ss).map (·.localName) =
    ((ss.flatMap Statement.named).map (·.localName)).eraseDups.mergeSort Text.le := by
  rw [namedUnion, List.map_filterMap]
  conv_rhs => rw [← List.filterMap_some (l := List.mergeSort _ _)]
  refine List.filterMap_congr fun n hn => ?_
  rw [List.mem_mergeSort, List.mem_eraseDups] at hn
  obtain ⟨b, hb, rfl⟩ := List.mem_map.1 hn
  obtain ⟨b', hb'⟩ := exists_representative? hb
  rw [hb', Option.map_some, (mem_of_representative? hb').2]

/-- The named bindings stand in the order of their names, each name once. -/
theorem pairwise_namedUnion (ss : List Statement) :
    (namedUnion ss).Pairwise fun a b => a.localName < b.localName := by
  have hsorted : ((namedUnion ss).map (·.localName)).Pairwise fun t u => Text.le t u = true := by
    rw [map_localName_namedUnion]
    exact List.pairwise_mergeSort (fun t u v => @Text.le_trans t u v) Text.le_total _
  have hnodup : ((namedUnion ss).map (·.localName)).Nodup := by
    rw [map_localName_namedUnion, (List.mergeSort_perm _ _).nodup_iff]
    exact nodup_eraseDups _
  exact (List.pairwise_map.1 (hsorted.and hnodup)).imp fun h => Text.lt_of_le_of_ne h.1 h.2

/-- **The named bindings of a union are the representatives.** -/
theorem mem_namedUnion_iff : b ∈ namedUnion ss ↔ Represents (ss.flatMap Statement.named) b := by
  simp only [namedUnion, List.mem_filterMap, List.mem_mergeSort, List.mem_eraseDups,
    representative?_eq_some_iff]
  constructor
  · rintro ⟨n, -, -, hb⟩
    exact hb
  · intro hb
    have hmem := (mem_of_representative? (representative?_eq_some_iff.2 ⟨rfl, hb⟩)).1
    exact ⟨b.localName, List.mem_map.2 ⟨b, hmem, rfl⟩, rfl, hb⟩

/-! ### Names by kind -/

variable {kind : BindingKind} {unique : UniqueKind}

/-- The local names of one kind, in the order of the statements. -/
def namesOf (kind : BindingKind) (ss : List Statement) : List Text :=
  ss.flatMap fun s => (s.bindings.filter (·.kind = kind)).map (·.localName)

/-- Some of the statements binds a name of this kind. -/
def SomeBinds (ss : List Statement) (kind : BindingKind) : Prop :=
  ∃ s ∈ ss, ∃ b ∈ s.bindings, b.kind = kind

instance : Decidable (SomeBinds ss kind) := inferInstanceAs (Decidable (∃ s ∈ ss, _))

theorem mem_namesOf_iff :
    n ∈ namesOf kind ss ↔ ∃ s ∈ ss, ∃ b ∈ s.bindings, b.kind = kind ∧ b.localName = n := by
  simp [namesOf, and_assoc]

theorem namesOf_ne_nil_iff (kind : BindingKind) : namesOf kind ss ≠ [] ↔ SomeBinds ss kind := by
  rw [SomeBinds, Ne, List.eq_nil_iff_forall_not_mem]
  simp only [mem_namesOf_iff, not_forall, not_not]
  constructor
  · rintro ⟨n, s, hs, b, hb, hkind, -⟩
    exact ⟨s, hs, b, hb, hkind⟩
  · rintro ⟨s, hs, b, hb, hkind⟩
    exact ⟨b.localName, s, hs, b, hb, hkind, rfl⟩

theorem namesOf_eq_nil (h : ∀ s ∈ ss, ∀ b ∈ s.bindings, b.kind ≠ kind) : namesOf kind ss = [] := by
  by_contra hne
  obtain ⟨s, hs, b, hb, hkind⟩ := (namesOf_ne_nil_iff _).1 hne
  exact h s hs b hb hkind

theorem namedUnion_ne_nil_iff : namedUnion ss ≠ [] ↔ SomeBinds ss .named := by
  rw [Ne, namedUnion_eq_nil_iff, SomeBinds]
  simp only [List.eq_nil_iff_forall_not_mem, mem_named_iff, not_forall, not_not, exists_prop]

theorem countP_kind (h : ∀ b ∈ bs, b.kind = kind) (kind' : BindingKind) :
    bs.countP (·.kind = kind') = if kind = kind' then bs.length else 0 := by
  split
  · next heq => exact List.countP_eq_length.2 fun b hb => by simp [h b hb, heq]
  · next hne => exact List.countP_eq_zero.2 fun b hb => by simp [h b hb, hne]

/-- A statement binds at most one name of a kind, the named bindings apart. -/
theorem Statement.IsAdmitted.countP_kind_le_one (h : s.IsAdmitted) (unique : UniqueKind) :
    s.bindings.countP (·.kind = unique.ofBindings) ≤ 1 := by
  unfold Statement.IsAdmitted at h
  cases hform : s.form with
  | es typeOnly =>
    rw [hform] at h
    obtain ⟨defaults, aliases, items, hbs, h⟩ := h
    rw [hbs, List.countP_append, List.countP_append,
      countP_kind fun b hb => (h.isDefault b hb).kind_eq,
      countP_kind fun b hb => (h.isAlias b hb).kind_eq,
      countP_kind fun b hb => (h.isItem b hb).1.2.1]
    have hdefaults := h.defaults_le
    have haliases := h.aliases_le
    cases unique <;> simp [UniqueKind.ofBindings, hdefaults, haliases]
  | commonJs k =>
    rw [hform] at h
    rcases h with ⟨b, -, hbs⟩ | h
    · rw [hbs]
      exact List.countP_le_length
    · rw [countP_kind fun b hb => (h b hb).1.2.1]
      cases unique <;> simp [UniqueKind.ofBindings]

theorem Statement.IsAdmitted.filter_kind (h : s.IsAdmitted) (unique : UniqueKind) :
    s.bindings.filter (·.kind = unique.ofBindings) =
      (s.bindings.find? (·.kind = unique.ofBindings)).toList := by
  have hle := h.countP_kind_le_one unique
  rw [List.countP_eq_length_filter] at hle
  rw [← List.head?_filter]
  rcases eq_nil_or_singleton hle with hnil | ⟨b, hb⟩
  · rw [hnil]
    rfl
  · rw [hb]
    rfl

theorem namesOf_eq_uniqueNames (h : ∀ s ∈ ss, s.IsAdmitted) (unique : UniqueKind) :
    namesOf unique.ofBindings ss = uniqueNames unique ss := by
  rw [uniqueNames, List.filterMap_eq_flatMap_toList, namesOf]
  refine List.flatMap_congr fun s hs => ?_
  rw [(h s hs).filter_kind unique, Option.toList_map]

/-! ### The union of a class -/

/-- One statement cannot hold the bindings of all of these. -/
def Clash (typeOnly : Bool) (ss : List Statement) : Prop :=
  (SomeBinds ss .named ∧ (SomeBinds ss .namespaceAlias ∨ SomeBinds ss .wholeRequire)) ∨
    (typeOnly = true ∧ SomeBinds ss .defaultName ∧
      (SomeBinds ss .named ∨ SomeBinds ss .namespaceAlias))

/-- The first name of a kind, bound. -/
def firstOf (kind : BindingKind) (typeOnly : Bool) (ss : List Statement) : List Binding :=
  (namesOf kind ss).head?.toList.map fun n => { localName := n, kind, typeOnly }

/-- The bindings of a union by their kind, with an ambiguity for each kind that needs one. -/
def unionOf (specifier : Text) (typeOnly : Bool) (ss : List Statement) : Union :=
  ⟨firstOf .defaultName typeOnly ss ++ firstOf .wholeRequire typeOnly ss ++
      firstOf .namespaceAlias typeOnly ss ++ namedUnion ss,
    [.defaultName, .namespaceAlias, .wholeRequire].filterMap fun unique =>
      ambiguity? specifier unique (namesOf unique.ofBindings ss)⟩

theorem unionOf_ambiguities (specifier : Text) (typeOnly : Bool) (ss : List Statement) :
    (unionOf specifier typeOnly ss).ambiguities =
      (ambiguity? specifier .defaultName (namesOf .defaultName ss)).toList ++
        (ambiguity? specifier .namespaceAlias (namesOf .namespaceAlias ss)).toList ++
        (ambiguity? specifier .wholeRequire (namesOf .wholeRequire ss)).toList := by
  simp [unionOf, List.filterMap_eq_flatMap_toList, UniqueKind.ofBindings]

theorem isExpressible_iff (hdefaults : defaultNames ss = namesOf .defaultName ss)
    (haliases : aliasNames ss = namesOf .namespaceAlias ss)
    (hwhole : namesOf .wholeRequire ss = []) :
    IsExpressible typeOnly ss ↔ ¬ Clash typeOnly ss := by
  have hparts : IsExpressible typeOnly ss ↔ (aliasNames ss = [] ∨ namedUnion ss = []) ∧
      (typeOnly = true → defaultNames ss = [] ∨ (aliasNames ss = [] ∧ namedUnion ss = [])) :=
    ⟨fun h => ⟨h.apart, h.alone⟩, fun h => ⟨h.1, h.2⟩⟩
  rw [hparts, hdefaults, haliases, Clash, ← namesOf_ne_nil_iff .defaultName,
    ← namesOf_ne_nil_iff .namespaceAlias, ← namesOf_ne_nil_iff .wholeRequire,
    ← namedUnion_ne_nil_iff, hwhole]
  grind

theorem union?_es_iff (hclass : IsClass first (first :: others)) (hform : first.form = .es typeOnly) :
    union? specifier first others = some u ↔ ¬ Clash typeOnly (first :: others) ∧
      u = unionOf specifier typeOnly (first :: others) := by
  have hadmitted : ∀ s ∈ first :: others, s.IsAdmitted := fun s hs => (hclass s hs).2
  have hkinds := hclass.kind_es hform
  have hdefaults : defaultNames (first :: others) = namesOf .defaultName (first :: others) := by
    have hunique : uniqueNames .defaultName (first :: others) = defaultNames (first :: others) :=
      uniqueNames_eq_defaultNames fun s hs b hb => or_iff_left (hkinds s hs b hb)
    rw [← hunique]
    exact (namesOf_eq_uniqueNames hadmitted .defaultName).symm
  have haliases : aliasNames (first :: others) = namesOf .namespaceAlias (first :: others) :=
    (namesOf_eq_uniqueNames hadmitted .namespaceAlias).symm
  have hnil : namesOf .wholeRequire (first :: others) = [] := namesOf_eq_nil hkinds
  have hunion : unionOf specifier typeOnly (first :: others) =
      ⟨clauseUnion typeOnly (first :: others),
        (ambiguity? specifier .defaultName (defaultNames (first :: others))).toList ++
          (ambiguity? specifier .namespaceAlias (aliasNames (first :: others))).toList⟩ := by
    refine congrArg₂ Union.mk ?_ ?_
    · rw [clauseUnion, hdefaults, haliases, firstOf, firstOf, firstOf, hnil]
      simp only [List.head?_nil, Option.toList_none, List.map_nil, List.append_nil]
      rfl
    · rw [hdefaults, haliases]
      refine (unionOf_ambiguities specifier typeOnly _).trans ?_
      rw [hnil]
      exact List.append_nil _
  rw [union?_es_eq_some_iff specifier hform, isExpressible_iff hdefaults haliases hnil, hunion]

theorem union?_commonJs_iff (hclass : IsClass first (first :: others))
    (hform : first.form = .commonJs k) :
    union? specifier first others = some u ↔ ¬ Clash false (first :: others) ∧
      u = unionOf specifier false (first :: others) := by
  have hadmitted : ∀ s ∈ first :: others, s.IsAdmitted := fun s hs => (hclass s hs).2
  have hkinds := hclass.kind_commonJs hform
  have hwhole : defaultNames (first :: others) = namesOf .wholeRequire (first :: others) := by
    have hunique : uniqueNames .wholeRequire (first :: others) = defaultNames (first :: others) :=
      uniqueNames_eq_defaultNames fun s hs b hb => or_iff_right (hkinds s hs b hb).1
    rw [← hunique]
    exact (namesOf_eq_uniqueNames hadmitted .wholeRequire).symm
  have hdefaults : namesOf .defaultName (first :: others) = [] :=
    namesOf_eq_nil fun s hs b hb => (hkinds s hs b hb).1
  have haliases : namesOf .namespaceAlias (first :: others) = [] :=
    namesOf_eq_nil fun s hs b hb => (hkinds s hs b hb).2
  have hclash : Clash false (first :: others) ↔
      namedUnion (first :: others) ≠ [] ∧ namesOf .wholeRequire (first :: others) ≠ [] := by
    rw [Clash, ← namesOf_ne_nil_iff .namespaceAlias, haliases, ← namedUnion_ne_nil_iff,
      namesOf_ne_nil_iff]
    simp
  have hunion : unionOf specifier false (first :: others) =
      ⟨firstOf .wholeRequire false (first :: others) ++ namedUnion (first :: others),
        (ambiguity? specifier .wholeRequire (namesOf .wholeRequire (first :: others))).toList⟩ := by
    refine congrArg₂ Union.mk ?_ ?_
    · simp [firstOf, hdefaults, haliases]
    · refine (unionOf_ambiguities specifier false _).trans ?_
      rw [hdefaults, haliases]
      rfl
  rw [union?_commonJs_eq_some_iff hform, hclash, hunion, hwhole]
  cases hnames : namesOf .wholeRequire (first :: others) with
  | nil => simp [firstOf, hnames, ambiguity?]
  | cons n ns =>
    by_cases hnamed : namedUnion (first :: others) = []
    · simp [firstOf, hnames, hnamed, wholeOf]
    · simp [hnamed]

/-- **A class has a union unless its bindings clash.** -/
theorem union?_eq_some_iff (hclass : IsClass first (first :: others)) :
    union? specifier first others = some u ↔ ¬ Clash first.form.typeOnly (first :: others) ∧
      u = unionOf specifier first.form.typeOnly (first :: others) := by
  cases hform : first.form with
  | es typeOnly => exact union?_es_iff hclass hform
  | commonJs k => exact union?_commonJs_iff hclass hform

/-! ### What a union consists of -/

def Union.named (u : Union) : List Binding := u.bindings.filter (·.kind = .named)

/-- What a union consists of: the first default name or the first whole module, the first alias,
    and the representatives of the named bindings in the order of their names.  The ambiguities
    list the other names of each kind. -/
structure IsUnion (specifier : Text) (typeOnly : Bool) (ss : List Statement) (u : Union) :
    Prop where
  order : u.bindings = firstOf .defaultName typeOnly ss ++ firstOf .wholeRequire typeOnly ss ++
    firstOf .namespaceAlias typeOnly ss ++ u.named
  apart : firstOf .defaultName typeOnly ss = [] ∨ firstOf .wholeRequire typeOnly ss = []
  increasing : u.named.Pairwise fun a b => a.localName < b.localName
  entry : ∀ b, b ∈ u.named ↔ Represents (ss.flatMap Statement.named) b
  entries : ∀ b ∈ ss.flatMap Statement.named, ∃ e ∈ u.named, e.localName = b.localName
  names : ∀ n, (∃ s ∈ ss, n ∈ s.boundNames) ↔
    n ∈ u.bindings.map (·.localName) ∨ ∃ a ∈ u.ambiguities, n ∈ a.dropped
  ambiguity : ∀ a, a ∈ u.ambiguities ↔ a.specifier = specifier ∧ a.dropped ≠ [] ∧
    (namesOf a.kind.ofBindings ss).eraseDups = a.kept :: a.dropped
  once : (u.ambiguities.map (·.kind)).Nodup

theorem ambiguity?_eq_some_iff {names : List Text} {a : Ambiguity} :
    ambiguity? specifier unique names = some a ↔ a.specifier = specifier ∧ a.kind = unique ∧
      a.dropped ≠ [] ∧ names.eraseDups = a.kept :: a.dropped := by
  obtain ⟨module, kind, kept, dropped⟩ := a
  unfold ambiguity?
  split
  · next k d ds heq =>
    simp only [Option.some.injEq, Ambiguity.mk.injEq, heq, List.cons.injEq]
    constructor
    · rintro ⟨rfl, rfl, rfl, rfl⟩
      exact ⟨rfl, rfl, List.cons_ne_nil _ _, rfl, rfl⟩
    · rintro ⟨rfl, rfl, -, rfl, rfl⟩
      exact ⟨rfl, rfl, rfl, rfl⟩
  · next hshort =>
    simp only [reduceCtorEq, false_iff]
    rintro ⟨-, -, hne, heq⟩
    obtain ⟨d, ds, rfl⟩ := List.exists_cons_of_ne_nil hne
    exact hshort kept d ds heq

theorem mem_ambiguities_unionOf {a : Ambiguity} :
    a ∈ (unionOf specifier typeOnly ss).ambiguities ↔ a.specifier = specifier ∧ a.dropped ≠ [] ∧
      (namesOf a.kind.ofBindings ss).eraseDups = a.kept :: a.dropped := by
  simp only [unionOf, List.mem_filterMap, ambiguity?_eq_some_iff]
  constructor
  · rintro ⟨unique, -, hspecifier, rfl, hne, heq⟩
    exact ⟨hspecifier, hne, heq⟩
  · rintro ⟨hspecifier, hne, heq⟩
    exact ⟨a.kind, by cases a.kind <;> simp, hspecifier, rfl, hne, heq⟩

theorem nodup_ambiguities_unionOf :
    ((unionOf specifier typeOnly ss).ambiguities.map (·.kind)).Nodup := by
  rw [List.nodup_iff_pairwise_ne, List.pairwise_map, unionOf, List.pairwise_filterMap]
  have hkinds : [UniqueKind.defaultName, .namespaceAlias, .wholeRequire].Pairwise (· ≠ ·) := by
    decide
  refine hkinds.imp fun hne a ha b hb => ?_
  rwa [(ambiguity?_eq_some_iff.1 ha).2.1, (ambiguity?_eq_some_iff.1 hb).2.1]

theorem mem_firstOf (h : b ∈ firstOf kind typeOnly ss) :
    b.kind = kind ∧ b.localName ∈ namesOf kind ss := by
  obtain ⟨n, hn, rfl⟩ := List.mem_map.1 h
  exact ⟨rfl, mem_of_mem_head?_toList hn⟩

theorem named_unionOf : (unionOf specifier typeOnly ss).named = namedUnion ss := by
  have hfirst : ∀ kind, kind ≠ .named → (firstOf kind typeOnly ss).filter (·.kind = .named) = [] :=
    fun kind hne => List.filter_eq_nil_iff.2 fun b hb => by simpa [(mem_firstOf hb).1] using hne
  have hnamed : (namedUnion ss).filter (·.kind = .named) = namedUnion ss := by
    refine List.filter_eq_self.2 fun b hb => ?_
    obtain ⟨s, -, hb⟩ := mem_of_mem_namedUnion hb
    simpa using (mem_named_iff.1 hb).2
  simp [Union.named, unionOf, List.filter_append, hfirst, hnamed]

theorem mem_boundNames_of_mem_namesOf (h : n ∈ namesOf kind ss) : ∃ s ∈ ss, n ∈ s.boundNames := by
  obtain ⟨s, hs, b, hb, -, rfl⟩ := mem_namesOf_iff.1 h
  exact ⟨s, hs, List.mem_map.2 ⟨b, hb, rfl⟩⟩

/-- A union binds no name and drops none that no statement binds. -/
theorem mem_boundNames_of_unionOf
    (h : n ∈ (unionOf specifier typeOnly ss).bindings.map (·.localName) ∨
      ∃ a ∈ (unionOf specifier typeOnly ss).ambiguities, n ∈ a.dropped) :
    ∃ s ∈ ss, n ∈ s.boundNames := by
  rcases h with h | ⟨a, ha, hn⟩
  · obtain ⟨b, hb, rfl⟩ := List.mem_map.1 h
    simp only [unionOf, List.mem_append] at hb
    rcases hb with ((hb | hb) | hb) | hb
    · exact mem_boundNames_of_mem_namesOf (mem_firstOf hb).2
    · exact mem_boundNames_of_mem_namesOf (mem_firstOf hb).2
    · exact mem_boundNames_of_mem_namesOf (mem_firstOf hb).2
    · obtain ⟨s, hs, hb⟩ := mem_of_mem_namedUnion hb
      exact ⟨s, hs, List.mem_map.2 ⟨b, (mem_named_iff.1 hb).1, rfl⟩⟩
  · have hmem : n ∈ (namesOf a.kind.ofBindings ss).eraseDups := by
      rw [(mem_ambiguities_unionOf.1 ha).2.2]
      exact List.mem_cons_of_mem _ hn
    exact mem_boundNames_of_mem_namesOf (List.mem_eraseDups.1 hmem)

theorem firstOf_apart (hclass : IsClass first ss) (typeOnly : Bool) :
    firstOf .defaultName typeOnly ss = [] ∨ firstOf .wholeRequire typeOnly ss = [] := by
  cases hform : first.form with
  | es flag =>
    have hnil : namesOf .wholeRequire ss = [] := namesOf_eq_nil (hclass.kind_es hform)
    exact Or.inr (by rw [firstOf, hnil]; rfl)
  | commonJs k =>
    have hnil : namesOf .defaultName ss = [] :=
      namesOf_eq_nil fun s hs b hb => (hclass.kind_commonJs hform s hs b hb).1
    exact Or.inl (by rw [firstOf, hnil]; rfl)

theorem isUnion_of_isClass (hclass : IsClass first (first :: others))
    (h : union? specifier first others = some u) :
    IsUnion specifier first.form.typeOnly (first :: others) u := by
  have hu := ((union?_eq_some_iff hclass).1 h).2
  have hnamed : u.named = namedUnion (first :: others) := by rw [hu, named_unionOf]
  exact {
    order := by
      rw [hnamed, hu]
      rfl
    apart := firstOf_apart hclass _
    increasing := by
      rw [hnamed]
      exact pairwise_namedUnion _
    entry := fun b => by rw [hnamed, mem_namedUnion_iff]
    entries := fun b hb => by
      obtain ⟨s, hs, hb⟩ := List.mem_flatMap.1 hb
      rw [hnamed]
      exact exists_mem_namedUnion hs hb
    names := fun n => by
      constructor
      · rintro ⟨s, hs, hn⟩
        refine (mem_boundNames_union hclass h hs hn).imp id ?_
        rintro ⟨a, ha, -, hdropped⟩
        exact ⟨a, ha, hdropped⟩
      · rw [hu]
        exact mem_boundNames_of_unionOf
    ambiguity := fun a => by
      rw [hu]
      exact mem_ambiguities_unionOf
    once := by
      rw [hu]
      exact nodup_ambiguities_unionOf }

/-- **The union of statements of one module, style and type flag.**  There is none exactly where
    the bindings clash, and otherwise it consists of what wins. -/
theorem union_of_read (hread : ∀ s ∈ first :: others, ∃ t n, Statement.ofLine? t n = some s)
    (hkey : ∀ s ∈ others, s.mergeKey = first.mergeKey) :
    (union? specifier first others = none ↔ Clash first.form.typeOnly (first :: others)) ∧
      ∀ u, union? specifier first others = some u →
        IsUnion specifier first.form.typeOnly (first :: others) u := by
  have hclass : IsClass first (first :: others) := by
    intro s hs
    obtain ⟨t, n, ht⟩ := hread s hs
    refine ⟨?_, (Statement.isRead_of_ofLine? ht).admits⟩
    rcases List.mem_cons.1 hs with rfl | hs
    · rfl
    · exact hkey s hs
  refine ⟨?_, fun u hu => isUnion_of_isClass hclass hu⟩
  rw [← not_iff_not, ← Ne, Option.ne_none_iff_exists']
  simp only [union?_eq_some_iff hclass]
  exact ⟨fun ⟨_, h, _⟩ => h, fun h => ⟨_, h, rfl⟩⟩

/-- Two default names, a value that takes the place of a type, and a type that does not take the
    place of a value. -/
theorem union_of_read_defaults :
    let line := "import X, { type a, b } from 'm'"
    let line' := "import Y, { a, type b, d as c } from 'm'"
    let first : Statement :=
      { specifier := "m".toList
        bindings := [defaultOf false "X".toList,
          { localName := "a".toList, imported := some "a".toList, typeOnly := true },
          { localName := "b".toList, imported := some "b".toList }]
        line := 1, raw := line.toList, form := .es false, quote := .single, semicolon := false
        indent := [], trailing := [] }
    let second : Statement :=
      { first with
        bindings := [defaultOf false "Y".toList,
          { localName := "a".toList, imported := some "a".toList },
          { localName := "b".toList, imported := some "b".toList, typeOnly := true },
          { localName := "c".toList, imported := some "d".toList }]
        line := 2, raw := line'.toList }
    let u : Union :=
      ⟨[defaultOf false "X".toList, { localName := "a".toList, imported := some "a".toList },
          { localName := "b".toList, imported := some "b".toList },
          { localName := "c".toList, imported := some "d".toList }],
        [⟨"m".toList, .defaultName, "X".toList, ["Y".toList]⟩]⟩
    Statement.ofLine? line.toList 1 = some first ∧ Statement.ofLine? line'.toList 2 = some second ∧
      second.mergeKey = first.mergeKey ∧ union? "m".toList first [second] = some u ∧
      IsUnion "m".toList false [first, second] u := by
  intro line line' first second u
  have hfirst : Statement.ofLine? line.toList 1 = some first := by decide +kernel
  have hsecond : Statement.ofLine? line'.toList 2 = some second := by decide +kernel
  have hread : ∀ s ∈ [first, second], ∃ t n, Statement.ofLine? t n = some s := by
    intro s hs
    rcases List.mem_pair.1 hs with rfl | rfl
    · exact ⟨_, _, hfirst⟩
    · exact ⟨_, _, hsecond⟩
  have hkey : ∀ s ∈ [second], s.mergeKey = first.mergeKey := by decide +kernel
  have hunion : union? "m".toList first [second] = some u := by
    have hsorted : (([first, second].flatMap Statement.named).map
        (·.localName)).eraseDups.mergeSort Text.le = ["a".toList, "b".toList, "c".toList] := by
      rw [List.mergeSort_of_pairwise (by decide +kernel)]
      decide +kernel
    rw [union?, namedUnion, hsorted]
    decide +kernel
  exact ⟨hfirst, hsecond, rfl, hunion, (union_of_read hread hkey).2 u hunion⟩

end ImportRepair
