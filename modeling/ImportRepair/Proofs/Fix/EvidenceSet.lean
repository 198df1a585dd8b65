import ImportRepair.Fix.Certified
import ImportRepair.Proofs.Import.Change

/-!
# Evidence as a set

The linter and the compiler often report the same binding, in either order.  Of
a record of evidence only its line and its name count, and a fix depends on the
set of these pairs alone: the lines are gone through in their order, and on one
line it is only asked whether a name is among those that the evidence gives.
-/

namespace ImportRepair

variable {es es' : List Evidence} {table : ImportTable} {s : Statement} {e : Evidence}
  {names names' : List (Option Text)} {n : Int} {name : Option Text}

/-! ### What a record says -/

/-- What counts of a record: the line, and the name or that it is about all names. -/
def Evidence.claim (e : Evidence) : Int × Option Text := (e.line, e.name)

/-- The two lists say the same, in whatever order and however often. -/
def SameClaims (es es' : List Evidence) : Prop :=
  ∀ c, c ∈ es.map Evidence.claim ↔ c ∈ es'.map Evidence.claim

theorem mem_namesAt_iff_claim :
    name ∈ namesAt es n ↔ (n, name) ∈ es.map Evidence.claim := by
  simp [mem_namesAt_iff, Evidence.claim]

theorem SameClaims.mem_namesAt (h : SameClaims es es') (n : Int) (name : Option Text) :
    name ∈ namesAt es n ↔ name ∈ namesAt es' n := by
  rw [mem_namesAt_iff_claim, mem_namesAt_iff_claim]
  exact h (n, name)

theorem SameClaims.isEmpty (h : SameClaims es es') : es.isEmpty = es'.isEmpty := by
  have hnil : es.map Evidence.claim = [] ↔ es'.map Evidence.claim = [] := by
    simp only [List.eq_nil_iff_forall_not_mem, h _]
  rw [Bool.eq_iff_iff, List.isEmpty_iff, List.isEmpty_iff]
  simpa only [List.map_eq_nil_iff] using hnil

/-! ### One statement -/

theorem contains_congr {α : Type} [BEq α] [LawfulBEq α] {l l' : List α}
    (h : ∀ a, a ∈ l ↔ a ∈ l') (a : α) : l.contains a = l'.contains a := by
  rw [Bool.eq_iff_iff, List.contains_iff_mem, List.contains_iff_mem]
  exact h a

theorem Statement.without_congr {ns ns' : List Text} (h : ∀ n, n ∈ ns ↔ n ∈ ns') :
    s.without ns = s.without ns' := by
  have hcontains : ns.contains = ns'.contains := funext (contains_congr h)
  unfold without withoutItems
  rw [hcontains]

/-- What becomes of a statement depends on the set of names only. -/
theorem Statement.removal_congr (h : ∀ name, name ∈ names ↔ name ∈ names') :
    s.removal names = s.removal names' := by
  have hgiven : ∀ n, n ∈ names.reduceOption ↔ n ∈ names'.reduceOption := by
    intro n
    rw [List.reduceOption_mem_iff, List.reduceOption_mem_iff]
    exact h (some n)
  rw [removal, removal, contains_congr h none, without_congr hgiven]

theorem Removal.ofLine_congr (h : ∀ name, name ∈ names ↔ name ∈ names') :
    Removal.ofLine table n names = Removal.ofLine table n names' := by
  have hremoval : table.removal? n names = table.removal? n names' := by
    unfold ImportTable.removal?
    simp only [Statement.removal_congr h]
  rw [ofLine, ofLine, hremoval]

/-! ### The lines in order -/

/-- The lines that evidence is about, each of them once, in their order. -/
def evidenceLines (es : List Evidence) : List Int := (evidenceByLine es).map (·.1)

theorem evidenceByLine_eq (es : List Evidence) :
    evidenceByLine es = (evidenceLines es).map fun n => (n, namesAt es n) := by
  rw [evidenceLines, List.map_map]
  refine (List.map_id _).symm.trans (List.map_congr_left ?_)
  rintro ⟨n, names⟩ hp
  exact congrArg (Prod.mk n) (mem_evidenceByLine_iff.1 hp).2

theorem mem_evidenceLines_iff : n ∈ evidenceLines es ↔ ∃ name, name ∈ namesAt es n := by
  rw [evidenceLines, List.mem_map]
  constructor
  · rintro ⟨⟨k, names⟩, hp, rfl⟩
    obtain ⟨hne, rfl⟩ := mem_evidenceByLine_iff.1 hp
    exact List.exists_mem_of_ne_nil _ hne
  · rintro ⟨name, hname⟩
    exact ⟨(n, namesAt es n), mem_evidenceByLine_iff.2 ⟨List.ne_nil_of_mem hname, rfl⟩, rfl⟩

theorem nodup_evidenceLines (es : List Evidence) : (evidenceLines es).Nodup := by
  have hperm := (List.mergeSort_perm ((groupBy Evidence.line es).map fun g =>
    (g.1, (g.2.map (·.name)).eraseDups)) fun a b => decide (a.1 ≤ b.1)).map (·.1)
  refine (hperm.nodup_iff).2 ?_
  rw [List.map_map]
  exact List.pairwise_map.2 (pairwise_groupBy Evidence.line es)

theorem sorted_evidenceLines (es : List Evidence) :
    (evidenceLines es).Pairwise fun m n => m ≤ n := by
  have htrans : ∀ a b c : Int × List (Option Text), decide (a.1 ≤ b.1) = true →
      decide (b.1 ≤ c.1) = true → decide (a.1 ≤ c.1) = true := fun a b c hab hbc =>
    decide_eq_true (Int.le_trans (of_decide_eq_true hab) (of_decide_eq_true hbc))
  have htotal : ∀ a b : Int × List (Option Text),
      (decide (a.1 ≤ b.1) || decide (b.1 ≤ a.1)) = true := fun a b => by
    simpa using Int.le_total a.1 b.1
  have hsorted := List.pairwise_mergeSort htrans htotal ((groupBy Evidence.line es).map fun g =>
    (g.1, (g.2.map (·.name)).eraseDups))
  exact List.pairwise_map.2 (hsorted.imp of_decide_eq_true)

theorem SameClaims.evidenceLines_eq (h : SameClaims es es') :
    evidenceLines es = evidenceLines es' := by
  have hmem : ∀ n, n ∈ evidenceLines es ↔ n ∈ evidenceLines es' := by
    intro n
    rw [mem_evidenceLines_iff, mem_evidenceLines_iff]
    simp only [h.mem_namesAt n]
  have hperm : (evidenceLines es).Perm (evidenceLines es') :=
    (List.perm_ext_iff_of_nodup (nodup_evidenceLines es) (nodup_evidenceLines es')).2 hmem
  exact hperm.eq_of_pairwise (fun a b _ _ hab hba => Int.le_antisymm hab hba)
    (sorted_evidenceLines es) (sorted_evidenceLines es')

/-- The same claims call for the same removals, in the same order. -/
theorem SameClaims.plan_eq (h : SameClaims es es') (table : ImportTable) :
    Removal.plan table es = Removal.plan table es' := by
  unfold Removal.plan
  rw [evidenceByLine_eq es, evidenceByLine_eq es', h.evidenceLines_eq, List.foldr_map,
    List.foldr_map]
  have hline : ∀ n, Removal.ofLine table n (namesAt es n) =
      Removal.ofLine table n (namesAt es' n) := fun n => Removal.ofLine_congr (h.mem_namesAt n)
  simp only [hline]

theorem SameClaims.dropUnused_eq (h : SameClaims es es') (t : Text) :
    dropUnused es t = dropUnused es' t := by
  rw [dropUnused, dropUnused, h.isEmpty, h.plan_eq]

/-! ### Evidence after a merge -/

/-- What a claim about a text says of the merged text. -/
def movedClaims (table : ImportTable) (plan : MergePlan) (c : Int × Option Text) :
    List (Int × Option Text) :=
  (Evidence.move table plan { line := c.1, name := c.2 }).map Evidence.claim

theorem map_claim_move (table : ImportTable) (plan : MergePlan) (e : Evidence) :
    (e.move table plan).map Evidence.claim = movedClaims table plan e.claim := by
  unfold movedClaims Evidence.move
  rw [List.map_map, List.map_map]
  rfl

theorem map_claim_moveEvidence (table : ImportTable) (plan : MergePlan) (es : List Evidence) :
    (moveEvidence table plan es).map Evidence.claim =
      (es.map Evidence.claim).flatMap (movedClaims table plan) := by
  rw [moveEvidence, List.map_flatMap, List.flatMap_map]
  exact congrArg es.flatMap (funext (map_claim_move table plan))

theorem SameClaims.moveEvidence (h : SameClaims es es') (table : ImportTable) (plan : MergePlan) :
    SameClaims (moveEvidence table plan es) (moveEvidence table plan es') := by
  intro c
  rw [map_claim_moveEvidence, map_claim_moveEvidence, List.mem_flatMap, List.mem_flatMap]
  exact exists_congr fun p => and_congr_left' (h p)

/-! ### Fixes -/

/-- **Only the set of evidence counts.**  Two lists of evidence that give the same names for the
    same lines lead to the same text, count and actions, whatever their order, their repetitions
    and the other parts of their records are. -/
theorem certifiedFix_eq_of_sameClaims (h : SameClaims es es') (flags : FixFlags) (t : Text) :
    certifiedFix flags es t = certifiedFix flags es' t := by
  have hmoved : SameClaims (mergedEvidence flags es t) (mergedEvidence flags es' t) :=
    h.moveEvidence _ _
  unfold certifiedFix TextFix.remove
  rw [hmoved.dropUnused_eq, hmoved.plan_eq]

/-- The compiler is asked before the linter, and the linter reports a binding twice. -/
theorem certifiedFix_eq_of_sameClaims_reordered :
    let t := "import A from 'x';\nimport { b } from 'x';\nuse(A);\n".toList
    let linter : Evidence := ⟨2, some "b".toList, 10, some "a.ts".toList, [], .linter⟩
    let compiler : Evidence := ⟨2, none, 1, none, "All imports are unused.".toList, .compiler⟩
    SameClaims [linter, compiler] [compiler, linter, { linter with column := 0 }] ∧
      certifiedFix {} [compiler, linter, { linter with column := 0 }] t =
        ⟨"import A from 'x';\nuse(A);\n".toList, 2,
          ["merged 1 duplicate imports (x)", "removed 1 unused imports (b)"]⟩ := by
  intro t linter compiler
  have hsame : SameClaims [linter, compiler] [compiler, linter, { linter with column := 0 }] := by
    intro c
    simp only [List.map_cons, List.map_nil, List.mem_cons, List.not_mem_nil, or_false,
      Evidence.claim]
    tauto
  refine ⟨hsame, ?_⟩
  rw [← certifiedFix_eq_of_sameClaims hsame]
  decide +kernel

end ImportRepair
