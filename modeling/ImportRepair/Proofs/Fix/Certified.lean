import ImportRepair.Proofs.Fix.Evidence
import ImportRepair.Proofs.Merge.Refinement

/-!
# What a fix makes of a text

The fix works line by line: a line is merged away, loses its last binding, is
an import of nothing, loses some of its bindings, or stays as the merge leaves
it.  Where every statement binds a name and no default name is `type`, each of
these is decided by the evidence that reaches the line.
-/

namespace ImportRepair

open Text

variable {t l u x : Text} {table : ImportTable} {plan : MergePlan} {evidence : List Evidence}
variable {s : Statement} {n m : Int}

/-! ### The lines of a fixed text -/

theorem MergePlan.IsFor.linesAfter_ne_nil (h : plan.IsFor t) : plan.edits.linesAfter t ≠ [] := by
  obtain ⟨l, ls, hl⟩ := List.exists_cons_of_ne_nil (lines_ne_nil t)
  have hone : (1 : Int) ∉ plan.edits.deletions := fun hmem => by have hle := h.first 1 hmem; omega
  have hline : plan.edits.line? 1 l ≠ none := mt LineEdits.line?_eq_none_iff.1 hone
  obtain ⟨u, hu⟩ := Option.ne_none_iff_exists'.1 hline
  rw [LineEdits.linesAfter, numberedLines_eq, hl, numberFrom_cons, List.filterMap_cons, hu]
  simp

/-- What is left of a line of a text under a plan and evidence. -/
def fixedLine? (table : ImportTable) (plan : MergePlan) (evidence : List Evidence) (n : Int)
    (l : Text) : Option Text :=
  (plan.edits.line? n l).bind fun u =>
    lineWithout? (moveEvidence table plan evidence) (plan.lineAfter n) u

/-- **A fixed text is made of what is left of its lines.** -/
theorem dropUnused_apply_eq_unlines (h : plan.IsFor t) (evidence : List Evidence) :
    ∃ ls, dropUnused (moveEvidence (ImportTable.ofText t) plan evidence) (plan.edits.apply t) =
        unlines ls ∧
      LineEdits.UpToMark ((numberedLines t).filterMap fun p =>
        fixedLine? (ImportTable.ofText t) plan evidence p.1 p.2) ls := by
  generalize hmoved : moveEvidence (ImportTable.ofText t) plan evidence = moved
  obtain ⟨ls, hls, hmark⟩ := dropUnused_eq_unlines moved (plan.edits.apply t)
  have hlines := LineEdits.upToMark_filterMap (respectsMark_lineWithout? moved)
    (LineEdits.lines_apply h.byLine h.linesAfter_ne_nil)
  have hnumber := LineEdits.numberFrom_line? (e := plan.edits) h.nodup 1 (lines t)
  rw [LineEdits.newNumber_one fun d hd => by have hle := h.first d hd; omega] at hnumber
  rw [LineEdits.linesAfter, numberedLines_eq, hnumber, List.filterMap_filterMap] at hlines
  rw [← numberedLines_eq, ← numberedLines_eq] at hlines
  have hfixed : ((numberedLines t).filterMap fun p =>
      fixedLine? (ImportTable.ofText t) plan evidence p.1 p.2) =
        (numberedLines t).filterMap fun p => ((plan.edits.line? p.1 p.2).map fun u =>
          (plan.edits.newNumber p.1, u)).bind fun q => lineWithout? moved q.1 q.2 := by
    refine List.filterMap_congr fun p _ => ?_
    rw [fixedLine?, hmoved, Option.bind_map]
    refine Option.bind_congr fun u hu => ?_
    rw [MergePlan.IsFor.lineAfter_of_not_mem (LineEdits.not_mem_of_line?_eq_some hu)]
    rfl
  rw [hfixed]
  exact ⟨ls, hls, hlines.trans hmark⟩

/-! ### The fate of a line -/

/-- A record of evidence certifies the name on a line that the merge keeps: it is a record of that
    line, or of a line that the merge redirects to it. -/
def IsCertified (table : ImportTable) (plan : MergePlan) (evidence : List Evidence) (n : Int)
    (x : Text) : Prop :=
  ∃ e ∈ evidence, (e.line = n ∨ (e.line, n) ∈ plan.redirects) ∧ x ∈ e.certified table

instance : Decidable (IsCertified table plan evidence n x) :=
  inferInstanceAs (Decidable (∃ e ∈ evidence, _))

/-- What a line of a text comes to under a plan and evidence. -/
structure IsFate (t : Text) (plan : MergePlan) (evidence : List Evidence) (n : Int) (l : Text)
    (fate : Option Text) : Prop where
  /-- A line vanishes if it is merged away, if the statement that the merge leaves on it has all of
      its names certified, or if it is an import of nothing and there is any evidence. -/
  vanishes_iff : fate = none ↔ n ∈ plan.deletions ∨
    (∃ s, (ImportTable.ofText (plan.apply t)).onLine? (plan.lineAfter n) = some s ∧
      ∀ x ∈ s.boundNames, IsCertified (ImportTable.ofText t) plan evidence n x) ∨
    evidence ≠ [] ∧ ∃ u, plan.edits.line? n l = some u ∧ bindsNothing u = true
  /-- A statement with some, but not all, of its names certified keeps the others in their order. -/
  reduced : n ∉ plan.deletions → ∀ s,
    (ImportTable.ofText (plan.apply t)).onLine? (plan.lineAfter n) = some s →
    (∃ x ∈ s.boundNames, IsCertified (ImportTable.ofText t) plan evidence n x) →
    (∃ x ∈ s.boundNames, ¬ IsCertified (ImportTable.ofText t) plan evidence n x) →
    ∃ new, fate = some new ∧ ∀ m, Statement.ofLine? new m =
      some { s with
        bindings := s.bindings.filter fun b =>
          ¬ IsCertified (ImportTable.ofText t) plan evidence n b.localName
        line := m
        raw := bareLine new m }
  /-- Every other line is the line that the merge leaves. -/
  kept : fate ≠ none → (∀ s,
    (ImportTable.ofText (plan.apply t)).onLine? (plan.lineAfter n) = some s →
    ∀ x ∈ s.boundNames, ¬ IsCertified (ImportTable.ofText t) plan evidence n x) →
    fate = plan.edits.line? n l

theorem MergePlan.IsFor.mem_removedNames_iff (h : plan.IsFor t) (hn : n ∉ plan.deletions)
    (hs : (ImportTable.ofText (plan.edits.apply t)).onLine? (plan.lineAfter n) = some s) :
    x ∈ s.removedNames (namesAt (moveEvidence (ImportTable.ofText t) plan evidence)
      (plan.lineAfter n)) ↔ IsCertified (ImportTable.ofText t) plan evidence n x := by
  rw [ImportRepair.mem_removedNames_iff h hs]
  simp only [h.lineAfter_eq_iff hn, IsCertified]

/-- Where every statement binds a name, no record of evidence is lost. -/
theorem isEmpty_moveEvidence (h : IsPlainTable table) :
    (moveEvidence table plan evidence).isEmpty = evidence.isEmpty := by
  cases evidence with
  | nil => rfl
  | cons e evidence =>
    have hne : e.move table plan ≠ [] := by
      unfold Evidence.move
      cases hname : e.name with
      | some x => simp
      | none =>
        cases hs : table.onLine? e.line with
        | none => simp
        | some s =>
          have hbinds := h.binds s (List.mem_of_find?_eq_some hs)
          simpa [Statement.boundNames] using hbinds
    simp [moveEvidence, hne]

theorem IsPlainTable.apply_mergePlan (h : IsPlainTable (ImportTable.ofText t)) (flags : FixFlags) :
    IsPlainTable (ImportTable.ofText
      ((flags.mergePlan (ImportTable.ofText t)).edits.apply t)) := by
  rw [← MergePlan.apply_eq]
  unfold FixFlags.mergePlan
  split
  · exact h.merged
  · exact h

/-- A plain statement never loses a line that keeps some of its bindings. -/
theorem IsPlainTable.not_isHidden (h : IsPlainTable table) (hs : s ∈ table) (names : List Text) :
    ¬ s.IsHidden (s.kept names) := by
  rintro ⟨-, heq, -⟩
  have hmem : defaultOf false "type".toList ∈ s.kept names := by rw [heq]; simp
  exact h.noType s hs _ (Statement.mem_kept_iff.1 hmem).1 rfl rfl

/-- A line stays, unless it is an import of nothing, if none of its names is certified. -/
theorem isFate_of_kept (hu : plan.edits.line? n l = some u)
    (hbinds : ∀ s, (ImportTable.ofText (plan.apply t)).onLine? (plan.lineAfter n) = some s →
      s.bindings ≠ [])
    (hkept : ∀ s, (ImportTable.ofText (plan.apply t)).onLine? (plan.lineAfter n) = some s →
      ∀ x ∈ s.boundNames, ¬ IsCertified (ImportTable.ofText t) plan evidence n x) :
    IsFate t plan evidence n l (keepUnlessEmpty evidence u) where
  vanishes_iff := by
    have hn : n ∉ plan.deletions := LineEdits.not_mem_of_line?_eq_some hu
    have hnames : ¬ ∃ s, (ImportTable.ofText (plan.apply t)).onLine? (plan.lineAfter n) = some s ∧
        ∀ x ∈ s.boundNames, IsCertified (ImportTable.ofText t) plan evidence n x := by
      rintro ⟨s, hs, hall⟩
      obtain ⟨b, hb⟩ := List.exists_mem_of_ne_nil _ (hbinds s hs)
      have hname : b.localName ∈ s.boundNames := List.mem_map_of_mem hb
      exact hkept s hs _ hname (hall _ hname)
    simp only [hn, hnames, false_or, hu, Option.some.injEq, exists_eq_left']
    unfold keepUnlessEmpty
    cases evidence with
    | nil => simp
    | cons e evidence => simp [Option.guard]
  reduced := by
    rintro - s hs ⟨x, hx, hcertified⟩
    exact absurd hcertified (hkept s hs x hx)
  kept := by
    intro hne _
    rw [hu]
    unfold keepUnlessEmpty at hne ⊢
    split
    · rfl
    · next hevidence =>
      rw [if_neg hevidence] at hne
      obtain ⟨v, hv⟩ := Option.ne_none_iff_exists'.1 hne
      obtain ⟨rfl, -⟩ := Option.guard_eq_some_iff.1 hv
      exact hv

/-- A line whose names are all certified goes. -/
theorem isFate_of_lost
    (hs : (ImportTable.ofText (plan.apply t)).onLine? (plan.lineAfter n) = some s)
    (hall : ∀ x ∈ s.boundNames, IsCertified (ImportTable.ofText t) plan evidence n x) :
    IsFate t plan evidence n l none where
  vanishes_iff := iff_of_true rfl (Or.inr (Or.inl ⟨s, hs, hall⟩))
  reduced := by
    rintro - r hr - ⟨x, hx, hnot⟩
    obtain rfl := Option.some.inj (hr.symm.trans hs)
    exact absurd (hall x hx) hnot
  kept := fun hne => absurd rfl hne

/-- A line that loses some of its names is what is left of it. -/
theorem isFate_of_reduced {new : Text} (hu : plan.edits.line? n l = some u)
    (hs : (ImportTable.ofText (plan.apply t)).onLine? (plan.lineAfter n) = some s)
    (hfilled : bindsNothing u = false)
    (hlost : ∃ x ∈ s.boundNames, IsCertified (ImportTable.ofText t) plan evidence n x)
    (hnot : ∃ x ∈ s.boundNames, ¬ IsCertified (ImportTable.ofText t) plan evidence n x)
    (hread : ∀ m, Statement.ofLine? new m = some { s with
      bindings := s.bindings.filter fun b =>
        ¬ IsCertified (ImportTable.ofText t) plan evidence n b.localName
      line := m
      raw := bareLine new m }) :
    IsFate t plan evidence n l (some new) where
  vanishes_iff := by
    have hn : n ∉ plan.deletions := LineEdits.not_mem_of_line?_eq_some hu
    simpa [hn, hs, hu, hfilled] using hnot
  reduced := by
    rintro - r hr - -
    obtain rfl := Option.some.inj (hr.symm.trans hs)
    exact ⟨new, rfl, hread⟩
  kept := by
    intro _ hkept
    obtain ⟨x, hx, hcertified⟩ := hlost
    exact absurd hcertified (hkept s hs x hx)

/-- **The fate of a line under a plan.** -/
theorem isFate_fixedLine? (hplain : IsPlainTable (ImportTable.ofText t)) (h : plan.IsFor t)
    (hmerged : IsPlainTable (ImportTable.ofText (plan.edits.apply t)))
    (hl : (n, l) ∈ numberedLines t) :
    IsFate t plan evidence n l (fixedLine? (ImportTable.ofText t) plan evidence n l) := by
  cases hu : plan.edits.line? n l with
  | none =>
    have hmem : n ∈ plan.deletions := LineEdits.line?_eq_none_iff.1 hu
    have hfate : fixedLine? (ImportTable.ofText t) plan evidence n l = none := by
      rw [fixedLine?, hu, Option.bind_none]
    exact ⟨by simp [hfate, hmem], fun hn => absurd hmem hn, fun hne => absurd hfate hne⟩
  | some u =>
    have hn : n ∉ plan.deletions := LineEdits.not_mem_of_line?_eq_some hu
    have hline : '\n' ∉ u :=
      LineEdits.not_mem_line? h.byLine (not_mem_of_mem_numberedLines hl) hu
    have hon := h.onLine?_lineAfter hl hu
    have hkeep : keepUnlessEmpty (moveEvidence (ImportTable.ofText t) plan evidence) u =
        keepUnlessEmpty evidence u := by
      simp only [keepUnlessEmpty, isEmpty_moveEvidence hplain]
    rw [fixedLine?, hu, Option.bind_some]
    cases hread : Statement.ofLine? u (plan.lineAfter n) with
    | none =>
      rw [hread, ← MergePlan.apply_eq] at hon
      rw [lineWithout?_of_none hread, hkeep]
      exact isFate_of_kept hu (by simp [hon]) (by simp [hon])
    | some s =>
      rw [hread] at hon
      have hmem : s ∈ ImportTable.ofText (plan.edits.apply t) := List.mem_of_find?_eq_some hon
      have hbinds := hmerged.binds s hmem
      have hcertified : ∀ x, x ∈ s.removedNames (namesAt
          (moveEvidence (ImportTable.ofText t) plan evidence) (plan.lineAfter n)) ↔
            IsCertified (ImportTable.ofText t) plan evidence n x :=
        fun x => h.mem_removedNames_iff hn hon
      rw [← MergePlan.apply_eq] at hon
      by_cases hlost : ∃ x ∈ s.boundNames, IsCertified (ImportTable.ofText t) plan evidence n x
      · by_cases hnot : ∃ x ∈ s.boundNames, ¬ IsCertified (ImportTable.ofText t) plan evidence n x
        · obtain ⟨new, hnew, hleft⟩ := lineWithout?_of_changed hread hline
            (by simpa only [← hcertified] using hlost) (by simpa only [← hcertified] using hnot)
          have hshown := hmerged.not_isHidden hmem (s.removedNames (namesAt
            (moveEvidence (ImportTable.ofText t) plan evidence) (plan.lineAfter n)))
          simp only [if_neg hshown] at hleft
          simp only [Statement.kept_eq_filter fun b _ => hcertified b.localName] at hleft
          -- neither the line nor what is left of it is an import of nothing
          have hfilled : bindsNothing new = false := by
            refine bindsNothing_eq_false (hleft 1) ?_
            obtain ⟨x, hx, hnot⟩ := hnot
            obtain ⟨b, hb, rfl⟩ := List.mem_map.1 hx
            exact List.ne_nil_of_mem (List.mem_filter.2 ⟨hb, by simpa using hnot⟩)
          rw [hnew, Option.guard, if_pos (by simpa using hfilled)]
          exact isFate_of_reduced hu hon (bindsNothing_eq_false hread hbinds) hlost hnot hleft
        · have hall : ∀ x ∈ s.boundNames, IsCertified (ImportTable.ofText t) plan evidence n x := by
            simpa using hnot
          rw [lineWithout?_of_lost hread hline hbinds fun x hx => (hcertified x).2 (hall x hx)]
          exact isFate_of_lost hon hall
      · have hkept : ∀ x ∈ s.boundNames,
            ¬ IsCertified (ImportTable.ofText t) plan evidence n x := by
          simpa using hlost
        rw [lineWithout?_of_kept hread hline fun x hx => mt (hcertified x).1 (hkept x hx), hkeep]
        exact isFate_of_kept hu (by simpa [hon] using hbinds) (by simpa [hon] using hkept)

/-- **The exact effect of a fix.**  Up to a byte order mark the fixed text is made of what the
    lines come to, in their order. -/
theorem certifiedFix_line_by_line (h : IsPlainTable (ImportTable.ofText t)) (mergeDuplicates : Bool)
    (evidence : List Evidence) : ∃ fate : Int → Text → Option Text,
      (certifiedFix ⟨mergeDuplicates, true⟩ evidence t).text.dropMark =
        (unlines ((numberedLines t).filterMap fun p => fate p.1 p.2)).dropMark ∧
      ∀ p ∈ numberedLines t, IsFate t
        (FixFlags.mergePlan ⟨mergeDuplicates, true⟩ (ImportTable.ofText t)) evidence p.1 p.2
        (fate p.1 p.2) := by
  have hplan := isFor_mergePlan ⟨mergeDuplicates, true⟩ t
  obtain ⟨ls, hls, hmark⟩ := dropUnused_apply_eq_unlines hplan evidence
  refine ⟨fixedLine? (ImportTable.ofText t)
    (FixFlags.mergePlan ⟨mergeDuplicates, true⟩ (ImportTable.ofText t)) evidence,
    ?_, fun p hp => ?_⟩
  · rw [text_certifiedFix, hls]
    exact LineEdits.dropMark_unlines hmark
  · exact isFate_fixedLine? h hplan (h.apply_mergePlan ⟨mergeDuplicates, true⟩) hp

/-- A record without a name moves with its line and takes the names of its own statement only. -/
theorem certifiedFix_line_by_line_merged :
    let t := "import A from 'm';\nimport { b } from 'm';\nlet x;".toList
    let evidence : List Evidence := [{ line := 2, name := none }]
    IsPlainTable (ImportTable.ofText t) ∧
    (certifiedFix ⟨true, true⟩ evidence t).text = "import A from 'm';\nlet x;".toList ∧
    ∃ fate : Int → Text → Option Text,
      (certifiedFix ⟨true, true⟩ evidence t).text.dropMark =
        (unlines ((numberedLines t).filterMap fun p => fate p.1 p.2)).dropMark ∧
      ∀ p ∈ numberedLines t, IsFate t
        (FixFlags.mergePlan ⟨true, true⟩ (ImportTable.ofText t)) evidence p.1 p.2
        (fate p.1 p.2) := by
  intro t evidence
  have h : IsPlainTable (ImportTable.ofText t) := ⟨by decide +kernel, by decide +kernel⟩
  have htext : (certifiedFix ⟨true, true⟩ evidence t).text =
      "import A from 'm';\nlet x;".toList := by
    decide +kernel
  exact ⟨h, htext, certifiedFix_line_by_line h true evidence⟩

end ImportRepair
