import ImportRepair.Import.Empty
import ImportRepair.Proofs.Import.BareLine

/-!
# Imports that bind nothing

A line that binds a name is never taken for an import of nothing: where the
braces of an import are empty and nothing stands in front of them, the reader
finds no bindings either.
-/

namespace ImportRepair

open Text

variable {t l r c before after : Text} {s : Statement} {o : Origin} {bs : List Binding} {n : Int}

/-! ### Byte order marks -/

theorem bindsNothing_mark (l : Text) :
    bindsNothing (if l.hasMark then l else byteOrderMark :: l) = bindsNothing l := by
  split
  · rfl
  · have hdrop : dropEndWhile (· == '\r') (byteOrderMark :: l) =
        byteOrderMark :: l.dropEndWhile (· == '\r') := dropEndWhile_cons_of_neg (by decide)
    simp only [bindsNothing, hdrop, List.dropWhile_cons, beq_self_eq_true, if_true]

/-- A line is examined as it would be read. -/
theorem bindsNothing_of_hasMark (h : (bareLine l n).hasMark = false) :
    bindsNothing l = (isEmptyEsImport (bareLine l n) || isEmptyRequire (bareLine l n)) := by
  have hstop := hasMark_eq_false_iff.1 h
  have hsame : (l.dropEndWhile (· == '\r')).dropWhile (· == byteOrderMark) = bareLine l n := by
    unfold bareLine at hstop ⊢
    split
    · next hn =>
      rw [if_pos hn] at hstop
      cases hu : l.dropEndWhile (· == '\r') with
      | nil => rfl
      | cons d u =>
        rw [hu] at hstop
        by_cases hd : d = byteOrderMark
        · subst hd
          simpa [dropMark] using dropWhile_of_stops hstop
        · simp [dropMark, hd]
    · next hn =>
      rw [if_neg hn] at hstop
      exact dropWhile_of_stops hstop
  rw [bindsNothing, hsame]

theorem bindsNothing_of_ofLine? (h : Statement.ofLine? l n = some s) :
    bindsNothing l = (isEmptyEsImport s.raw || isEmptyRequire s.raw) := by
  obtain ⟨hraw, -, before, c, after, o, hparts⟩ :=
    Statement.ofBare?_cases (Statement.ofLine?_eq ▸ h)
  have hmark := hparts.hasMark
  rw [hraw] at hmark ⊢
  exact bindsNothing_of_hasMark hmark

/-! ### Empty braces -/

theorem afterEmptyBraces?_eq_some (h : afterEmptyBraces? t = some r) :
    ∃ body rest, AllIn isNoBrace body ∧ AllIn isBlank body ∧
      t = '\x7b' :: (body ++ '\x7d' :: rest) := by
  unfold afterEmptyBraces? at h
  split at h
  · next body rest hbraces =>
    split at h
    · next hblank =>
      obtain ⟨hbody, ht⟩ := braces?_eq_some_iff.1 hbraces
      exact ⟨body, rest, hbody, List.all_eq_true.1 hblank, ht⟩
    · cases h
  · cases h

theorem afterEmptyBraces?_of_ne {d : Char} (hd : d ≠ '\x7b') :
    afterEmptyBraces? (d :: t) = none := by
  simp [afterEmptyBraces?, braces?, hd]

/-- The items between empty braces. -/
theorem items_of_afterEmptyBraces? {body : Text} (hbody : AllIn isNoBrace body)
    (h : afterEmptyBraces? ('\x7b' :: (body ++ '\x7d' :: t)) = some r) : items body = [] := by
  obtain ⟨body', rest, hbody', hblank, heq⟩ := afterEmptyBraces?_eq_some h
  obtain ⟨rfl, -⟩ := run_unique (List.cons.inj heq).2 hbody (stops_cons.2 (by decide)) hbody'
    (stops_cons.2 (by decide))
  exact items_of_allIn hblank

/-- A clause that begins with empty braces binds nothing. -/
theorem clause?_of_afterEmptyBraces? {typeOnly : Bool} (hclause : clause? typeOnly c = some bs)
    (h : afterEmptyBraces? (c ++ after) = some r) : bs = [] := by
  have hname : ∀ {m u : Text}, IsName m → afterEmptyBraces? (m ++ u) = none := by
    intro m u hm
    obtain ⟨d, m, rfl⟩ := List.exists_cons_of_ne_nil hm.ne_nil
    refine afterEmptyBraces?_of_ne ?_
    rintro rfl
    exact absurd (hm.allIn _ List.mem_cons_self) (by decide)
  rcases clause?_cases hclause with
    ⟨m, g, hm, -, rfl, -⟩ | ⟨head, defaults, group, bs', hhead, rfl, hgroup, rfl⟩
  · rw [List.append_assoc, hname hm] at h
    cases h
  cases hhead with
  | default hm hg hg' =>
    rw [List.append_assoc, List.append_assoc, hname hm] at h
    cases h
  | nothing =>
    rcases clauseGroup?_cases hgroup with
      ⟨-, hnil⟩ | ⟨m, g, g', -, -, -, rfl, -⟩ | ⟨body, hbody, rfl, hitems⟩
    · exact hnil
    · rw [List.nil_append, List.cons_append, afterEmptyBraces?_of_ne (by decide)] at h
      cases h
    · have hempty := items_of_afterEmptyBraces? hbody (t := after) (by simpa using h)
      rw [hempty] at hitems
      cases hitems
      rfl

theorem exists_of_isEmptyEsImport (h : isEmptyEsImport t = true) :
    ∃ u v, afterWord? "import".toList t.trimLeft = some u ∧
      afterEmptyBraces? ((afterWord? "type".toList u).getD u) = some v := by
  obtain ⟨a, ha⟩ := Option.isSome_iff_exists.1 h
  obtain ⟨u, hu, ha⟩ := Option.bind_eq_some_iff.1 ha
  obtain ⟨v, hv, -⟩ := Option.bind_eq_some_iff.1 ha
  exact ⟨u, v, hu, hv⟩

/-- Behind a default name `type` stands the word `from`. -/
theorem afterEmptyBraces?_wordType (h : originBehind? after = some o) :
    afterEmptyBraces? ((afterWord? "type".toList ("type".toList ++ after)).getD
      ("type".toList ++ after)) = none := by
  obtain ⟨g, g', rest, hne, hg, -, -, -, -, -, rfl⟩ := originBehind?_eq_some_iff.1 h
  generalize g' ++ o.quote.char :: (o.specifier ++ o.quote.char :: rest) = w
  have hfrom : Stops isBlank ("from".toList ++ w) := stops_cons.2 (by decide)
  have hword : afterWord? "type".toList ("type".toList ++ (g ++ ("from".toList ++ w))) =
      some ("from".toList ++ w) := afterWord?_eq_some_iff.2 ⟨g, hne, hg, hfrom, rfl⟩
  rw [hword, Option.getD_some]
  exact afterEmptyBraces?_of_ne (by decide)

namespace Statement

/-- The line behind its indentation. -/
theorem StandsIn.trimLeft_raw {w : Text} (h : s.StandsIn before c after o) (hw : Stops isBlank w)
    (heq : s.raw = s.indent ++ w) : s.raw.trimLeft = w := by
  rw [heq]
  exact trimLeft_run h.indent hw

theorem StandsIn.afterWord?_import {gap w : Text} (h : s.StandsIn before c after o) (hne : gap ≠ [])
    (hgap : AllIn isBlank gap) (hw : Stops isBlank w)
    (heq : s.raw = s.indent ++ ("import".toList ++ (gap ++ w))) :
    afterWord? "import".toList s.raw.trimLeft = some w := by
  have hstop : Stops isBlank ("import".toList ++ (gap ++ w)) := stops_cons.2 (by decide)
  rw [h.trimLeft_raw hstop heq]
  exact afterWord?_eq_some_iff.2 ⟨gap, hne, hgap, hw, rfl⟩

/-- An `import` that binds a name has no empty braces at the front of its clause. -/
theorem StandsIn.isEmptyEsImport_eq_false (h : s.StandsIn before c after o)
    (hne : s.bindings ≠ []) : isEmptyEsImport s.raw = false := by
  rw [Bool.eq_false_iff]
  intro hempty
  obtain ⟨u, v, hu, hv⟩ := exists_of_isEmptyEsImport hempty
  have hraw := h.raw
  have hopening := h.opening
  have hending := h.ending
  have hbody := h.body
  generalize s.form = form at hopening hending hbody
  cases hopening with
  | @values gap hgap hblank =>
    rcases hbody with ⟨hclause, hc⟩ | ⟨-, rfl, -⟩
    · have hstop : Stops isBlank (c ++ after) :=
        stops_append hc.isTrimmed.head hc.isTrimmed.ne_nil
      rw [h.afterWord?_import hgap hblank hstop (by rw [hraw]; simp)] at hu
      cases hu
      rw [afterWord?_type_append hc hending, Option.getD_none] at hv
      exact hne (clause?_of_afterEmptyBraces? hclause hv)
    · have hstop : Stops isBlank ("type".toList ++ after) := stops_cons.2 (by decide)
      rw [h.afterWord?_import hgap hblank hstop (by rw [hraw]; simp)] at hu
      cases hu
      rw [afterEmptyBraces?_wordType hending] at hv
      cases hv
  | @types gap gap' hgap hblank hgap' hblank' =>
    rcases hbody with ⟨hclause, hc⟩ | ⟨hcontra, -⟩
    · have hstop : Stops isBlank ("type".toList ++ (gap' ++ (c ++ after))) :=
        stops_cons.2 (by decide)
      have hclauseStop : Stops isBlank (c ++ after) :=
        stops_append hc.isTrimmed.head hc.isTrimmed.ne_nil
      have hword : afterWord? "type".toList ("type".toList ++ (gap' ++ (c ++ after))) =
          some (c ++ after) :=
        afterWord?_eq_some_iff.2 ⟨gap', hgap', hblank', hclauseStop, rfl⟩
      rw [h.afterWord?_import hgap hblank hstop (by rw [hraw]; simp)] at hu
      cases hu
      rw [hword, Option.getD_some] at hv
      exact hne (clause?_of_afterEmptyBraces? hclause hv)
    · cases hcontra
  | @require k gap hgap hblank =>
    obtain ⟨hstop, hnone⟩ := stops_keyword k (t := gap ++ (c ++ after))
    obtain ⟨g, -, -, -, htrim⟩ := afterWord?_eq_some_iff.1 hu
    rw [h.trimLeft_raw hstop (by rw [hraw]; simp)] at htrim
    rw [isPrefixOf?_eq_some_iff.2 htrim] at hnone
    cases hnone

/-- A declaration that binds a name has no empty braces. -/
theorem StandsIn.isEmptyRequire_eq_false (h : s.StandsIn before c after o)
    (hne : s.bindings ≠ []) : isEmptyRequire s.raw = false := by
  rw [Bool.eq_false_iff]
  intro hempty
  simp only [isEmptyRequire, Option.isSome_iff_exists, bind, Option.bind_eq_some_iff] at hempty
  obtain ⟨-, ⟨k, u⟩, hk, v, hv, -⟩ := hempty
  have htrim := keyword?_eq_some_iff.1 hk
  have himport : ∀ w : Text, s.raw ≠ s.indent ++ ("import".toList ++ w) := by
    intro w heq
    have hstop : Stops isBlank ("import".toList ++ w) := stops_cons.2 (by decide)
    rw [h.trimLeft_raw hstop heq] at htrim
    have hnone := (stops_keyword k (t := u)).2
    rw [isPrefixOf?_eq_some_iff.2 htrim.symm] at hnone
    cases hnone
  have hraw := h.raw
  have hopening := h.opening
  have hbody := h.body
  have hending := h.ending
  generalize s.form = form at hopening hbody hending
  cases hopening with
  | @values gap hgap hblank =>
    refine himport (gap ++ (c ++ after)) ?_
    rw [hraw]
    simp only [List.append_assoc]
  | @types gap gap' hgap hblank hgap' hblank' =>
    refine himport (gap ++ ("type".toList ++ (gap' ++ (c ++ after)))) ?_
    rw [hraw]
    simp only [List.append_assoc]
  | @require k' gap hgap hblank =>
    rcases hbody with ⟨hcstop, hcne, htarget⟩ | ⟨hcontra, -⟩
    · have hkeyword := h.trimLeft_raw (stops_keyword k' (t := gap ++ (c ++ after))).1
        (by rw [hraw]; simp)
      rw [hkeyword, keyword?_eq_some_iff.2 rfl] at hk
      cases hk
      rw [trimLeft_run hblank (stops_append hcstop hcne)] at hv
      rcases target?_cases (htarget after (stops_of_requireBehind? hending)) with
        ⟨m, hm, -, htext', -⟩ | ⟨body, hbody, htext', hitems⟩
      · obtain ⟨d, m, rfl⟩ := List.exists_cons_of_ne_nil hm.ne_nil
        have hd : d ≠ '\x7b' := by
          rintro rfl
          exact absurd (hm.allIn _ List.mem_cons_self) (by decide)
        rw [htext', List.cons_append, afterEmptyBraces?_of_ne hd] at hv
        cases hv
      · rw [htext'] at hv
        rw [items_of_afterEmptyBraces? hbody hv] at hitems
        exact hne (Option.some.inj hitems).symm
    · cases hcontra

end Statement

/-- **A line that binds a name is no import of nothing.** -/
theorem bindsNothing_eq_false (h : Statement.ofLine? l n = some s) (hne : s.bindings ≠ []) :
    bindsNothing l = false := by
  obtain ⟨-, -, before, c, after, o, hparts⟩ := Statement.ofBare?_cases (Statement.ofLine?_eq ▸ h)
  rw [bindsNothing_of_ofLine? h, hparts.isEmptyEsImport_eq_false hne,
    hparts.isEmptyRequire_eq_false hne]
  rfl

end ImportRepair
