import ImportRepair.Proofs.Import.Written

/-!
# The frame of an import line

What stands in front of the clause (or the target) of a line and what stands
behind it form its frame.  A recognised line is a frame around a clause, and
any other clause in the same frame is recognised as well, with the same module,
the same layout and its own bindings.  Both ways of changing a line, writing it
again and cutting items out of its braces, put a new clause into a frame.
-/

namespace ImportRepair

open Text

variable {t c after : Text} {o : Origin}

/-! ### The shortest clause -/

theorem splitShortest?_eq_some_iff {α : Type} {p : Text → Option α} {t u : Text} {a : α} :
    splitShortest? p t = some (u, a) ↔ u ≠ [] ∧ '\n' ∉ u ∧ ∃ r, t = u ++ r ∧ p r = some a ∧
      ∀ v w, u = v ++ w → v ≠ [] → w ≠ [] → p (w ++ r) = none := by
  induction t generalizing u with
  | nil =>
    simp only [splitShortest?, reduceCtorEq, false_iff]
    rintro ⟨hne, -, r, h, -⟩
    exact absurd (List.append_eq_nil_iff.1 h.symm).1 hne
  | cons c t ih =>
    simp only [splitShortest?]
    constructor
    · intro h
      split at h
      · simp at h
      · next hc =>
        split at h
        · next b hb =>
          cases h
          refine ⟨by simp, by simpa using Ne.symm hc, t, rfl, hb, ?_⟩
          intro v w hvw hv hw
          obtain ⟨d, v, rfl⟩ := List.exists_cons_of_ne_nil hv
          have hnil : v ++ w = [] := (List.cons.inj hvw).2.symm
          exact absurd (List.append_eq_nil_iff.1 hnil).2 hw
        · next hnone =>
          obtain ⟨⟨u', b⟩, hu', heq⟩ := Option.map_eq_some_iff.1 h
          cases heq
          obtain ⟨-, hline, r, rfl, hr, hmin⟩ := ih.1 hu'
          refine ⟨by simp, by simp [Ne.symm hc, hline], r, rfl, hr, ?_⟩
          intro v w hvw hv hw
          obtain ⟨d, v, rfl⟩ := List.exists_cons_of_ne_nil hv
          have hsplit : u' = v ++ w := (List.cons.inj hvw).2
          cases v with
          | nil => rw [← hsplit.trans (List.nil_append w)]; exact hnone
          | cons e v => exact hmin _ _ hsplit (by simp) hw
    · rintro ⟨hne, hline, r, heq, hr, hmin⟩
      obtain ⟨d, u, rfl⟩ := List.exists_cons_of_ne_nil hne
      rw [List.cons_append] at heq
      obtain ⟨rfl, rfl⟩ := List.cons.inj heq
      rw [List.mem_cons, not_or] at hline
      rw [if_neg (Ne.symm hline.1)]
      cases u with
      | nil => simp only [List.nil_append, hr]
      | cons e u =>
        have hnone : p (e :: u ++ r) = none := hmin [c] (e :: u) rfl (by simp) (by simp)
        have hrest : splitShortest? p (e :: u ++ r) = some (e :: u, a) :=
          ih.2 ⟨by simp, hline.2, r, rfl, hr, fun v w hvw hv hw =>
            hmin (c :: v) w (by rw [hvw]; rfl) (by simp) hw⟩
        simp only [hnone, hrest, Option.map_some]

/-- Some clause is found wherever one would do. -/
theorem splitShortest?_isSome {α : Type} {p : Text → Option α} {u r : Text} {a : α} (hne : u ≠ [])
    (hline : '\n' ∉ u) (hr : p r = some a) : (splitShortest? p (u ++ r)).isSome := by
  induction u with
  | nil => exact absurd rfl hne
  | cons c u ih =>
    rw [List.mem_cons, not_or] at hline
    simp only [List.cons_append, splitShortest?, if_neg (Ne.symm hline.1)]
    cases u with
    | nil => simp [hr]
    | cons d u =>
      split
      · simp
      · simpa using ih (by simp) hline.2

/-- The origin that white space precedes. -/
def originBehind? (t : Text) : Option Origin := (afterBlanks? t).bind origin?

theorem shortestClause?_eq : shortestClause? t = splitShortest? originBehind? t := rfl

theorem originBehind?_eq_some_iff : originBehind? t = some o ↔
    ∃ g g' r, g ≠ [] ∧ AllIn isBlank g ∧ g' ≠ [] ∧ AllIn isBlank g' ∧ o.specifier ≠ [] ∧
      AllIn isSpecifierChar o.specifier ∧ closing? r = some o.closing ∧
      t = g ++ ("from".toList ++ (g' ++ o.quote.char :: (o.specifier ++ o.quote.char :: r))) := by
  simp only [originBehind?, Option.bind_eq_some_iff, afterBlanks?_eq_some_iff, origin?, bind,
    afterWord?_eq_some_iff]
  constructor
  · rintro ⟨u, ⟨g, hgne, hg, -, rfl⟩, v, ⟨g', hgne', hg', -, rfl⟩, ⟨q, m, r⟩, hm, c, hc, heq⟩
    cases heq
    obtain ⟨hmne, hmchars, rfl⟩ := specifier?_eq_some_iff.1 hm
    exact ⟨g, g', r, hgne, hg, hgne', hg', hmne, hmchars, hc, rfl⟩
  · rintro ⟨g, g', r, hgne, hg, hgne', hg', hmne, hmchars, hc, rfl⟩
    have hquote : isBlank o.quote.char = false := by cases o.quote <;> decide
    refine ⟨_, ⟨g, hgne, hg, stops_cons.2 (by decide), rfl⟩, _,
      ⟨g', hgne', hg', stops_cons.2 hquote, rfl⟩, (o.quote, o.specifier, r), ?_, o.closing, hc, rfl⟩
    exact specifier?_eq_some_iff.2 ⟨hmne, hmchars, rfl⟩

theorem getLast?_mem_append {u r : Text} (hu : u ≠ [])
    (h : ∀ x ∈ (r ++ u).getLast?, isBlank x = false) :
    ∀ x ∈ u.getLast?, isBlank x = false := by
  intro x hx
  obtain ⟨d, v, rfl⟩ := List.exists_cons_of_ne_nil hu
  exact h x (by simpa [List.getLast?_append] using hx)

/-- No clause ends inside another one: the first quotation mark of a line stands behind the word
    `from` of its origin. -/
theorem originBehind?_inside {w : Text} (hne : w ≠ []) (hlast : ∀ x ∈ w.getLast?, isBlank x = false)
    (hchars : AllIn isSpecifierChar w) (ho : originBehind? after = some o) :
    originBehind? (w ++ after) = none := by
  rw [Option.eq_none_iff_forall_ne_some]
  intro o' ho'
  obtain ⟨g, g', r, -, hg, -, hg', -, -, -, rfl⟩ := originBehind?_eq_some_iff.1 ho
  obtain ⟨h, h', r', -, hh, -, hh', -, -, -, heq⟩ := originBehind?_eq_some_iff.1 ho'
  have hfrom : AllIn isSpecifierChar "from".toList := by simp; decide
  have hquote : ∀ (q : Quote) (u : Text), Stops isSpecifierChar (q.char :: u) :=
    fun q u => stops_cons.2 (isSpecifierChar_quote q)
  have hblankChars : ∀ {u : Text}, AllIn isBlank u → AllIn isSpecifierChar u :=
    fun hu => hu.mono fun _ => isSpecifierChar_of_isBlank
  -- up to the first quotation mark both sides are the same
  have hwritten : AllIn isSpecifierChar (w ++ (g ++ ("from".toList ++ g'))) := by
    simp only [allIn_append]
    exact ⟨hchars, hblankChars hg, hfrom, hblankChars hg'⟩
  have hwritten' : AllIn isSpecifierChar (h ++ ("from".toList ++ h')) := by
    simp only [allIn_append]
    exact ⟨hblankChars hh, hfrom, hblankChars hh'⟩
  obtain ⟨hfront, -⟩ := run_unique (by simpa only [List.append_assoc] using heq)
    hwritten (hquote _ _)
    hwritten' (hquote _ _)
  have hends : ∀ {u v : Text}, AllIn isBlank v →
      dropEndWhile isBlank (u ++ ("from".toList ++ v)) = u ++ "from".toList := by
    intro u v hv
    rw [← List.append_assoc]
    exact dropEndWhile_append_run hv (by simp [List.getLast?_append]; decide)
  have hword : w ++ g ++ "from".toList = h ++ "from".toList := by
    rw [← hends hg', ← hends hh', ← hfront, List.append_assoc]
  have hblank : AllIn isBlank (w ++ g) := List.append_cancel_right hword ▸ hh
  obtain ⟨x, hx⟩ := Option.ne_none_iff_exists'.1 (mt List.getLast?_eq_none_iff.1 hne)
  have hxblank := (allIn_append.1 hblank).1 x (List.mem_of_getLast? hx)
  simp [hlast x hx] at hxblank

theorem shortestClause?_append (hc : IsTrimmed c) (hchars : AllIn isSpecifierChar c)
    (hline : '\n' ∉ c) (ho : originBehind? after = some o) :
    shortestClause? (c ++ after) = some (c, o) := by
  rw [shortestClause?_eq, splitShortest?_eq_some_iff]
  refine ⟨hc.ne_nil, hline, after, rfl, ho, ?_⟩
  rintro v w rfl - hw
  exact originBehind?_inside hw (getLast?_mem_append hw hc.last) (allIn_append.1 hchars).2 ho

/-- What is found is trimmed, if white space has been skipped before. -/
theorem shortestClause?_eq_some (ht : Stops isBlank t) (h : shortestClause? t = some (c, o)) :
    IsTrimmed c ∧ '\n' ∉ c ∧ ∃ after, t = c ++ after ∧ originBehind? after = some o := by
  rw [shortestClause?_eq, splitShortest?_eq_some_iff] at h
  obtain ⟨hne, hline, after, rfl, ho, hmin⟩ := h
  have hhead : Stops isBlank c := by
    obtain ⟨d, u, rfl⟩ := List.exists_cons_of_ne_nil hne
    exact stops_cons.2 (stops_cons.1 ht)
  refine ⟨⟨hne, hhead, ?_⟩, hline, after, rfl, ho⟩
  intro x hx
  by_contra hblank
  rw [Bool.not_eq_false] at hblank
  obtain ⟨v, rfl⟩ := List.getLast?_eq_some_iff.1 hx
  have hv : v ≠ [] := by
    rintro rfl
    simp [stops_cons.1 hhead] at hblank
  -- the origin would have been found in front of that white space
  obtain ⟨g, hgne, hg, hstop, hafter⟩ : ∃ g, g ≠ [] ∧ AllIn isBlank g ∧
      Stops isBlank (after.dropWhile isBlank) ∧ after = g ++ after.dropWhile isBlank := by
    obtain ⟨g, g', r, hgne, hg, -, -, -, -, -, rfl⟩ := originBehind?_eq_some_iff.1 ho
    have hdrop : (g ++ ("from".toList ++ (g' ++ o.quote.char ::
        (o.specifier ++ o.quote.char :: r)))).dropWhile isBlank =
          "from".toList ++ (g' ++ o.quote.char :: (o.specifier ++ o.quote.char :: r)) :=
      dropWhile_run hg (stops_cons.2 (by decide))
    exact ⟨g, hgne, hg, stops_dropWhile, by rw [hdrop]⟩
  have hskip : ∀ {u}, u ≠ [] → AllIn isBlank u →
      afterBlanks? (u ++ after.dropWhile isBlank) = some (after.dropWhile isBlank) :=
    fun hu hub => afterBlanks?_eq_some_iff.2 ⟨_, hu, hub, hstop, rfl⟩
  have hsame : originBehind? ([x] ++ after) = originBehind? after := by
    have hwide := hskip (u := [x] ++ g) (by simp) (by simpa using ⟨hblank, hg⟩)
    have hnarrow := hskip hgne hg
    rw [List.append_assoc, ← hafter] at hwide
    rw [← hafter] at hnarrow
    rw [originBehind?, originBehind?, hwide, hnarrow]
  have hnone := hmin v [x] rfl hv (by simp)
  rw [hsame, ho] at hnone
  simp at hnone

end ImportRepair
