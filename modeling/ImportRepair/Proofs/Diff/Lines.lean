import ImportRepair.Diff.Unified

/-!
# Lines with their ends

A text of lines is cut behind each of its line feeds.  Every piece but the last
then ends in one; the last piece may be left open, and nothing may follow it.
The rules for such lists of pieces are stated once, for the lines of a text and
for those of a diff: where they hold, the lines of the joined text are the
pieces without their line feeds.
-/

namespace ImportRepair.Diff

open Text

variable {t u p q : Text} {c : Char} {ps qs : List Text}

/-! ### Closed and open lines -/

/-- The line ends in a line feed, its only one. -/
def IsClosedLine (p : Text) : Prop := ∃ u, '\n' ∉ u ∧ p = u ++ ['\n']

/-- The line has no line feed.  It can only be the last one of a text. -/
def IsOpenLine (p : Text) : Prop := p ≠ [] ∧ '\n' ∉ p

/-- The line without its line feed. -/
def chomp (p : Text) : Text := if p.getLast? = some '\n' then p.dropLast else p

theorem chomp_closed (u : Text) : chomp (u ++ ['\n']) = u := by
  rw [chomp, if_pos List.getLast?_concat, List.dropLast_concat]

theorem chomp_open (h : '\n' ∉ p) : chomp p = p := by
  rw [chomp, if_neg fun hlast => h (List.mem_of_getLast? hlast)]

theorem IsClosedLine.cons (hc : c ≠ '\n') (h : IsClosedLine p) : IsClosedLine (c :: p) := by
  obtain ⟨u, hu, rfl⟩ := h
  refine ⟨c :: u, ?_, rfl⟩
  rw [List.mem_cons, not_or]
  exact ⟨hc.symm, hu⟩

theorem closed_map_cons (hc : c ≠ '\n') (h : ∀ p ∈ ps, IsClosedLine p) :
    ∀ p ∈ ps.map (c :: ·), IsClosedLine p := by
  intro p hp
  obtain ⟨q, hq, rfl⟩ := List.mem_map.1 hp
  exact (h q hq).cons hc

theorem IsOpenLine.cons (hc : c ≠ '\n') (h : IsOpenLine p) : IsOpenLine (c :: p) := by
  refine ⟨List.cons_ne_nil c p, ?_⟩
  rw [List.mem_cons, not_or]
  exact ⟨hc.symm, h.2⟩

theorem chomp_cons (hc : c ≠ '\n') (p : Text) : chomp (c :: p) = c :: chomp p := by
  cases p with
  | nil => exact chomp_open (by simpa using hc.symm)
  | cons d r =>
    rw [chomp, chomp, List.getLast?_cons_cons, List.dropLast_cons_cons]
    split
    · rfl
    · rfl

/-! ### Lists of lines -/

/-- The pieces are the lines of a text: all are closed, but the last one may be open. -/
inductive AreLines : List Text → Prop
  | nil : AreLines []
  | last {p : Text} (h : IsOpenLine p) : AreLines [p]
  | cons {p : Text} {ps : List Text} (h : IsClosedLine p) (hps : AreLines ps) : AreLines (p :: ps)

theorem areLines_closed (h : ∀ p ∈ ps, IsClosedLine p) : AreLines ps := by
  induction ps with
  | nil => exact .nil
  | cons p ps ih =>
    rw [List.forall_mem_cons] at h
    exact .cons h.1 (ih h.2)

theorem AreLines.append (hps : ∀ p ∈ ps, IsClosedLine p) (h : AreLines qs) :
    AreLines (ps ++ qs) := by
  induction ps with
  | nil => exact h
  | cons p ps ih =>
    rw [List.forall_mem_cons] at hps
    exact .cons hps.1 (ih hps.2)

theorem AreLines.right (h : AreLines (ps ++ qs)) : AreLines qs := by
  induction ps with
  | nil => exact h
  | cons p ps ih =>
    cases hsplit : ps ++ qs with
    | nil =>
      rw [(List.append_eq_nil_iff.1 hsplit).2]
      exact .nil
    | cons q rest =>
      rw [List.cons_append, hsplit] at h
      cases h with
      | cons _ hrest => exact ih (hsplit ▸ hrest)

/-- Lines with others behind them are closed. -/
theorem AreLines.closed (h : AreLines (ps ++ qs)) (hqs : qs ≠ []) : ∀ p ∈ ps, IsClosedLine p := by
  induction ps with
  | nil => exact fun p hp => absurd hp List.not_mem_nil
  | cons p ps ih =>
    have hne : ps ++ qs ≠ [] := List.append_ne_nil_of_right_ne_nil ps hqs
    obtain ⟨q, rest, hrest⟩ := List.exists_cons_of_ne_nil hne
    rw [List.cons_append, hrest] at h
    cases h with
    | cons hp hps =>
      rw [List.forall_mem_cons]
      exact ⟨hp, ih (hrest ▸ hps)⟩

theorem AreLines.left (h : AreLines (ps ++ qs)) : AreLines ps := by
  cases qs with
  | nil => rwa [List.append_nil] at h
  | cons q qs => exact areLines_closed (h.closed (List.cons_ne_nil q qs))

theorem AreLines.map_cons (hc : c ≠ '\n') (h : AreLines ps) : AreLines (ps.map (c :: ·)) := by
  induction h with
  | nil => exact .nil
  | last hp => exact .last (hp.cons hc)
  | cons hp _ ih => exact .cons (hp.cons hc) ih

/-- Only the last of the lines can be open. -/
theorem AreLines.closed_or_open (h : AreLines ps) :
    (∀ p ∈ ps, IsClosedLine p) ∨
      ∃ qs p, ps = qs ++ [p] ∧ (∀ q ∈ qs, IsClosedLine q) ∧ IsOpenLine p := by
  induction h with
  | nil => exact .inl fun p hp => absurd hp List.not_mem_nil
  | @last p hp => exact .inr ⟨[], p, rfl, fun q hq => absurd hq List.not_mem_nil, hp⟩
  | @cons p ps hp _ ih =>
    rcases ih with hclosed | ⟨qs, q, rfl, hclosed, hq⟩
    · exact .inl (List.forall_mem_cons.2 ⟨hp, hclosed⟩)
    · exact .inr ⟨p :: qs, q, rfl, List.forall_mem_cons.2 ⟨hp, hclosed⟩, hq⟩

/-- A line that is left open takes in the line that follows. -/
theorem AreLines.join (hp : IsOpenLine p) (h : AreLines (q :: qs)) : AreLines ((p ++ q) :: qs) := by
  cases h with
  | last hq =>
    refine .last ⟨List.append_ne_nil_of_left_ne_nil hp.1 q, ?_⟩
    rw [List.mem_append, not_or]
    exact ⟨hp.2, hq.2⟩
  | cons hq hqs =>
    obtain ⟨u, hu, rfl⟩ := hq
    refine .cons ⟨p ++ u, ?_, (List.append_assoc p u _).symm⟩ hqs
    rw [List.mem_append, not_or]
    exact ⟨hp.2, hu⟩

/-! ### The lines of a text -/

/-- The lines of a text as its reader sees them.  What follows the last line feed is a line only if
    it is not empty. -/
def shownLines (t : Text) : List Text :=
  if (lines t).getLast? = some [] then (lines t).dropLast else lines t

theorem shownLines_open (h : IsOpenLine p) : shownLines p = [p] := by
  have hlines : lines p = [p] := List.splitOn_eq_singleton h.2
  rw [shownLines, hlines, if_neg]
  rw [List.getLast?_singleton, Option.some.injEq]
  exact h.1

theorem shownLines_closed (hu : '\n' ∉ u) (t : Text) :
    shownLines (u ++ ['\n'] ++ t) = u :: shownLines t := by
  have hlines : lines (u ++ ['\n'] ++ t) = u :: lines t := by
    rw [lines, List.append_assoc, List.singleton_append, List.splitOn_append_cons_self,
      List.splitOn_eq_singleton hu]
    rfl
  obtain ⟨l, ls, hl⟩ := List.exists_cons_of_ne_nil (lines_ne_nil t)
  rw [shownLines, shownLines, hlines, hl, List.getLast?_cons_cons, List.dropLast_cons_cons]
  split
  · rfl
  · rfl

/-- **The lines of the joined text are the pieces without their line feeds.** -/
theorem shownLines_flatten (h : AreLines ps) : shownLines ps.flatten = ps.map chomp := by
  induction h with
  | nil => rfl
  | @last p h =>
    rw [List.flatten_cons, List.flatten_nil, List.append_nil, shownLines_open h, List.map_cons,
      chomp_open h.2, List.map_nil]
  | cons h _ ih =>
    obtain ⟨u, hu, rfl⟩ := h
    rw [List.flatten_cons, shownLines_closed hu, ih, List.map_cons, chomp_closed]

/-! ### Texts with one kind of line end -/

/-- Only line feeds end the lines of the text. -/
def HasOnlyFeeds (t : Text) : Prop := ∀ c ∈ t, isLineEnd c = true → c = '\n'

instance (t : Text) : Decidable (HasOnlyFeeds t) := List.decidableBAll _ t

theorem flatten_linesWithEnds (t : Text) : (linesWithEnds t).flatten = t := by
  fun_induction linesWithEnds t with
  | case1 => rfl
  | case2 r ih => rw [List.flatten_cons, ih]; rfl
  | case3 c r _ _ ih => rw [List.flatten_cons, ih]; rfl
  | case4 c r _ _ hnil ih =>
    rw [hnil, List.flatten_nil] at ih
    rw [← ih]
    rfl
  | case5 c r _ _ l ls hcons ih =>
    rw [hcons, List.flatten_cons] at ih
    rw [List.flatten_cons, List.cons_append, ih]

theorem areLines_linesWithEnds (h : HasOnlyFeeds t) : AreLines (linesWithEnds t) := by
  fun_induction linesWithEnds t with
  | case1 => exact .nil
  | case2 r ih => exact absurd (h '\r' (by simp) (by decide)) (by decide)
  | case3 c r _ hc ih =>
    have hfeed := h c (by simp) hc
    have hclosed : IsClosedLine [c] := ⟨[], by simp, by rw [hfeed]; rfl⟩
    exact .cons hclosed (ih fun d hd => h d (by simp [hd]))
  | case4 c r _ hc hnil ih =>
    refine .last ⟨List.cons_ne_nil c [], ?_⟩
    rw [List.mem_singleton]
    rintro rfl
    exact hc (by decide)
  | case5 c r _ hc l ls hcons ih =>
    have hne : c ≠ '\n' := by
      rintro rfl
      exact hc (by decide)
    have hrest := ih fun d hd => h d (by simp [hd])
    rw [hcons] at hrest
    cases hrest with
    | last hl => exact .last (hl.cons hne)
    | cons hl hls => exact .cons (hl.cons hne) hls

theorem shownLines_eq (h : HasOnlyFeeds t) : shownLines t = (linesWithEnds t).map chomp := by
  rw [← shownLines_flatten (areLines_linesWithEnds h), flatten_linesWithEnds]

end ImportRepair.Diff
