import ImportRepair.Proofs.Diff.Lines
import ImportRepair.Proofs.Diff.Segments

/-!
# The hunks of a comparison

The hunks of a comparison lead from the old list to the new one: between two
hunks both lists have the same lines.  And the lines that are shown are those of
the segments, some of a common run left out.  All of them end in a line feed up
to the last segment, as long as nothing but the last line of each list is open.
-/

namespace ImportRepair.Diff

open Text

variable {a b ls : List Text} {h : Hunk} {s : Segment} {pre rest : List Segment} {k l : Nat}

/-! ### Hunks that grow -/

@[simp] theorem Hunk.old_push (h : Hunk) (s : Segment) : (h.push s).old = h.old ++ s.old := by
  simp [Hunk.push, Hunk.old]

@[simp] theorem Hunk.new_push (h : Hunk) (s : Segment) : (h.push s).new = h.new ++ s.new := by
  simp [Hunk.push, Hunk.new]

@[simp] theorem Hunk.old_next (h : Hunk) (ls : List Text) :
    (h.next ls).old = ls.drop (ls.length - contextLines) := List.append_nil _

@[simp] theorem Hunk.new_next (h : Hunk) (ls : List Text) :
    (h.next ls).new = ls.drop (ls.length - contextLines) := List.append_nil _

/-- What the hunks show of the segment that ends the comparison. -/
def Segment.front : Segment → Segment
  | same ls => same (ls.take contextLines)
  | change old new => change old new

theorem hunksFrom_change (h : Hunk) (old new : List Text) (rest : List Segment) :
    hunksFrom h (.change old new :: rest) = hunksFrom (h.push (.change old new)) rest := rfl

theorem hunksFrom_same (h : Hunk) (ls : List Text) (hrest : rest ≠ []) :
    hunksFrom h (.same ls :: rest) =
      if 2 * contextLines < ls.length then
        h.push (.same (ls.take contextLines)) :: hunksFrom (h.next ls) rest
      else hunksFrom (h.push (.same ls)) rest := by
  cases rest with
  | nil => exact absurd rfl hrest
  | cons s rest => rfl

theorem hunksFrom_singleton (h : Hunk) (s : Segment) : hunksFrom h [s] = [h.push s.front] := by
  cases s <;> rfl

/-! ### From the old list to the new one -/

/-- The hunks lead from the lines `a` to the lines `b`, where `k` and `l` lines stand in front of
    them.  Between two hunks both lists have the same lines. -/
inductive Leads : Nat → Nat → List Hunk → List Text → List Text → Prop
  | nil {k l : Nat} (gap : List Text) : Leads k l [] gap gap
  | cons {k l : Nat} {a b : List Text} {h : Hunk} {hs : List Hunk} (gap : List Text)
      (hold : h.oldStart = k + gap.length) (hnew : h.newStart = l + gap.length)
      (hrest : Leads (h.oldStart + h.old.length) (h.newStart + h.new.length) hs a b) :
      Leads k l (h :: hs) (gap ++ (h.old ++ a)) (gap ++ (h.new ++ b))

theorem Leads.eq_of_nil (h : Leads k l [] a b) : a = b := by
  cases h
  rfl

/-- What is hidden of a long run stands between the lines that are shown of it. -/
theorem exists_hidden (hlong : 2 * contextLines < ls.length) :
    ∃ hidden, ls = ls.take contextLines ++ (hidden ++ ls.drop (ls.length - contextLines)) ∧
      (ls.take contextLines).length + hidden.length = ls.length - contextLines := by
  refine ⟨(ls.drop contextLines).take (ls.length - 2 * contextLines), ?_, ?_⟩
  · have hdrop : ls.drop (ls.length - contextLines) =
        (ls.drop contextLines).drop (ls.length - 2 * contextLines) := by
      rw [List.drop_drop]
      congr 1
      omega
    rw [hdrop, List.take_append_drop, List.take_append_drop]
  · rw [List.length_take, List.length_take, List.length_drop]
    omega

/-- The induction follows the segments behind the hunk.  A run that is cut leaves a gap, and the
    next hunk starts where the gap ends. -/
theorem leads_hunksFrom (gap : List Text) (ss : List Segment) (hold : h.oldStart = k + gap.length)
    (hnew : h.newStart = l + gap.length) :
    Leads k l (hunksFrom h ss) (gap ++ (h.old ++ ss.flatMap Segment.old))
      (gap ++ (h.new ++ ss.flatMap Segment.new)) := by
  fun_induction hunksFrom h ss generalizing k l gap with
  | case1 h => exact .cons gap hold hnew (.nil [])
  | case2 h ls =>
    have hend := Leads.cons (h := h.push (.same (ls.take contextLines))) gap hold hnew
      (.nil (ls.drop contextLines))
    simpa [Segment.old, Segment.new] using hend
  | case3 h ls rest _ hlong ih =>
    obtain ⟨hidden, hls, hlength⟩ := exists_hidden hlong
    have hrest : Leads (h.oldStart + (h.push (.same (ls.take contextLines))).old.length)
        (h.newStart + (h.push (.same (ls.take contextLines))).new.length)
        (hunksFrom (h.next ls) rest)
        (hidden ++ ((h.next ls).old ++ rest.flatMap Segment.old))
        (hidden ++ ((h.next ls).new ++ rest.flatMap Segment.new)) := by
      apply ih
      · rw [Hunk.old_push, Segment.old, List.length_append, Hunk.next, ← hlength]
        dsimp only
        omega
      · rw [Hunk.new_push, Segment.new, List.length_append, Hunk.next, ← hlength]
        dsimp only
        omega
    have hcons := Leads.cons (h := h.push (.same (ls.take contextLines))) gap hold hnew hrest
    have hrun : ∀ after : List Text, ls.take contextLines ++
        (hidden ++ (ls.drop (ls.length - contextLines) ++ after)) = ls ++ after := by
      intro after
      conv_rhs => rw [hls]
      simp only [List.append_assoc]
    simp only [Hunk.old_push, Hunk.new_push, Hunk.old_next, Hunk.new_next, Segment.old,
      Segment.new, List.append_assoc, hrun] at hcons
    exact hcons
  | case4 h ls rest _ _ ih =>
    have hpush := ih gap hold hnew
    simpa using hpush
  | case5 h s rest _ _ ih =>
    have hpush := ih gap hold hnew
    simpa using hpush

/-- **The hunks of a comparison lead from the old list to the new one.** -/
theorem leads_hunks (ss : List Segment) :
    Leads 0 0 (hunks ss) (ss.flatMap Segment.old) (ss.flatMap Segment.new) := by
  unfold hunks
  split
  · exact .nil []
  · exact .nil _
  · rename_i ls rest _
    have hnext := leads_hunksFrom (h := Hunk.next ⟨0, 0, []⟩ ls) (k := 0) (l := 0)
      (ls.take (ls.length - contextLines)) rest (by simp [Hunk.next, Hunk.old])
      (by simp [Hunk.next, Hunk.new])
    simpa only [Hunk.old_next, Hunk.new_next, ← List.append_assoc, List.take_append_drop,
      List.flatMap_cons, Segment.old, Segment.new] using hnext
  · exact leads_hunksFrom (h := ⟨0, 0, []⟩) [] _ rfl rfl

/-! ### The lines of a hunk -/

/-- The lines that show a segment, with their ends. -/
def Segment.pieces : Segment → List Text
  | same ls => ls.map (' ' :: ·)
  | change old new => old.map ('-' :: ·) ++ new.map ('+' :: ·)

def Hunk.pieces (h : Hunk) : List Text := h.header :: h.segments.flatMap Segment.pieces

theorem flatten_flatMap {α : Type} {f : α → List Text} {g : α → Text}
    (h : ∀ x, (f x).flatten = g x) (xs : List α) : (xs.flatMap f).flatten = xs.flatMap g := by
  induction xs with
  | nil => rfl
  | cons x xs ih => rw [List.flatMap_cons, List.flatten_append, h, ih, List.flatMap_cons]

theorem Segment.flatten_pieces (s : Segment) : s.pieces.flatten = s.text := by
  cases s with
  | same ls => exact (List.flatMap_def ..).symm
  | change old new => rw [pieces, List.flatten_append, ← List.flatMap_def, ← List.flatMap_def, text]

theorem Hunk.flatten_pieces (h : Hunk) : h.pieces.flatten = h.text := by
  rw [Hunk.pieces, List.flatten_cons, flatten_flatMap Segment.flatten_pieces, Hunk.text]

theorem Hunk.pieces_push (h : Hunk) (s : Segment) : (h.push s).pieces =
    (h.push s).header :: (h.segments.flatMap Segment.pieces ++ s.pieces) := by
  simp [Hunk.pieces, Hunk.push]

/-- The header of a hunk without its line feed. -/
def Hunk.headline (h : Hunk) : Text :=
  "@@ -".toList ++ ((rangeText h.oldStart h.old.length).toList ++
    (" +".toList ++ ((rangeText h.newStart h.new.length).toList ++ " @@".toList)))

theorem Hunk.header_eq (h : Hunk) : h.header = h.headline ++ ['\n'] := by
  simp [Hunk.header, Hunk.headline, toString]

theorem toList_rangeText (start count : Nat) : (rangeText start count).toList =
    if count = 1 then Nat.toDigits 10 (start + 1)
    else if count = 0 then Nat.toDigits 10 start ++ [',', '0']
    else Nat.toDigits 10 (start + 1) ++ ',' :: Nat.toDigits 10 count := by
  unfold rangeText
  split
  · simp [toString]
  · split
    · simp [toString]
    · simp [toString]

theorem feed_not_mem_rangeText (start count : Nat) : '\n' ∉ (rangeText start count).toList := by
  have hdigits : ∀ n, '\n' ∉ Nat.toDigits 10 n := fun n hn =>
    absurd (Nat.isDigit_of_mem_toDigits (by decide) (by decide) hn) (by decide)
  rw [toList_rangeText]
  split
  · exact hdigits _
  · split
    · simpa using hdigits start
    · simpa using ⟨hdigits _, hdigits _⟩

theorem Hunk.feed_not_mem_headline (h : Hunk) : '\n' ∉ h.headline := by
  simp [headline, feed_not_mem_rangeText]

theorem Hunk.closed_header (h : Hunk) : IsClosedLine h.header :=
  ⟨h.headline, h.feed_not_mem_headline, h.header_eq⟩

/-! ### Lines in front of the last segment -/

/-- If all lines in front of the last segment are closed, then the hunks show closed lines and
    behind them what they show of that segment. -/
theorem exists_pieces_hunksFrom (s : Segment)
    (hpre : ∀ p ∈ (h.segments ++ pre).flatMap Segment.pieces, IsClosedLine p) :
    ∃ ps, (∀ p ∈ ps, IsClosedLine p) ∧
      (hunksFrom h (pre ++ [s])).flatMap Hunk.pieces = ps ++ s.front.pieces := by
  induction pre generalizing h with
  | nil =>
    rw [List.append_nil] at hpre
    refine ⟨(h.push s.front).header :: h.segments.flatMap Segment.pieces, ?_, ?_⟩
    · rw [List.forall_mem_cons]
      exact ⟨Hunk.closed_header _, hpre⟩
    · rw [List.nil_append, hunksFrom_singleton, List.flatMap_singleton, Hunk.pieces_push,
        List.cons_append]
  | cons t pre ih =>
    have hpush : ∀ p ∈ ((h.push t).segments ++ pre).flatMap Segment.pieces, IsClosedLine p := by
      simpa [Hunk.push] using hpre
    cases t with
    | change old new =>
      rw [List.cons_append, hunksFrom_change]
      exact ih hpush
    | same ls =>
      rw [List.cons_append, hunksFrom_same _ _ (by simp)]
      split
      · rw [List.flatMap_append, List.forall_mem_append, List.flatMap_cons,
          List.forall_mem_append] at hpre
        obtain ⟨hbefore, hrun, hbehind⟩ := hpre
        have hpart : ∀ part : List Text, part ⊆ ls →
            ∀ p ∈ (Segment.same part).pieces, IsClosedLine p := fun part hsub p hp =>
          hrun p (List.map_subset _ hsub hp)
        have hnext : ∀ p ∈ ((h.next ls).segments ++ pre).flatMap Segment.pieces,
            IsClosedLine p := by
          rw [List.flatMap_append, List.forall_mem_append]
          refine ⟨?_, hbehind⟩
          rw [Hunk.next, List.flatMap_singleton]
          exact hpart _ (List.drop_subset _ _)
        obtain ⟨ps, hps, heq⟩ := ih hnext
        refine ⟨(h.push (.same (ls.take contextLines))).pieces ++ ps, ?_, ?_⟩
        · rw [List.forall_mem_append, Hunk.pieces_push, List.forall_mem_cons,
            List.forall_mem_append]
          exact ⟨⟨Hunk.closed_header _, hbefore, hpart _ (List.take_subset _ _)⟩, hps⟩
        · rw [List.flatMap_cons, heq, List.append_assoc]
      · exact ih hpush

theorem exists_pieces_hunks (s : Segment) (hss : hunks (pre ++ [s]) ≠ [])
    (hpre : ∀ p ∈ pre.flatMap Segment.pieces, IsClosedLine p) :
    ∃ ps, (∀ p ∈ ps, IsClosedLine p) ∧
      (hunks (pre ++ [s])).flatMap Hunk.pieces = ps ++ s.front.pieces := by
  have hstart : hunks (pre ++ [s]) = hunksFrom ⟨0, 0, []⟩ (pre ++ [s]) ∨
      ∃ ls rest, pre = .same ls :: rest ∧
        hunks (pre ++ [s]) = hunksFrom (Hunk.next ⟨0, 0, []⟩ ls) (rest ++ [s]) := by
    cases pre with
    | nil =>
      cases s with
      | same ls => exact absurd rfl hss
      | change old new => exact .inl rfl
    | cons t rest =>
      cases t with
      | same ls =>
        refine .inr ⟨ls, rest, rfl, ?_⟩
        cases rest <;> rfl
      | change old new => exact .inl rfl
  rcases hstart with heq | ⟨ls, rest, rfl, heq⟩
  · rw [heq]
    exact exists_pieces_hunksFrom s hpre
  · rw [heq]
    apply exists_pieces_hunksFrom
    rw [List.flatMap_cons, List.forall_mem_append] at hpre
    rw [List.flatMap_append, List.forall_mem_append]
    refine ⟨?_, hpre.2⟩
    rw [Hunk.next, List.flatMap_singleton]
    exact fun p hp => hpre.1 p (List.map_subset _ (List.drop_subset _ _) hp)

/-- **Only the lines of the last segment may be open.**  A line in front of it has another line
    behind it in its own list. -/
theorem closed_pieces (h : Separates (pre ++ [s]))
    (hold : AreLines ((pre ++ [s]).flatMap Segment.old))
    (hnew : AreLines ((pre ++ [s]).flatMap Segment.new)) :
    ∀ p ∈ pre.flatMap Segment.pieces, IsClosedLine p := by
  induction pre with
  | nil => exact fun p hp => absurd hp List.not_mem_nil
  | cons t pre ih =>
    rw [List.cons_append] at h hold hnew
    rw [List.flatMap_cons] at hold hnew
    rw [List.flatMap_cons, List.forall_mem_append]
    refine ⟨?_, ih h.tail hold.right hnew.right⟩
    obtain ⟨next, rest, hrest⟩ := List.exists_cons_of_ne_nil (l := pre ++ [s]) (by simp)
    rw [hrest] at h hold hnew
    have hnext := h.tail.full next List.mem_cons_self
    cases t with
    | same ls =>
      apply closed_map_cons (by decide)
      cases next with
      | same ms => exact hold.closed (List.append_ne_nil_of_left_ne_nil hnext _)
      | change o n =>
        rcases not_and_or.1 hnext with ho | hn
        · exact hold.closed (List.append_ne_nil_of_left_ne_nil ho _)
        · exact hnew.closed (List.append_ne_nil_of_left_ne_nil hn _)
    | change old new =>
      cases next with
      | change o n => simpa [Segment.isSame] using h.head (.change o n) rfl
      | same ms =>
        rw [Segment.pieces, List.forall_mem_append]
        have hms : ∀ f : Segment → List Text, ms ++ rest.flatMap f ≠ [] := fun f =>
          List.append_ne_nil_of_left_ne_nil hnext _
        exact ⟨closed_map_cons (by decide) (hold.closed (hms _)),
          closed_map_cons (by decide) (hnew.closed (hms _))⟩

end ImportRepair.Diff
