import ImportRepair.Proofs.Diff.Patch

/-!
# Diffs as patches

A diff is a patch, with one exception.  The lines of a diff keep their ends, so
the last line of the old text, if it has none, runs into a line that is shown in
its place, and what is said of the one can no longer be told from the other: the
headers then announce more lines than there are.
-/

namespace ImportRepair.Diff

open Text

variable {label before after : Text} {s : Segment}

/-! ### The lines of a diff -/

def comparison (before after : Text) : List Segment :=
  segments (linesWithEnds before) (linesWithEnds after)

/-- The lines in front of the hunks, with their ends. -/
def names (label : Text) : List Text :=
  ["--- a/".toList ++ label ++ ['\n'], "+++ b/".toList ++ label ++ ['\n']]

/-- The lines of the hunks, with their ends. -/
def shown (before after : Text) : List Text :=
  (hunks (comparison before after)).flatMap Hunk.pieces

theorem leads_comparison (before after : Text) :
    Leads 0 0 (hunks (comparison before after)) (linesWithEnds before) (linesWithEnds after) := by
  have hleads := leads_hunks (comparison before after)
  rwa [comparison, flatMap_old_segments, flatMap_new_segments] at hleads

/-- Two texts that differ have hunks. -/
theorem hunks_ne_nil (h : before ≠ after) : hunks (comparison before after) ≠ [] := by
  intro hnil
  have hleads := leads_comparison before after
  rw [hnil] at hleads
  apply h
  rw [← flatten_linesWithEnds before, hleads.eq_of_nil, flatten_linesWithEnds]

theorem unified_eq (label : Text) (h : before ≠ after) :
    unified label before after = (names label ++ shown before after).flatten := by
  obtain ⟨h₁, hs, hhunks⟩ := List.exists_cons_of_ne_nil (hunks_ne_nil h)
  rw [unified, ← comparison, names, shown, hhunks]
  simp [flatten_flatMap Hunk.flatten_pieces, Hunk.flatten_pieces]

theorem closed_names (h : '\n' ∉ label) : ∀ p ∈ names label, IsClosedLine p := by
  intro p hp
  rcases List.mem_pair.1 hp with rfl | rfl
  · exact ⟨"--- a/".toList ++ label, by simp [h], rfl⟩
  · exact ⟨"+++ b/".toList ++ label, by simp [h], rfl⟩

theorem map_chomp_names (label : Text) (ls : List Text) : (names label ++ ls).map chomp =
    ("--- a/".toList ++ label) :: ("+++ b/".toList ++ label) :: ls.map chomp := by
  rw [names, List.cons_append, List.cons_append, List.nil_append, List.map_cons, List.map_cons,
    chomp_closed, chomp_closed]

theorem map_chomp_shown (before after : Text) : (shown before after).map chomp =
    ((hunks (comparison before after)).map Hunk.toPatch).flatMap PatchHunk.lines := by
  rw [shown, List.map_flatMap, List.flatMap_map]
  simp only [Hunk.lines_toPatch]

/-! ### Open ends -/

/-- The last line of `before` has no line feed, and lines of `after` are shown behind it. -/
def RunsOn (before after : Text) : Prop :=
  ∃ old new, (comparison before after).getLast? = some (.change old new) ∧ new ≠ [] ∧
    ∃ p ∈ old, '\n' ∉ p

/-- A text that ends in a line feed runs into nothing. -/
theorem not_runsOn_of_feed (hb : HasOnlyFeeds before) (hend : before.getLast? = some '\n') :
    ¬ RunsOn before after := by
  rintro ⟨old, new, hlast, -, p, hp, hfeed⟩
  obtain ⟨pre, hss⟩ := List.getLast?_eq_some_iff.1 hlast
  have hlines := flatMap_old_segments (linesWithEnds before) (linesWithEnds after)
  rw [← comparison, hss, List.flatMap_append, List.flatMap_singleton] at hlines
  have hold := areLines_linesWithEnds hb
  rw [← hlines] at hold
  rcases hold.right.closed_or_open with hclosed | ⟨qs, o, ho, -, hopen⟩
  · obtain ⟨u, -, rfl⟩ := hclosed p hp
    exact hfeed (by simp)
  · have htext := flatten_linesWithEnds before
    rw [← hlines, ho, List.flatten_append, List.flatten_append, List.flatten_singleton,
      ← List.append_assoc] at htext
    rw [← htext, List.getLast?_append_of_ne_nil _ hopen.1] at hend
    exact hopen.2 (List.mem_of_getLast? hend)

/-- The lines in front of the last segment are closed, so it depends on the last one alone whether
    the lines of a diff stay apart. -/
theorem exists_shown (hb : HasOnlyFeeds before) (ha : HasOnlyFeeds after) (h : before ≠ after) :
    ∃ ps s, (∀ p ∈ ps, IsClosedLine p) ∧ AreLines s.old ∧ AreLines s.new ∧
      (comparison before after).getLast? = some s ∧ shown before after = ps ++ s.front.pieces := by
  have hhunks := hunks_ne_nil h
  have hold := areLines_linesWithEnds hb
  have hnew := areLines_linesWithEnds ha
  have hseparates := separates_segments (linesWithEnds before) (linesWithEnds after)
  rw [← flatMap_old_segments (linesWithEnds before) (linesWithEnds after)] at hold
  rw [← flatMap_new_segments (linesWithEnds before) (linesWithEnds after)] at hnew
  rw [← comparison] at hold hnew hseparates
  rw [shown]
  rcases List.eq_nil_or_concat (comparison before after) with hnil | ⟨pre, s, hss⟩
  · rw [hnil] at hhunks
    exact absurd rfl hhunks
  · rw [List.concat_eq_append] at hss
    rw [hss] at hhunks hold hnew hseparates ⊢
    obtain ⟨ps, hps, heq⟩ := exists_pieces_hunks s hhunks (closed_pieces hseparates hold hnew)
    rw [List.flatMap_append, List.flatMap_singleton] at hold hnew
    exact ⟨ps, s, hps, hold.right, hnew.right, List.getLast?_concat, heq⟩

/-- What is shown of the last segment are lines unless one of its lines runs into another. -/
theorem areLines_front (hold : AreLines s.old) (hnew : AreLines s.new)
    (h : ∀ old new, s = .change old new → new ≠ [] → ∀ p ∈ old, '\n' ∈ p) :
    AreLines s.front.pieces := by
  cases s with
  | same ls =>
    have hsplit : AreLines (ls.take contextLines ++ ls.drop contextLines) := by
      rwa [List.take_append_drop]
    exact hsplit.left.map_cons (by decide)
  | change old new =>
    by_cases hnil : new = []
    · rw [Segment.front, Segment.pieces, hnil, List.map_nil, List.append_nil]
      exact hold.map_cons (by decide)
    · rcases hold.closed_or_open with hclosed | ⟨qs, p, rfl, -, hp⟩
      · exact AreLines.append (closed_map_cons (by decide) hclosed) (hnew.map_cons (by decide))
      · exact absurd (h _ new rfl hnil p (by simp)) hp.2

/-- **The lines of a diff stay apart unless the end of the old text runs into the new one.** -/
theorem areLines_diff (hlabel : '\n' ∉ label) (hb : HasOnlyFeeds before)
    (ha : HasOnlyFeeds after) (h : before ≠ after) (hruns : ¬ RunsOn before after) :
    AreLines (names label ++ shown before after) := by
  obtain ⟨ps, s, hps, hold, hnew, hlast, heq⟩ := exists_shown hb ha h
  rw [heq]
  apply AreLines.append (closed_names hlabel)
  apply AreLines.append hps
  apply areLines_front hold hnew
  rintro old new rfl hne p hp
  by_contra hfeed
  exact hruns ⟨old, new, hlast, hne, p, hp, hfeed⟩

theorem isPatch_of_areLines (hb : HasOnlyFeeds before) (ha : HasOnlyFeeds after)
    (h : before ≠ after) (hlines : AreLines (names label ++ shown before after)) :
    IsPatch label before after (unified label before after) := by
  have hleads := leads_comparison before after
  refine ⟨(hunks (comparison before after)).map Hunk.toPatch, ?_, ?_, ?_, ?_⟩
  · rw [ne_eq, List.map_eq_nil_iff]
    exact hunks_ne_nil h
  · rw [unified_eq label h, shownLines_flatten hlines, map_chomp_names, map_chomp_shown]
  · rw [shownLines_eq hb, shownLines_eq ha, List.forall_mem_map]
    intro hunk hhunk
    exact ⟨_, _, hleads.shows (x := []) (y := []) rfl rfl hunk hhunk⟩
  · rw [shownLines_eq hb, shownLines_eq ha]
    exact hleads.patched?

/-! ### Lines that run into others -/

theorem isBalanced_shown (before after : Text) : IsBalanced ((shown before after).map chomp) := by
  have hleads := leads_comparison before after
  rw [map_chomp_shown]
  apply isBalanced_flatMap
  rw [List.forall_mem_map]
  intro hunk hhunk
  exact (hleads.shows (x := []) (y := []) rfl rfl hunk hhunk).isBalanced

/-- **A line that is taken away takes in one that is put in its place.** -/
theorem exists_joined_line (hlabel : '\n' ∉ label) (hb : HasOnlyFeeds before)
    (ha : HasOnlyFeeds after) (h : before ≠ after) (hruns : RunsOn before after) :
    ∃ ls ms u v w, (shown before after).map chomp = ls ++ ('-' :: u) :: ('+' :: v) :: ms ∧
      (shownLines (unified label before after)).drop 2 = ls ++ ('-' :: w) :: ms := by
  obtain ⟨ps, s, hps, hold, hnew, hlast, heq⟩ := exists_shown hb ha h
  obtain ⟨old, new, hchange, hne, p, hp, hfeed⟩ := hruns
  rw [hchange, Option.some.injEq] at hlast
  subst hlast
  rcases AreLines.closed_or_open hold with hclosed | ⟨qs, o, rfl, hqs, ho⟩
  · obtain ⟨u, -, rfl⟩ := hclosed p hp
    exact absurd (by simp) hfeed
  obtain ⟨n, ns, rfl⟩ := List.exists_cons_of_ne_nil hne
  have hshown : shown before after =
      (ps ++ qs.map ('-' :: ·)) ++ ('-' :: o) :: ('+' :: n) :: ns.map ('+' :: ·) := by
    rw [heq]
    simp [Segment.front, Segment.pieces]
  have hjoined : AreLines (names label ++
      ((ps ++ qs.map ('-' :: ·)) ++ ('-' :: o ++ '+' :: n) :: ns.map ('+' :: ·))) := by
    apply AreLines.append (closed_names hlabel)
    apply AreLines.append
    · rw [List.forall_mem_append]
      exact ⟨hps, closed_map_cons (by decide) hqs⟩
    · exact AreLines.join (ho.cons (by decide)) (hnew.map_cons (by decide))
  have htext : unified label before after = (names label ++
      ((ps ++ qs.map ('-' :: ·)) ++ ('-' :: o ++ '+' :: n) :: ns.map ('+' :: ·))).flatten := by
    rw [unified_eq label h, hshown]
    simp
  refine ⟨(ps ++ qs.map ('-' :: ·)).map chomp, (ns.map ('+' :: ·)).map chomp, chomp o, chomp n,
    chomp (o ++ '+' :: n), ?_, ?_⟩
  · rw [hshown, List.map_append, List.map_cons, List.map_cons, chomp_cons (by decide),
      chomp_cons (by decide)]
  · rw [htext, shownLines_flatten hjoined, map_chomp_names, List.map_append, List.map_cons,
      List.cons_append, chomp_cons (by decide)]
    rfl

/-- **When a diff is a patch.**  It is one exactly if the last line of the old text, without a line
    feed, does not run into a line that is shown in its place. -/
theorem unified_isPatch_iff (hlabel : '\n' ∉ label) (hb : HasOnlyFeeds before)
    (ha : HasOnlyFeeds after) (h : before ≠ after) :
    IsPatch label before after (unified label before after) ↔ ¬ RunsOn before after := by
  constructor
  · intro hpatch hruns
    obtain ⟨ls, ms, u, v, w, hkept, hjoined⟩ := exists_joined_line hlabel hb ha h hruns
    -- The headers announce one line more than the diff shows.
    have hannounced := isBalanced_shown before after
    have hread := hpatch.isBalanced
    rw [hkept, IsBalanced, announced_append, marked_append, announced_cons_of_ne (by decide),
      announced_cons_of_ne (by decide), marked_cons, if_neg (by decide), marked_cons,
      if_pos (by decide), List.length_append, List.length_cons] at hannounced
    rw [hjoined, IsBalanced, announced_append, marked_append, announced_cons_of_ne (by decide),
      marked_cons, if_neg (by decide), List.length_append] at hread
    omega
  · intro hruns
    exact isPatch_of_areLines hb ha h (areLines_diff hlabel hb ha h hruns)

/-- The new text may lack its last line feed. -/
theorem unified_isPatch_open_end :
    let before := "use(a);\n".toList
    let after := "use(b);".toList
    '\n' ∉ "m.ts".toList ∧ HasOnlyFeeds before ∧ HasOnlyFeeds after ∧ before ≠ after ∧
      IsPatch "m.ts".toList before after (unified "m.ts".toList before after) := by
  intro before after
  have hlabel : '\n' ∉ "m.ts".toList := by decide
  have hb : HasOnlyFeeds before := by decide
  have ha : HasOnlyFeeds after := by decide
  have h : before ≠ after := by decide
  exact ⟨hlabel, hb, ha, h,
    (unified_isPatch_iff hlabel hb ha h).2 (not_runsOn_of_feed hb (by decide))⟩

/-- Two lines without a line feed become one, and the hunk shows less than its header says. -/
theorem unified_joins_last_lines :
    let before := "a".toList
    let after := "b".toList
    '\n' ∉ "m.ts".toList ∧ HasOnlyFeeds before ∧ HasOnlyFeeds after ∧ before ≠ after ∧
      unified "m.ts".toList before after =
        "--- a/m.ts\n+++ b/m.ts\n@@ -1 +1 @@\n-a+b".toList ∧
      ¬ IsPatch "m.ts".toList before after (unified "m.ts".toList before after) := by
  intro before after
  have htext : unified "m.ts".toList before after =
      "--- a/m.ts\n+++ b/m.ts\n@@ -1 +1 @@\n-a+b".toList := by decide +kernel
  refine ⟨by decide, by decide, by decide, by decide, htext, ?_⟩
  intro hpatch
  rw [htext] at hpatch
  exact absurd hpatch.isBalanced (by decide +kernel)

end ImportRepair.Diff
