import ImportRepair.Proofs.Diagnostic.Located
import ImportRepair.Proofs.Diff.Hunks

/-!
# Patches

A patch names the files in two lines, and its hunks show lines of both texts, at
the places that their headers give.  It is applied from front to back: the lines
of a hunk that belong to the old text are looked up at their place, and those
that belong to the new text are put there.  The hunks of a comparison, written
line by line, are read back in this way.
-/

namespace ImportRepair.Diff

open Text

variable {a b ls ms : List Text} {hs : List Hunk} {c : Char} {t label before after : Text}
  {k l n : Nat}

/-! ### Patches -/

/-- Some lines of a text: how many stand in front of them, and how many they are. -/
structure LineRange where
  start : Nat
  count : Nat
deriving DecidableEq, Repr

/-- The lines of a text in the range. -/
def LineRange.of (range : LineRange) (ls : List Text) : List Text :=
  (ls.drop range.start).take range.count

/-- A range at the front of a text, and what follows it.  It is given by the number of its first
    line and how many lines it has, unless that is one.  A range without lines has the number of the
    line in front of it. -/
def range? (t : Text) : Option (LineRange × Text) := do
  let (first, r) ← Numeral.digits? t
  match r with
  | ',' :: r => do
    let (count, r) ← Numeral.digits? r
    if Numeral.value count = 0 then some (⟨Numeral.value first, 0⟩, r)
    else some (⟨Numeral.value first - 1, Numeral.value count⟩, r)
  | r => some (⟨Numeral.value first - 1, 1⟩, r)

/-- The ranges in the old and in the new text that the header of a hunk gives. -/
def ranges? (l : Text) : Option (LineRange × LineRange) := do
  let r ← "@@ -".toList.isPrefixOf? l
  let (old, r) ← range? r
  let r ← " +".toList.isPrefixOf? r
  let (new, r) ← range? r
  if r = " @@".toList then some (old, new) else none

/-- The lines that begin with one of the marks, without it. -/
def marked (marks : List Char) (ls : List Text) : List Text :=
  (ls.filter fun l => l.head?.any marks.contains).map List.tail

/-- A hunk as the reader of a patch sees it. -/
structure PatchHunk where
  header : Text
  body : List Text

namespace PatchHunk

def lines (h : PatchHunk) : List Text := h.header :: h.body

def old (h : PatchHunk) : List Text := marked [' ', '-'] h.body

def new (h : PatchHunk) : List Text := marked [' ', '+'] h.body

/-- The header gives the two ranges, and the hunk shows what stands there in the two texts. -/
structure Shows (h : PatchHunk) (before after : List Text) (old new : LineRange) : Prop where
  header : ranges? h.header = some (old, new)
  marks : ∀ l ∈ h.body, ∃ c ∈ [' ', '-', '+'], l.head? = some c
  old_eq : h.old = old.of before
  old_length : h.old.length = old.count
  new_eq : h.new = new.of after
  new_length : h.new.length = new.count

end PatchHunk

/-- What the hunks make of lines, in front of which `k` lines have been gone through.  The lines
    that a hunk takes away must stand at its place. -/
def patched? (k : Nat) (ls : List Text) : List PatchHunk → Option (List Text)
  | [] => some ls
  | h :: hs => do
    let (range, _) ← ranges? h.header
    let gap := range.start - k
    if k ≤ range.start ∧ gap ≤ ls.length ∧ h.old <+: ls.drop gap then
      let done ← patched? (k + gap + h.old.length) (ls.drop (gap + h.old.length)) hs
      some (ls.take gap ++ (h.new ++ done))
    else none

/-- The lines of the text are two that name the file and then those of the hunks.  Each hunk shows
    lines of the two texts, and together they turn the one into the other. -/
structure Patches (hs : List PatchHunk) (label before after text : Text) : Prop where
  ne_nil : hs ≠ []
  lines : shownLines text = ("--- a/".toList ++ label) :: ("+++ b/".toList ++ label) ::
    hs.flatMap PatchHunk.lines
  shows : ∀ h ∈ hs, ∃ old new, h.Shows (shownLines before) (shownLines after) old new
  applies : patched? 0 (shownLines before) hs = some (shownLines after)

/-- The text is a patch that turns the lines of one text into those of the other. -/
def IsPatch (label before after text : Text) : Prop :=
  ∃ hs : List PatchHunk, Patches hs label before after text

/-! ### Headers -/

theorem range?_rangeText (start count : Nat) (r : Text) :
    range? ((rangeText start count).toList ++ ' ' :: r) = some (⟨start, count⟩, ' ' :: r) := by
  have hspace : Stops isDigit (' ' :: r) := stops_cons.2 (by decide +kernel)
  have hcomma : ∀ u, Stops isDigit (',' :: u) := fun u => stops_cons.2 (by decide +kernel)
  have hread : ∀ n {u}, Stops isDigit u → Numeral.digits? (Nat.toDigits 10 n ++ u) =
      some (Nat.toDigits 10 n, u) := fun n _ => digits?_run Nat.toDigits_ne_nil (allIn_toDigits n)
  rw [toList_rangeText, range?]
  split
  · rename_i hone
    rw [hread _ hspace, hone]
    simp [Numeral.value_toDigits]
  · split
    · rename_i hzero
      have hnone : Numeral.digits? ('0' :: ' ' :: r) = some (['0'], ' ' :: r) := hread 0 hspace
      have hvalue : Numeral.value ['0'] = 0 := Numeral.value_toDigits 0
      rw [List.append_assoc, List.cons_append, hread _ (hcomma _), hzero]
      simp [Numeral.value_toDigits, hnone, hvalue]
    · rename_i hzero
      rw [List.append_assoc, List.cons_append, hread _ (hcomma _)]
      simp [Numeral.value_toDigits, hzero, hread _ hspace]

/-- **The header of a hunk gives its place in both texts.** -/
theorem ranges?_headline (h : Hunk) : ranges? h.headline =
    some (⟨h.oldStart, h.old.length⟩, ⟨h.newStart, h.new.length⟩) := by
  have hafter : ∀ (w : String) (r : Text), w.toList.isPrefixOf? (w.toList ++ r) = some r :=
    fun _ _ => isPrefixOf?_eq_some_iff.2 rfl
  have hplus : ∀ u, " +".toList.isPrefixOf? (' ' :: '+' :: u) = some u := hafter " +"
  have hshape : h.headline = "@@ -".toList ++ ((rangeText h.oldStart h.old.length).toList ++
      ' ' :: '+' :: ((rangeText h.newStart h.new.length).toList ++ ' ' :: "@@".toList)) := rfl
  have hend : " @@".toList = ' ' :: "@@".toList := rfl
  rw [hshape, ranges?, hafter]
  simp only [Option.bind_eq_bind, Option.bind_some, range?_rangeText, hplus, hend, if_true]

theorem head?_of_ranges? {p : LineRange × LineRange} (h : ranges? t = some p) :
    t.head? = some '@' := by
  unfold ranges? at h
  simp only [Option.bind_eq_bind, Option.bind_eq_some_iff] at h
  obtain ⟨r, hr, -⟩ := h
  rw [isPrefixOf?_eq_some_iff] at hr
  rw [hr]
  rfl

/-! ### Marked lines -/

theorem marked_append (marks : List Char) (ls ms : List Text) :
    marked marks (ls ++ ms) = marked marks ls ++ marked marks ms := by
  rw [marked, List.filter_append, List.map_append, marked, marked]

theorem marked_cons (marks : List Char) (c : Char) (r : Text) (ls : List Text) :
    marked marks ((c :: r) :: ls) =
      if c ∈ marks then r :: marked marks ls else marked marks ls := by
  by_cases hc : c ∈ marks
  · simp [marked, hc]
  · simp [marked, hc]

theorem marked_map_cons (marks : List Char) (c : Char) (ls : List Text) :
    marked marks (ls.map (c :: ·)) = if c ∈ marks then ls else [] := by
  induction ls with
  | nil => simp [marked]
  | cons l ls ih =>
    rw [List.map_cons, marked_cons, ih]
    split
    · rfl
    · rfl

theorem map_chomp_map_cons (hc : c ≠ '\n') (ls : List Text) :
    (ls.map (c :: ·)).map chomp = (ls.map chomp).map (c :: ·) := by
  rw [List.map_map, List.map_map]
  exact List.map_congr_left fun l _ => chomp_cons hc l

theorem Segment.marked_old (s : Segment) :
    marked [' ', '-'] (s.pieces.map chomp) = s.old.map chomp := by
  cases s with
  | same ls =>
    rw [pieces, map_chomp_map_cons (by decide), marked_map_cons]
    rfl
  | change old new =>
    rw [pieces, List.map_append, map_chomp_map_cons (by decide), map_chomp_map_cons (by decide),
      marked_append, marked_map_cons, marked_map_cons]
    exact List.append_nil _

theorem Segment.marked_new (s : Segment) :
    marked [' ', '+'] (s.pieces.map chomp) = s.new.map chomp := by
  cases s with
  | same ls =>
    rw [pieces, map_chomp_map_cons (by decide), marked_map_cons]
    rfl
  | change old new =>
    rw [pieces, List.map_append, map_chomp_map_cons (by decide), map_chomp_map_cons (by decide),
      marked_append, marked_map_cons, marked_map_cons]
    rfl

/-! ### The hunks of a comparison in a patch -/

/-- The hunk as the reader of a patch sees it if all its lines are. -/
def Hunk.toPatch (h : Hunk) : PatchHunk :=
  ⟨h.headline, (h.segments.flatMap Segment.pieces).map chomp⟩

theorem Hunk.lines_toPatch (h : Hunk) : h.toPatch.lines = h.pieces.map chomp := by
  rw [Hunk.pieces, List.map_cons, Hunk.header_eq, chomp_closed]
  rfl

theorem marked_flatMap_pieces {marks : List Char} {f : Segment → List Text}
    (hf : ∀ s : Segment, marked marks (s.pieces.map chomp) = (f s).map chomp)
    (ss : List Segment) :
    marked marks ((ss.flatMap Segment.pieces).map chomp) = (ss.flatMap f).map chomp := by
  induction ss with
  | nil => rfl
  | cons s ss ih =>
    rw [List.flatMap_cons, List.flatMap_cons, List.map_append, List.map_append, marked_append, ih,
      hf]

theorem Hunk.old_toPatch (h : Hunk) : h.toPatch.old = h.old.map chomp :=
  marked_flatMap_pieces Segment.marked_old h.segments

theorem Hunk.new_toPatch (h : Hunk) : h.toPatch.new = h.new.map chomp :=
  marked_flatMap_pieces Segment.marked_new h.segments

theorem Hunk.marks_toPatch (h : Hunk) :
    ∀ l ∈ h.toPatch.body, ∃ c ∈ [' ', '-', '+'], l.head? = some c := by
  intro l hl
  obtain ⟨p, hp, rfl⟩ := List.mem_map.1 hl
  obtain ⟨s, -, hp⟩ := List.mem_flatMap.1 hp
  have hmark : ∀ c ∈ [' ', '-', '+'], ∀ q : Text,
      ∃ d ∈ [' ', '-', '+'], (chomp (c :: q)).head? = some d := by
    intro c hc q
    have hfeed : ∀ d ∈ [' ', '-', '+'], d ≠ '\n' := by simp
    exact ⟨c, hc, by rw [chomp_cons (hfeed c hc), List.head?_cons]⟩
  cases s with
  | same ls =>
    obtain ⟨q, -, rfl⟩ := List.mem_map.1 hp
    exact hmark ' ' (by simp) q
  | change old new =>
    rcases List.mem_append.1 hp with hp | hp
    · obtain ⟨q, -, rfl⟩ := List.mem_map.1 hp
      exact hmark '-' (by simp) q
    · obtain ⟨q, -, rfl⟩ := List.mem_map.1 hp
      exact hmark '+' (by simp) q

theorem LineRange.of_middle {x : List Text} (hx : x.length = n) (y z : List Text) :
    (⟨n, y.length⟩ : LineRange).of ((x ++ (y ++ z)).map chomp) = y.map chomp := by
  rw [LineRange.of, ← List.map_drop, ← List.map_take, List.drop_left' hx, List.take_left' rfl]

/-- **Every hunk shows what stands at its place in both texts.** -/
theorem Leads.shows (hl : Leads k l hs a b) {x y : List Text} (hx : x.length = k)
    (hy : y.length = l) : ∀ h ∈ hs, h.toPatch.Shows ((x ++ a).map chomp) ((y ++ b).map chomp)
      ⟨h.oldStart, h.old.length⟩ ⟨h.newStart, h.new.length⟩ := by
  induction hl generalizing x y with
  | nil gap => exact fun h hh => absurd hh List.not_mem_nil
  | @cons k l a b h hs gap hold hnew _ ih =>
    have hxgap : (x ++ gap).length = h.oldStart := by rw [List.length_append, hx, hold]
    have hygap : (y ++ gap).length = h.newStart := by rw [List.length_append, hy, hnew]
    rw [← List.append_assoc x, ← List.append_assoc y, List.forall_mem_cons]
    constructor
    · refine ⟨ranges?_headline h, h.marks_toPatch, ?_, ?_, ?_, ?_⟩
      · rw [Hunk.old_toPatch, LineRange.of_middle hxgap]
      · rw [Hunk.old_toPatch, List.length_map]
      · rw [Hunk.new_toPatch, LineRange.of_middle hygap]
      · rw [Hunk.new_toPatch, List.length_map]
    · rw [← List.append_assoc, ← List.append_assoc]
      apply ih
      · rw [List.length_append, hxgap]
      · rw [List.length_append, hygap]

/-- **The hunks make the new list of the old one.** -/
theorem Leads.patched? (hl : Leads k l hs a b) :
    patched? k (a.map chomp) (hs.map Hunk.toPatch) = some (b.map chomp) := by
  induction hl with
  | nil gap => rfl
  | @cons k l a b h hs gap hold hnew _ ih =>
    have hgap : h.oldStart - k = (gap.map chomp).length := by
      rw [hold, Nat.add_sub_cancel_left, List.length_map]
    have htext : (gap ++ (h.old ++ a)).map chomp =
        gap.map chomp ++ (h.old.map chomp ++ a.map chomp) := by
      rw [List.map_append, List.map_append]
    rw [List.map_cons, Diff.patched?, Hunk.old_toPatch, Hunk.new_toPatch]
    have hheader : ranges? h.toPatch.header = _ := ranges?_headline h
    rw [hheader, htext]
    simp only [Option.bind_eq_bind, Option.bind_some, hgap]
    have hdone : k + (gap.map chomp).length + (h.old.map chomp).length =
        h.oldStart + h.old.length := by
      rw [hold, List.length_map, List.length_map]
    rw [List.drop_left' rfl, if_pos ⟨by omega, by simp, List.prefix_append _ _⟩, hdone,
      ← List.drop_drop, List.drop_left' rfl, List.drop_left' rfl, ih, List.take_left' rfl,
      Option.bind_some, List.map_append, List.map_append]

/-! ### Headers and lines of the new text -/

/-- How many lines of the new text the headers among the lines announce. -/
def announced (ls : List Text) : Nat :=
  (ls.map fun l => ((ranges? l).map (·.2.count)).getD 0).sum

/-- As many lines of the new text are shown as the headers announce. -/
def IsBalanced (ls : List Text) : Prop := announced ls = (marked [' ', '+'] ls).length

instance (ls : List Text) : Decidable (IsBalanced ls) := inferInstanceAs (Decidable (_ = _))

theorem announced_append (ls ms : List Text) :
    announced (ls ++ ms) = announced ls + announced ms := by
  rw [announced, List.map_append, List.sum_append, announced, announced]

theorem announced_cons_of_ne (hc : c ≠ '@') (r : Text) (ls : List Text) :
    announced ((c :: r) :: ls) = announced ls := by
  have hnone : ranges? (c :: r) = none := by
    rw [Option.eq_none_iff_forall_ne_some]
    intro p hp
    exact hc (Option.some.inj (head?_of_ranges? hp))
  rw [announced, List.map_cons, hnone, List.sum_cons, Option.map_none, Option.getD_none,
    Nat.zero_add, announced]

theorem IsBalanced.append (hls : IsBalanced ls) (hms : IsBalanced ms) : IsBalanced (ls ++ ms) := by
  rw [IsBalanced, announced_append, marked_append, List.length_append, hls, hms]

theorem isBalanced_flatMap {hunks : List PatchHunk} (h : ∀ x ∈ hunks, IsBalanced x.lines) :
    IsBalanced (hunks.flatMap PatchHunk.lines) := by
  induction hunks with
  | nil => rfl
  | cons x hunks ih =>
    rw [List.forall_mem_cons] at h
    rw [List.flatMap_cons]
    exact h.1.append (ih h.2)

theorem announced_eq_zero (h : ∀ l ∈ ls, ∃ c ∈ [' ', '-', '+'], l.head? = some c) :
    announced ls = 0 := by
  induction ls with
  | nil => rfl
  | cons l ls ih =>
    rw [List.forall_mem_cons] at h
    obtain ⟨⟨c, hc, hhead⟩, hls⟩ := h
    obtain ⟨r, rfl⟩ := List.head?_eq_some_iff.1 hhead
    have hmark : ∀ d ∈ [' ', '-', '+'], d ≠ '@' := by simp
    rw [announced_cons_of_ne (hmark c hc), ih hls]

/-- A hunk that shows what its header says is balanced: no other line of it looks like a header, and
    the header does not look like a line of the new text. -/
theorem PatchHunk.Shows.isBalanced {x : PatchHunk} {before after : List Text} {old new : LineRange}
    (h : x.Shows before after old new) : IsBalanced x.lines := by
  obtain ⟨r, hr⟩ := List.head?_eq_some_iff.1 (head?_of_ranges? h.header)
  have hbody := announced_eq_zero h.marks
  have hheader := h.header
  have hnew := h.new_length
  rw [announced] at hbody
  rw [PatchHunk.new] at hnew
  rw [IsBalanced, PatchHunk.lines, announced, List.map_cons, List.sum_cons, hbody, hheader, hr,
    marked_cons, if_neg (by decide), hnew]
  rfl

theorem IsPatch.isBalanced (h : IsPatch label before after t) :
    IsBalanced ((shownLines t).drop 2) := by
  obtain ⟨hunks, h⟩ := h
  rw [h.lines]
  apply isBalanced_flatMap
  intro x hx
  obtain ⟨old, new, hx⟩ := h.shows x hx
  exact hx.isBalanced

end ImportRepair.Diff
