import ImportRepair.Proofs.Text.Lines

/-!
# Line ends and the byte order mark

Lines are separated by line feeds, so the carriage return of a line end is the
last character of its line.  Where every carriage return stands in front of a
line feed, it stands at the end of a line that is not the last.  A change that
works line by line keeps this as long as it does not make a line the last one
that ends in a carriage return.
-/

namespace ImportRepair

namespace Text

variable {t u l : Text} {ls : List Text} {c : Char}

/-! ### Carriage returns -/

/-- Every carriage return of the text stands in front of a line feed. -/
def ReturnsPaired (t : Text) : Prop :=
  ∀ pre post, t = pre ++ '\r' :: post → post.head? = some '\n'

theorem returnsPaired_nil : ReturnsPaired [] := by
  intro pre post h
  simp at h

theorem returnsPaired_cons :
    ReturnsPaired (c :: t) ↔ (c = '\r' → t.head? = some '\n') ∧ ReturnsPaired t := by
  constructor
  · intro h
    refine ⟨fun hc => h [] t (by rw [hc]; rfl), fun pre post ht => h (c :: pre) post ?_⟩
    rw [ht]
    rfl
  · rintro ⟨hc, ht⟩ pre post h
    cases pre with
    | nil =>
      obtain ⟨rfl, rfl⟩ := List.cons.inj h
      exact hc rfl
    | cons d pre => exact ht pre post (List.cons.inj h).2

instance : DecidablePred ReturnsPaired
  | [] => isTrue returnsPaired_nil
  | _ :: t =>
    have : Decidable (ReturnsPaired t) := instDecidablePredReturnsPaired t
    decidable_of_iff _ returnsPaired_cons.symm

/-- A carriage return in the line is its last character. -/
def ReturnsAtEnd (l : Text) : Prop := '\r' ∉ l.dropLast

theorem returnsPaired_of_not_mem (h : '\n' ∉ l) : ReturnsPaired l ↔ '\r' ∉ l := by
  constructor
  · intro hpaired hmem
    obtain ⟨pre, post, rfl⟩ := List.append_of_mem hmem
    exact h (by simp [List.mem_of_mem_head? (hpaired pre post rfl)])
  · intro hmem pre post heq
    exact absurd (by simp [heq]) hmem

theorem not_mem_return_iff : '\r' ∉ l ↔ ReturnsAtEnd l ∧ l.endsInReturn = false := by
  rcases List.eq_nil_or_concat' l with rfl | ⟨u, c, rfl⟩
  · simp [ReturnsAtEnd, endsInReturn]
  · have hend : endsInReturn (u ++ [c]) = (c == '\r') := by simp [endsInReturn]
    rw [ReturnsAtEnd, List.dropLast_concat, hend, beq_eq_false_iff_ne, List.mem_append, not_or,
      List.mem_singleton, ne_comm]

theorem ReturnsAtEnd.part (h : ReturnsAtEnd t) (hl : l <:+: t) : ReturnsAtEnd l := by
  obtain ⟨u, v, rfl⟩ := hl
  intro hmem
  have hne : l ≠ [] := fun hnil => absurd hmem (by simp [hnil])
  apply h
  cases v with
  | nil =>
    rw [List.append_nil, List.dropLast_append_of_ne_nil hne]
    exact List.mem_append_right _ hmem
  | cons c v =>
    rw [List.dropLast_append_cons]
    exact List.mem_append_left _ (List.mem_append_right _ (List.dropLast_subset _ hmem))

/-- The first line of several: its carriage return stands in front of the line feed. -/
theorem returnsPaired_line (h : '\n' ∉ l) :
    ReturnsPaired (l ++ '\n' :: t) ↔ ReturnsAtEnd l ∧ ReturnsPaired t := by
  induction l with
  | nil => simp [returnsPaired_cons, ReturnsAtEnd]
  | cons c l ih =>
    obtain ⟨-, hl⟩ := not_or.1 (List.mem_cons.not.1 h)
    rw [List.cons_append, returnsPaired_cons, ih hl]
    cases l with
    | nil => simp [ReturnsAtEnd]
    | cons d l =>
      have hd : d ≠ '\n' := fun hd => hl (by simp [hd])
      simp [ReturnsAtEnd, hd, eq_comm, and_assoc]

/-- **A text line by line.**  Carriage returns stand at the ends of lines, and not in the last. -/
theorem returnsPaired_unlines (h : ∀ l ∈ ls, '\n' ∉ l) : ReturnsPaired (unlines ls) ↔
    (∀ l ∈ ls, ReturnsAtEnd l) ∧ ∀ l ∈ ls.getLast?, l.endsInReturn = false := by
  induction ls with
  | nil => simp [unlines, returnsPaired_nil]
  | cons l ls ih =>
    obtain ⟨hl, hls⟩ := List.forall_mem_cons.1 h
    cases ls with
    | nil =>
      have hunlines : unlines [l] = l := by simp [unlines]
      rw [hunlines, returnsPaired_of_not_mem hl, not_mem_return_iff]
      simp
    | cons l' ls =>
      have hsplit : unlines (l :: l' :: ls) = l ++ '\n' :: unlines (l' :: ls) := by
        simp [unlines, List.intercalate_cons_cons]
      rw [hsplit, returnsPaired_line hl, ih hls, List.getLast?_cons_cons, ← and_assoc,
        ← List.forall_mem_cons]

/-- A byte order mark in front makes no difference. -/
theorem returnsPaired_dropMark : ReturnsPaired t.dropMark ↔ ReturnsPaired t := by
  cases t with
  | nil => rfl
  | cons c t =>
    by_cases hc : c = byteOrderMark
    · subst hc
      have hreturn : byteOrderMark ≠ '\r' := by decide
      simp [dropMark, returnsPaired_cons, hreturn]
    · simp [dropMark, hc]

theorem returnsPaired_upToMark {ls' : List Text} (h : LineEdits.UpToMark ls ls') :
    ReturnsPaired (unlines ls') ↔ ReturnsPaired (unlines ls) := by
  rw [← returnsPaired_dropMark, LineEdits.dropMark_unlines h, returnsPaired_dropMark]

/-! ### Changes of lines -/

/-- The last member that is left of a list is one behind which nothing is left. -/
theorem getLast?_filterMap_eq_some_iff {α β : Type} {f : α → Option β} {l : List α} {b : β} :
    (l.filterMap f).getLast? = some b ↔
      ∃ front a gone, l = front ++ a :: gone ∧ f a = some b ∧ ∀ x ∈ gone, f x = none := by
  rw [← List.head?_reverse, ← List.filterMap_reverse, List.head?_filterMap,
    List.findSome?_eq_some_iff]
  constructor
  · rintro ⟨gone, a, front, heq, ha, hgone⟩
    refine ⟨front.reverse, a, gone.reverse, ?_, ha, fun x hx => hgone x (List.mem_reverse.1 hx)⟩
    simpa using congrArg List.reverse heq
  · rintro ⟨front, a, gone, rfl, ha, hgone⟩
    exact ⟨gone.reverse, a, front.reverse, by simp, ha,
      fun x hx => hgone x (List.mem_reverse.1 hx)⟩

variable {f : Int → Text → Option Text}

/-- A line that ends in a carriage return is left, and every line behind it goes. -/
def Strands (f : Int → Text → Option Text) (t : Text) : Prop :=
  ∃ front p gone, numberedLines t = front ++ p :: gone ∧ p.2.endsInReturn = true ∧
    (∃ u, f p.1 p.2 = some u) ∧ ∀ q ∈ gone, f q.1 q.2 = none

/-- What is left of a line is one line, which ends in a carriage return where the line did and has
    none elsewhere. -/
def KeepsReturns (f : Int → Text → Option Text) (t : Text) : Prop :=
  ∀ p ∈ numberedLines t, ∀ u, f p.1 p.2 = some u →
    '\n' ∉ u ∧ ReturnsAtEnd u ∧ u.endsInReturn = p.2.endsInReturn

/-- **Line ends under a change line by line.**  The carriage returns stay in front of line feeds
    unless the change makes a line the last one that ends in a carriage return. -/
theorem returnsPaired_iff_not_strands (hf : KeepsReturns f t)
    (hls : LineEdits.UpToMark ((numberedLines t).filterMap fun p => f p.1 p.2) ls) :
    ReturnsPaired (unlines ls) ↔ ¬ Strands f t := by
  have hkept : ∀ u ∈ (numberedLines t).filterMap fun p => f p.1 p.2,
      ∃ p ∈ numberedLines t, f p.1 p.2 = some u := fun u hu => List.mem_filterMap.1 hu
  have hline : ∀ u ∈ (numberedLines t).filterMap fun p => f p.1 p.2, '\n' ∉ u := by
    intro u hu
    obtain ⟨p, hp, hfp⟩ := hkept u hu
    exact (hf p hp u hfp).1
  have hends : ∀ u ∈ (numberedLines t).filterMap fun p => f p.1 p.2, ReturnsAtEnd u := by
    intro u hu
    obtain ⟨p, hp, hfp⟩ := hkept u hu
    exact (hf p hp u hfp).2.1
  rw [returnsPaired_upToMark hls, returnsPaired_unlines hline, and_iff_right hends]
  constructor
  · rintro hlast ⟨front, p, gone, heq, hreturn, ⟨u, hu⟩, hgone⟩
    have hfree := hlast u (getLast?_filterMap_eq_some_iff.2 ⟨front, p, gone, heq, hu, hgone⟩)
    have hsame := (hf p (by simp [heq]) u hu).2.2
    rw [hfree, hreturn] at hsame
    cases hsame
  · intro hnot u hu
    obtain ⟨front, p, gone, heq, hfp, hgone⟩ := getLast?_filterMap_eq_some_iff.1 hu
    have hsame := (hf p (by simp [heq]) u hfp).2.2
    by_contra hreturn
    rw [Bool.not_eq_false, hsame] at hreturn
    exact hnot ⟨front, p, gone, heq, hreturn, ⟨u, hfp⟩, hgone⟩

/-- In the lines of such a text carriage returns are last. -/
theorem returnsAtEnd_of_mem_lines (h : ReturnsPaired t) (hl : l ∈ lines t) : ReturnsAtEnd l := by
  rw [← unlines_lines t, returnsPaired_unlines fun l hl => not_mem_of_mem_lines hl] at h
  exact h.1 l hl

/-- Lines that stay as they are keep their carriage returns. -/
theorem keepsReturns_of_same (h : ReturnsPaired t)
    (hf : ∀ p ∈ numberedLines t, ∀ u, f p.1 p.2 = some u → u = p.2) : KeepsReturns f t := by
  intro p hp u hu
  obtain rfl := hf p hp u hu
  have hmem : p.2 ∈ lines t := mem_lines_of_mem_numberedLines hp
  exact ⟨not_mem_of_mem_lines hmem, returnsAtEnd_of_mem_lines h hmem, rfl⟩

/-! ### The byte order mark -/

theorem hasMark_unlines (h : l.hasMark = true) : (unlines (l :: ls)).hasMark = true := by
  cases l with
  | nil => cases h
  | cons c l => cases ls <;> simpa [unlines, List.intercalate_cons_cons, hasMark] using h

end Text

namespace LineEdits

open Text

variable {t old new : Text} {e : LineEdits}

/-- A new line takes over the carriage return of the old one. -/
theorem keepReturn_returns (hnew : '\r' ∉ new) :
    ReturnsAtEnd (keepReturn old new) ∧ (keepReturn old new).endsInReturn = old.endsInReturn := by
  obtain ⟨hends, hfree⟩ := not_mem_return_iff.1 hnew
  unfold keepReturn
  cases hold : old.endsInReturn with
  | true =>
    rw [hfree]
    refine ⟨?_, by simp [endsInReturn]⟩
    simpa [ReturnsAtEnd] using hnew
  | false =>
    rw [Bool.false_and, if_neg Bool.false_ne_true]
    exact ⟨hends, hfree⟩

/-- Edits leave the byte order mark in front of the text as long as a line is left. -/
theorem hasMark_apply (h : t.hasMark = true) (hne : e.linesAfter t ≠ []) :
    (e.apply t).hasMark = true := by
  obtain ⟨l, ls, hl⟩ := List.exists_cons_of_ne_nil hne
  rw [apply, if_pos h, hl, markFirst]
  apply hasMark_unlines
  split
  · next hmark => exact hmark
  · rfl

end LineEdits

end ImportRepair
