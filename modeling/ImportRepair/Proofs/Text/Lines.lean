import ImportRepair.Text.LineEdits
import Mathlib.Data.List.Nodup

/-!
# What edits do to the lines of a text

Edits give up some lines and change others; the lines that remain move up by
the number of lines that went before them.  With this one renumbering the lines
of an edited text are a function of the lines before, up to the byte order mark
in front of the first of them.
-/

namespace ImportRepair

open Text

variable {α β : Type} {t l : Text} {ls ls' : List Text} {k n : Int} {e : LineEdits}

namespace Text

/-! ### Lines and their numbers -/

theorem not_mem_of_mem_lines (h : l ∈ lines t) : '\n' ∉ l := by
  induction t generalizing l with
  | nil => simp_all [lines]
  | cons c t ih =>
    simp only [lines, List.splitOn_cons_eq_if_modifyHead] at h
    split at h
    · rcases List.mem_cons.1 h with rfl | h
      · simp
      · exact ih h
    · next hc =>
      obtain ⟨d, ds, hd⟩ := List.exists_cons_of_ne_nil (lines_ne_nil t)
      change l ∈ (lines t).modifyHead (c :: ·) at h
      rw [hd, List.modifyHead_cons] at h
      rcases List.mem_cons.1 h with rfl | h
      · have hd' := ih (l := d) (by simp [hd])
        have hc' : c ≠ '\n' := by simpa using hc
        simp [hd', hc'.symm]
      · exact ih (by simp [hd, h])

theorem lines_unlines (h : ∀ l ∈ ls, '\n' ∉ l) (hne : ls ≠ []) : lines (unlines ls) = ls :=
  List.splitOn_intercalate '\n' h hne

/-- The members of a list with consecutive numbers. -/
def numberFrom : Int → List α → List (Int × α)
  | _, [] => []
  | k, a :: l => (k, a) :: numberFrom (k + 1) l

@[simp] theorem numberFrom_nil : numberFrom k ([] : List α) = [] := rfl

@[simp] theorem numberFrom_cons {a : α} {l : List α} :
    numberFrom k (a :: l) = (k, a) :: numberFrom (k + 1) l := rfl

theorem numberedLines_eq (t : Text) : numberedLines t = numberFrom 1 (lines t) := by
  have hfrom : ∀ (l : List Text) (m : Nat),
      (l.zipIdx m).map (fun p => ((p.2 : Int), p.1)) = numberFrom (m : Int) l := by
    intro l
    induction l with
    | nil => simp
    | cons a l ih =>
      intro m
      have hrest := ih (m + 1)
      rw [Int.natCast_add] at hrest
      simpa using hrest
  exact hfrom (lines t) 1

theorem le_of_mem_numberFrom {l : List α} {p : Int × α} (h : p ∈ numberFrom k l) :
    k ≤ p.1 ∧ p.2 ∈ l := by
  induction l generalizing k with
  | nil => simp at h
  | cons a l ih =>
    rcases List.mem_cons.1 h with rfl | h
    · simp
    · obtain ⟨hle, hmem⟩ := ih h
      exact ⟨by omega, by simp [hmem]⟩

theorem pairwise_numberFrom (k : Int) (l : List α) :
    (numberFrom k l).Pairwise fun p q => p.1 < q.1 := by
  induction l generalizing k with
  | nil => simp
  | cons a l ih =>
    refine List.pairwise_cons.2 ⟨fun p hp => ?_, ih (k + 1)⟩
    have hle := (le_of_mem_numberFrom hp).1
    exact Int.lt_of_lt_of_le (Int.lt_succ k) hle

theorem filterMap_numberFrom (f : α → Option β) (k : Int) (l : List α) :
    (numberFrom k l).filterMap (fun p => f p.2) = l.filterMap f := by
  induction l generalizing k with
  | nil => rfl
  | cons a l ih => rw [numberFrom_cons, List.filterMap_cons, List.filterMap_cons, ih]

theorem numberFrom_append (k : Int) (l l' : List α) :
    numberFrom k (l ++ l') = numberFrom k l ++ numberFrom (k + l.length) l' := by
  induction l generalizing k with
  | nil => simp
  | cons a l ih =>
    have hlength : k + 1 + (l.length : Int) = k + ((a :: l).length : Nat) := by simp; omega
    rw [List.cons_append, numberFrom_cons, numberFrom_cons, ih, hlength, List.cons_append]

/-- The members that remain of a list are counted from the front. -/
theorem mem_numberFrom_filterMap_iff {f : α → Option β} {l : List α} {b : β} :
    (n, b) ∈ numberFrom k (l.filterMap f) ↔
      ∃ pre a post, l = pre ++ a :: post ∧ f a = some b ∧ n = k + (pre.filterMap f).length := by
  constructor
  · intro h
    induction l generalizing k with
    | nil => simp at h
    | cons a l ih =>
      rw [List.filterMap_cons] at h
      split at h
      · next hnone =>
        obtain ⟨pre, c, post, rfl, hc, hn⟩ := ih h
        exact ⟨a :: pre, c, post, rfl, hc, by rw [List.filterMap_cons, hnone]; exact hn⟩
      · next d hd =>
        rcases List.mem_cons.1 h with heq | h
        · obtain ⟨rfl, rfl⟩ := Prod.mk.inj heq
          exact ⟨[], a, l, rfl, hd, by simp⟩
        · obtain ⟨pre, c, post, rfl, hc, hn⟩ := ih h
          refine ⟨a :: pre, c, post, rfl, hc, ?_⟩
          rw [List.filterMap_cons, hd, List.length_cons, hn]
          omega
  · rintro ⟨pre, a, post, rfl, ha, rfl⟩
    rw [List.filterMap_append, List.filterMap_cons_some ha, numberFrom_append]
    exact List.mem_append_right _ List.mem_cons_self

theorem mem_numberedLines_iff :
    (n, l) ∈ numberedLines t ↔ 1 ≤ n ∧ (lines t)[(n - 1).toNat]? = some l := by
  simp only [numberedLines, List.mem_map, Prod.exists, Prod.mk.injEq,
    List.mk_mem_zipIdx_iff_le_and_getElem?_sub]
  constructor
  · rintro ⟨u, k, ⟨hk, hu⟩, rfl, rfl⟩
    have hindex : ((k : Int) - 1).toNat = k - 1 := by omega
    exact ⟨by omega, by rw [hindex, hu]⟩
  · rintro ⟨hn, hl⟩
    have hindex : n.toNat - 1 = (n - 1).toNat := by omega
    exact ⟨l, n.toNat, ⟨by omega, by rw [hindex, hl]⟩, by omega, rfl⟩

/-- A number belongs to one line only. -/
theorem eq_of_mem_numberedLines {u : Text} (h : (n, l) ∈ numberedLines t)
    (h' : (n, u) ∈ numberedLines t) : l = u :=
  Option.some.inj ((mem_numberedLines_iff.1 h).2.symm.trans (mem_numberedLines_iff.1 h').2)

theorem mem_lines_of_mem_numberedLines {p : Int × Text} (h : p ∈ numberedLines t) :
    p.2 ∈ lines t :=
  List.mem_of_getElem? (mem_numberedLines_iff.1 h).2

theorem not_mem_of_mem_numberedLines {p : Int × Text} (h : p ∈ numberedLines t) : '\n' ∉ p.2 :=
  not_mem_of_mem_lines (mem_lines_of_mem_numberedLines h)

theorem one_le_of_mem_numberedLines {p : Int × Text} (h : p ∈ numberedLines t) : 1 ≤ p.1 :=
  (mem_numberedLines_iff.1 h).1

/-- The numbers of the lines run from 1 to the number of lines. -/
theorem exists_mem_numberedLines_iff :
    (∃ l, (n, l) ∈ numberedLines t) ↔ 1 ≤ n ∧ n ≤ (lines t).length := by
  simp only [mem_numberedLines_iff, exists_and_left]
  refine and_congr_right fun hn => ?_
  rw [← Option.isSome_iff_exists, isSome_getElem?]
  omega

/-- A text begins with a byte order mark if its first line does. -/
theorem hasMark_of_lines_eq_cons (h : lines t = l :: ls) : t.hasMark = l.hasMark := by
  have ht := unlines_lines t
  rw [h] at ht
  cases ls with
  | nil => rw [← ht]; simp [unlines]
  | cons l' ls =>
    have hsplit : t = l ++ '\n' :: unlines (l' :: ls) := by
      rw [← ht]
      simp [unlines, List.intercalate_cons_cons]
    cases l with
    | nil => simp [hsplit, hasMark, byteOrderMark]
    | cons c l => simp [hsplit, hasMark]

/-- The lines in front of a line are those with smaller numbers. -/
theorem mem_front_iff {pre post : List (Int × Text)} {p q : Int × Text}
    (h : numberedLines t = pre ++ p :: post) :
    q ∈ pre ↔ q ∈ numberedLines t ∧ q.1 < p.1 := by
  have hsorted := pairwise_numberFrom 1 (lines t)
  rw [← numberedLines_eq, h] at hsorted
  obtain ⟨-, hrest, hfront⟩ := List.pairwise_append.1 hsorted
  rw [h]
  constructor
  · exact fun hq => ⟨List.mem_append_left _ hq, hfront q hq p List.mem_cons_self⟩
  · rintro ⟨hq, hlt⟩
    rcases List.mem_append.1 hq with hq | hq
    · exact hq
    · rcases List.mem_cons.1 hq with rfl | hq
      · exact absurd hlt (Int.lt_irrefl _)
      · exact absurd ((List.pairwise_cons.1 hrest).1 q hq) (by omega)

theorem front_eq_nil {pre post : List (Int × Text)} {p : Int × Text}
    (h : numberedLines t = pre ++ p :: post) (hone : p.1 = 1) : pre = [] := by
  rw [List.eq_nil_iff_forall_not_mem]
  intro q hq
  obtain ⟨hq, hlt⟩ := (mem_front_iff h).1 hq
  have hle := one_le_of_mem_numberedLines hq
  omega

end Text

namespace LineEdits

/-! ### Renumbering -/

/-- The new number of a line that remains. -/
def newNumber (e : LineEdits) (n : Int) : Int :=
  n - (e.deletions.countP fun d => decide (d < n) : Nat)

theorem newNumber_succ (hnodup : e.deletions.Nodup) :
    e.newNumber (n + 1) = if n ∈ e.deletions then e.newNumber n else e.newNumber n + 1 := by
  have hcount : ∀ ds : List Int, ds.Nodup →
      (ds.countP fun d => decide (d < n + 1)) =
        (ds.countP fun d => decide (d < n)) + if n ∈ ds then 1 else 0 := by
    intro ds hds
    induction ds with
    | nil => simp
    | cons d ds ih =>
      obtain ⟨hd, hds⟩ := List.nodup_cons.1 hds
      rw [List.countP_cons, List.countP_cons, ih hds]
      rcases Int.lt_trichotomy d n with hlt | rfl | hgt
      · have hne : n ≠ d := by omega
        have hle : d < n + 1 := by omega
        simp only [hlt, hle, hne, decide_true, if_true, List.mem_cons, false_or]
        omega
      · have hlt : d < d + 1 := by omega
        simp [hd, hlt]
      · have hne : n ≠ d := by omega
        have hnle : ¬ d < n + 1 := by omega
        have hnlt : ¬ d < n := by omega
        simp only [hnle, hnlt, hne, decide_false, Bool.false_eq_true, if_false, List.mem_cons,
          false_or]
        omega
  have h := hcount e.deletions hnodup
  unfold newNumber
  split
  · next hmem =>
    rw [if_pos hmem] at h
    omega
  · next hmem =>
    rw [if_neg hmem] at h
    omega

theorem newNumber_one (h : ∀ d ∈ e.deletions, 1 ≤ d) : e.newNumber 1 = 1 := by
  have hcount : (e.deletions.countP fun d => decide (d < 1)) = 0 := by
    rw [List.countP_eq_zero]
    intro d hd
    have hle := h d hd
    simp only [decide_eq_true_eq]
    omega
  simp [newNumber, hcount]

theorem newNumber_mono (hnodup : e.deletions.Nodup) {m : Int} (h : m ≤ n) :
    e.newNumber m ≤ e.newNumber n := by
  obtain ⟨d, rfl⟩ := Int.le.dest h
  clear h
  induction d with
  | zero => simp
  | succ d ih =>
    have hstep := newNumber_succ (n := m + d) hnodup
    rw [Int.natCast_succ, ← Int.add_assoc, hstep]
    split <;> omega

theorem newNumber_lt (hnodup : e.deletions.Nodup) {m : Int} (h : m < n) (hm : m ∉ e.deletions) :
    e.newNumber m < e.newNumber n := by
  have hstep := newNumber_succ (n := m) hnodup
  rw [if_neg hm] at hstep
  have hmono := newNumber_mono hnodup (m := m + 1) (n := n) (by omega)
  omega

/-- Where the first line remains it is the only one that becomes the first. -/
theorem newNumber_eq_one_iff (hnodup : e.deletions.Nodup) (h : ∀ d ∈ e.deletions, 2 ≤ d)
    (hn : 1 ≤ n) : e.newNumber n = 1 ↔ n = 1 := by
  have hone : e.newNumber 1 = 1 := newNumber_one fun d hd => by have hle := h d hd; omega
  constructor
  · intro heq
    by_contra hne
    have hmem : (1 : Int) ∉ e.deletions := fun hmem => by have hle := h 1 hmem; omega
    have hlt := newNumber_lt hnodup (m := 1) (n := n) (by omega) hmem
    omega
  · rintro rfl
    exact hone

/-- Two lines that remain have different new numbers. -/
theorem newNumber_inj (hnodup : e.deletions.Nodup) {m : Int} (hm : m ∉ e.deletions)
    (hn : n ∉ e.deletions) : e.newNumber m = e.newNumber n ↔ m = n := by
  constructor
  · intro heq
    rcases Int.lt_trichotomy m n with hlt | rfl | hgt
    · exact absurd heq (Int.ne_of_lt (newNumber_lt hnodup hlt hm))
    · rfl
    · exact absurd heq.symm (Int.ne_of_lt (newNumber_lt hnodup hgt hn))
  · rintro rfl
    rfl

theorem line?_eq_none_iff : e.line? n l = none ↔ n ∈ e.deletions := by
  unfold line?
  split
  · simp [*]
  · split <;> simp [*]

theorem not_mem_of_line?_eq_some (h : e.line? n l = some u) : n ∉ e.deletions := by
  intro hmem
  rw [line?_eq_none_iff.2 hmem] at h
  cases h

/-- The lines that remain have the new numbers. -/
theorem numberFrom_line? (hnodup : e.deletions.Nodup) (k : Int) (ls : List Text) :
    numberFrom (e.newNumber k) ((numberFrom k ls).filterMap fun p => e.line? p.1 p.2) =
      (numberFrom k ls).filterMap fun p => (e.line? p.1 p.2).map fun u => (e.newNumber p.1, u) := by
  induction ls generalizing k with
  | nil => rfl
  | cons l ls ih =>
    have hrest := ih (k + 1)
    rw [newNumber_succ hnodup] at hrest
    simp only [numberFrom_cons, List.filterMap_cons]
    cases hline : e.line? k l with
    | none =>
      rw [if_pos (line?_eq_none_iff.1 hline)] at hrest
      exact hrest
    | some u =>
      rw [if_neg (not_mem_of_line?_eq_some hline)] at hrest
      simp only [Option.map_some, numberFrom_cons, hrest]

/-! ### The byte order mark -/

/-- The lines are the same, but there may be a byte order mark in front of the first. -/
def UpToMark (ls ls' : List Text) : Prop := ls' = ls ∨ ls' = markFirst ls

theorem dropMark_unlines (h : UpToMark ls ls') :
    dropMark (unlines ls') = dropMark (unlines ls) := by
  rcases h with rfl | rfl
  · rfl
  · cases ls with
    | nil => rfl
    | cons l ls =>
      cases hmark : l.hasMark with
      | true => simp [markFirst, hmark]
      | false =>
        have hfront : ∀ u, l.hasMark = false → (u ≠ [] → u.head? = some '\n') →
            dropMark (l ++ u) = l ++ u := by
          intro u hl hu
          cases l with
          | cons c l =>
            have hc : c ≠ byteOrderMark := by simpa [hasMark] using hl
            simp [dropMark, hc]
          | nil =>
            cases u with
            | nil => rfl
            | cons d u =>
              have hd : d = '\n' := by simpa using hu (by simp)
              simp [dropMark, hd, byteOrderMark]
        cases ls with
        | nil => simpa [markFirst, hmark, unlines, dropMark] using (hfront [] hmark (by simp)).symm
        | cons l' ls =>
          have hsplit : unlines (l :: l' :: ls) = l ++ '\n' :: unlines (l' :: ls) := by
            simp [unlines, List.intercalate_cons_cons]
          have hsplit' : unlines (markFirst (l :: l' :: ls)) =
              byteOrderMark :: (l ++ '\n' :: unlines (l' :: ls)) := by
            simp [markFirst, hmark, unlines, List.intercalate_cons_cons]
          rw [hsplit, hsplit', hfront _ hmark (by simp)]
          simp [dropMark]

/-- A function of numbered lines that does not see a byte order mark in front of the first line. -/
def IgnoresMark (f : Int → Text → Option α) : Prop :=
  ∀ l, f 1 (if l.hasMark then l else byteOrderMark :: l) = f 1 l

theorem filterMap_upToMark {f : Int → Text → Option α} (hf : IgnoresMark f) (h : UpToMark ls ls') :
    (numberFrom 1 ls').filterMap (fun p => f p.1 p.2) =
      (numberFrom 1 ls).filterMap fun p => f p.1 p.2 := by
  rcases h with rfl | rfl
  · rfl
  · cases ls with
    | nil => rfl
    | cons l ls => simp only [markFirst, numberFrom_cons, List.filterMap_cons, hf l]

theorem UpToMark.trans {ls'' : List Text} (h : UpToMark ls ls') (h' : UpToMark ls' ls'') :
    UpToMark ls ls'' := by
  rcases h' with rfl | rfl
  · exact h
  · rcases h with rfl | rfl
    · exact Or.inr rfl
    · right
      cases ls with
      | nil => rfl
      | cons l ls =>
        cases hmark : l.hasMark with
        | true => simp [markFirst, hmark]
        | false =>
          have hmarked : hasMark (byteOrderMark :: l) = true := rfl
          simp [markFirst, hmark, hmarked]

theorem UpToMark.exists_mem {m : Int} {u : Text} (h : UpToMark ls ls')
    (hu : (m, u) ∈ numberFrom 1 ls) : ∃ v, (m, v) ∈ numberFrom 1 ls' ∧
      (v = u ∨ m = 1 ∧ v = if u.hasMark then u else byteOrderMark :: u) := by
  rcases h with rfl | rfl
  · exact ⟨u, hu, Or.inl rfl⟩
  · cases ls with
    | nil => simp at hu
    | cons l ls =>
      rcases List.mem_cons.1 hu with heq | hu
      · obtain ⟨rfl, rfl⟩ := Prod.mk.inj heq
        exact ⟨_, List.mem_cons_self, Or.inr ⟨rfl, rfl⟩⟩
      · exact ⟨u, List.mem_cons_of_mem _ hu, Or.inl rfl⟩

/-- A change of numbered lines that does not depend on a byte order mark in front of the first
    line, but may keep it. -/
def RespectsMark (f : Int → Text → Option Text) : Prop :=
  ∀ l, f 1 (if l.hasMark then l else byteOrderMark :: l) = f 1 l ∨
    ∀ l' ∈ [l, if l.hasMark then l else byteOrderMark :: l], f 1 l' = some l'

theorem upToMark_filterMap {f : Int → Text → Option Text} (hf : RespectsMark f)
    (h : UpToMark ls ls') : UpToMark ((numberFrom 1 ls).filterMap fun p => f p.1 p.2)
      ((numberFrom 1 ls').filterMap fun p => f p.1 p.2) := by
  rcases h with rfl | rfl
  · exact Or.inl rfl
  · cases ls with
    | nil => exact Or.inl rfl
    | cons l ls =>
      rcases hf l with heq | hsame
      · exact Or.inl (by simp only [markFirst, numberFrom_cons, List.filterMap_cons, heq])
      · have hl := hsame l (by simp)
        have hl' := hsame (if l.hasMark then l else byteOrderMark :: l) (by simp)
        exact Or.inr (by simp only [markFirst, numberFrom_cons, List.filterMap_cons, hl, hl'])

theorem keepReturn_mark (l u : Text) :
    keepReturn (if l.hasMark then l else byteOrderMark :: l) u = keepReturn l u := by
  split
  · rfl
  · cases l with
    | nil => rfl
    | cons c l => simp [keepReturn, endsInReturn, List.getLast?_cons_cons]

/-! ### Edited texts -/

theorem upToMark_apply (e : LineEdits) (t : Text) :
    ∃ ls, e.apply t = unlines ls ∧ UpToMark (e.linesAfter t) ls := by
  unfold apply
  split
  · exact ⟨_, rfl, Or.inr rfl⟩
  · exact ⟨_, rfl, Or.inl rfl⟩

theorem not_mem_keepReturn {old new : Text} (h : '\n' ∉ new) : '\n' ∉ keepReturn old new := by
  unfold keepReturn
  split <;> simp [h]

/-- The new lines hold no line feeds. -/
def IsByLine (e : LineEdits) : Prop := ∀ p ∈ e.replacements, '\n' ∉ p.2

theorem not_mem_line? {u : Text} (he : e.IsByLine) (h : '\n' ∉ l) (hu : e.line? n l = some u) :
    '\n' ∉ u := by
  unfold line? at hu
  split at hu
  · simp at hu
  · split at hu
    · next new hnew =>
      cases hu
      obtain ⟨a, b, hab, -⟩ := List.lookup_eq_some_iff.1 hnew
      exact not_mem_keepReturn (he (n, new) (by simp [hab]))
    · cases hu
      exact h

theorem not_mem_linesAfter (he : e.IsByLine) (h : l ∈ e.linesAfter t) : '\n' ∉ l := by
  obtain ⟨p, hp, hl⟩ := List.mem_filterMap.1 h
  exact not_mem_line? he (not_mem_of_mem_numberedLines hp) hl

theorem not_mem_upToMark (h : UpToMark ls ls') (hls : ∀ l ∈ ls, '\n' ∉ l) :
    ∀ l ∈ ls', '\n' ∉ l := by
  rcases h with rfl | rfl
  · exact hls
  · cases ls with
    | nil => simp [markFirst]
    | cons l ls =>
      obtain ⟨hl, hls⟩ := List.forall_mem_cons.1 hls
      refine List.forall_mem_cons.2 ⟨?_, hls⟩
      split
      · exact hl
      · rw [List.mem_cons, not_or]
        exact ⟨by decide, hl⟩

/-- The lines of an edited text, as long as one is left. -/
theorem lines_apply_eq (he : e.IsByLine) (hne : e.linesAfter t ≠ []) :
    lines (e.apply t) = if t.hasMark then markFirst (e.linesAfter t) else e.linesAfter t := by
  have hline : ∀ l ∈ e.linesAfter t, '\n' ∉ l := fun l hl => not_mem_linesAfter he hl
  obtain ⟨l, ls, hl⟩ := List.exists_cons_of_ne_nil hne
  unfold apply
  split
  · refine lines_unlines (not_mem_upToMark (Or.inr rfl) hline) ?_
    rw [hl]
    exact List.cons_ne_nil _ _
  · exact lines_unlines hline hne

theorem lines_apply (he : e.IsByLine) (hne : e.linesAfter t ≠ []) :
    UpToMark (e.linesAfter t) (lines (e.apply t)) := by
  rw [lines_apply_eq he hne]
  split
  · exact Or.inr rfl
  · exact Or.inl rfl

theorem apply_of_linesAfter_eq_nil (h : e.linesAfter t = []) : e.apply t = [] := by
  unfold apply
  rw [h]
  split <;> rfl

/-- A text without edits stays as it is. -/
theorem apply_nil (t : Text) : apply ⟨[], []⟩ t = t := by
  have hlines : linesAfter ⟨[], []⟩ t = lines t := by
    have hnumber : ∀ (k : Int) (ls : List Text),
        (numberFrom k ls).filterMap (fun p => line? ⟨[], []⟩ p.1 p.2) = ls := by
      intro k ls
      induction ls generalizing k with
      | nil => rfl
      | cons l ls ih =>
        have hline : line? ⟨[], []⟩ k l = some l := rfl
        simp only [numberFrom_cons, List.filterMap_cons, hline, ih]
    rw [linesAfter, numberedLines_eq, hnumber]
  have hmark : t.hasMark = true → markFirst (lines t) = lines t := by
    intro hmark
    obtain ⟨l, ls, hl⟩ := List.exists_cons_of_ne_nil (lines_ne_nil t)
    rw [hl, markFirst, if_pos ((hasMark_of_lines_eq_cons hl).symm.trans hmark)]
  unfold apply
  split
  · next h => rw [hlines, hmark h, unlines_lines]
  · rw [hlines, unlines_lines]

/-- What a function reads from the lines of a text that is made of some lines. -/
theorem filterMap_unlines {f : Int → Text → Option α} (hf : IgnoresMark f) (hnil : f 1 [] = none)
    (hls : ∀ l ∈ ls, '\n' ∉ l) (h : UpToMark ls ls') :
    (numberedLines (unlines ls')).filterMap (fun p => f p.1 p.2) =
      (numberFrom 1 ls).filterMap fun p => f p.1 p.2 := by
  rw [numberedLines_eq]
  cases ls with
  | nil =>
    have hnone : ls' = [] := by rcases h with rfl | rfl <;> rfl
    have hempty : lines (unlines []) = [[]] := rfl
    rw [hnone, hempty]
    simp [hnil]
  | cons l ls =>
    have hne : ls' ≠ [] := by rcases h with rfl | rfl <;> simp [markFirst]
    rw [lines_unlines (not_mem_upToMark h hls) hne]
    exact filterMap_upToMark hf h

/-- **The numbered lines of an edited text.**  What a function reads from them it reads from the
    lines of the text before, each after its edit and under its new number. -/
theorem filterMap_apply {f : Int → Text → Option α} (he : e.IsByLine) (hnodup : e.deletions.Nodup)
    (hpos : ∀ d ∈ e.deletions, 1 ≤ d) (hf : IgnoresMark f) (hnil : f 1 [] = none) (t : Text) :
    (numberedLines (e.apply t)).filterMap (fun p => f p.1 p.2) =
      (numberedLines t).filterMap fun p => (e.line? p.1 p.2).bind
        fun u => f (e.newNumber p.1) u := by
  obtain ⟨ls, hls, hmark⟩ := upToMark_apply e t
  have hnumber := numberFrom_line? hnodup 1 (lines t)
  rw [newNumber_one hpos, ← numberedLines_eq] at hnumber
  rw [hls, filterMap_unlines hf hnil (fun l hl => not_mem_linesAfter he hl) hmark, linesAfter,
    hnumber, List.filterMap_filterMap]
  simp only [Option.bind_map, Function.comp_def]

/-! ### Edits that keep the first line -/

/-- What becomes of a line; the first line keeps its byte order mark. -/
def markedLine? (e : LineEdits) (n : Int) (l : Text) : Option Text :=
  (e.line? n l).map fun (u : Text) =>
    if n = 1 ∧ l.hasMark = true ∧ u.hasMark = false then byteOrderMark :: u else u

theorem markedLine?_of_ne_one (hn : n ≠ 1) : e.markedLine? n l = e.line? n l := by
  simp [markedLine?, hn]

/-- A line that is not edited stays as it is. -/
theorem markedLine?_of_line?_eq (h : e.line? n l = some l) : e.markedLine? n l = some l := by
  rw [markedLine?, h, Option.map_some, if_neg]
  rintro ⟨-, hmark, hfalse⟩
  rw [hmark] at hfalse
  cases hfalse

theorem not_mem_of_markedLine?_eq_some (h : e.markedLine? n l = some u) : n ∉ e.deletions := by
  obtain ⟨v, hv, -⟩ := Option.map_eq_some_iff.1 h
  exact not_mem_of_line?_eq_some hv

theorem exists_markedLine?_iff : (∃ u, e.markedLine? n l = some u) ↔ n ∉ e.deletions := by
  rw [← Option.isSome_iff_exists, markedLine?, Option.isSome_map, Option.isSome_iff_ne_none, Ne,
    line?_eq_none_iff]

variable (hfirst : ∀ d ∈ e.deletions, 2 ≤ d)

include hfirst in
theorem newNumber_first : e.newNumber 1 = 1 := newNumber_one fun d hd => by
  have hle := hfirst d hd
  omega

include hfirst in
theorem line?_one (l : Text) : ∃ u, e.line? 1 l = some u := by
  have hmem : (1 : Int) ∉ e.deletions := fun hmem => by
    have hle := hfirst 1 hmem
    omega
  rw [← Option.isSome_iff_exists, Option.isSome_iff_ne_none, Ne, line?_eq_none_iff]
  exact hmem

include hfirst in
/-- The first line stays in front of what is left of the others. -/
theorem exists_linesAfter_eq_cons {ls : List Text} (hl : lines t = l :: ls) :
    ∃ v, e.line? 1 l = some v ∧
      e.linesAfter t = v :: (numberFrom 2 ls).filterMap fun p => e.line? p.1 p.2 := by
  obtain ⟨v, hv⟩ := line?_one hfirst l
  refine ⟨v, hv, ?_⟩
  rw [linesAfter, numberedLines_eq, hl, numberFrom_cons, List.filterMap_cons, hv]
  rfl

include hfirst in
/-- **The numbered lines of an edited text**, with its byte order mark. -/
theorem numberedLines_apply (he : e.IsByLine) (hnodup : e.deletions.Nodup) (t : Text) :
    numberedLines (e.apply t) = (numberedLines t).filterMap fun p =>
      (e.markedLine? p.1 p.2).map fun u => (e.newNumber p.1, u) := by
  obtain ⟨l, ls, hl⟩ := List.exists_cons_of_ne_nil (lines_ne_nil t)
  obtain ⟨v, hv, hafter⟩ := exists_linesAfter_eq_cons hfirst hl
  have hone := newNumber_first hfirst
  have htwo : e.newNumber 2 = 2 := by
    have hmem : (1 : Int) ∉ e.deletions := not_mem_of_line?_eq_some hv
    have hstep := newNumber_succ (n := 1) hnodup
    rw [if_neg hmem, hone] at hstep
    exact hstep
  -- the lines behind the first one
  have hrest := numberFrom_line? hnodup 2 ls
  rw [htwo] at hrest
  have hsame : ((numberFrom 2 ls).filterMap fun p =>
      (e.markedLine? p.1 p.2).map fun u => (e.newNumber p.1, u)) =
      (numberFrom 2 ls).filterMap fun p => (e.line? p.1 p.2).map fun u => (e.newNumber p.1, u) := by
    refine List.filterMap_congr fun p hp => ?_
    have hle := (le_of_mem_numberFrom hp).1
    rw [markedLine?_of_ne_one (by omega)]
  have hmarked : e.markedLine? 1 l =
      some (if l.hasMark = true ∧ v.hasMark = false then byteOrderMark :: v else v) := by
    simp only [markedLine?, hv, Option.map_some, true_and]
  rw [numberedLines_eq, lines_apply_eq he (by rw [hafter]; exact List.cons_ne_nil _ _), hafter,
    numberedLines_eq, hl, numberFrom_cons, List.filterMap_cons, hmarked, Option.map_some, hone,
    hasMark_of_lines_eq_cons hl, markFirst]
  simp only [Int.reduceAdd]
  rw [hsame, ← hrest]
  cases l.hasMark <;> cases hvmark : v.hasMark <;> simp

include hfirst in
/-- What stands on the lines of an edited text. -/
theorem mem_numberedLines_apply_iff (he : e.IsByLine) (hnodup : e.deletions.Nodup) :
    (n, u) ∈ numberedLines (e.apply t) ↔
      ∃ k l, (k, l) ∈ numberedLines t ∧ e.markedLine? k l = some u ∧ e.newNumber k = n := by
  rw [numberedLines_apply hfirst he hnodup, List.mem_filterMap]
  simp only [Option.map_eq_some_iff, Prod.mk.injEq, Prod.exists]
  constructor
  · rintro ⟨k, l, hl, v, hv, hn, rfl⟩
    exact ⟨k, l, hl, hv, hn⟩
  · rintro ⟨k, l, hl, hv, hn⟩
    exact ⟨k, l, hl, u, hv, hn, rfl⟩

/-- Every deletion takes one line. -/
theorem length_line? (hnodup : e.deletions.Nodup) (k : Int) (ls : List Text) :
    (((numberFrom k ls).filterMap fun p => e.line? p.1 p.2).length : Int) + e.newNumber k =
      e.newNumber (k + ls.length) := by
  induction ls generalizing k with
  | nil => simp
  | cons l ls ih =>
    have hrest := ih (k + 1)
    have hlength : k + ((l :: ls).length : Nat) = k + 1 + (ls.length : Int) := by simp; omega
    rw [hlength, ← hrest, newNumber_succ hnodup, numberFrom_cons, List.filterMap_cons]
    cases hline : e.line? k l with
    | none => rw [if_pos (line?_eq_none_iff.1 hline)]
    | some v =>
      rw [if_neg (not_mem_of_line?_eq_some hline), List.length_cons]
      omega

include hfirst in
theorem length_lines_apply (he : e.IsByLine) (hnodup : e.deletions.Nodup)
    (hlast : ∀ d ∈ e.deletions, d ≤ (lines t).length) :
    (lines (e.apply t)).length + e.deletions.length = (lines t).length := by
  obtain ⟨l, ls, hl⟩ := List.exists_cons_of_ne_nil (lines_ne_nil t)
  have hne : e.linesAfter t ≠ [] := by
    obtain ⟨v, -, hafter⟩ := exists_linesAfter_eq_cons hfirst hl
    rw [hafter]
    exact List.cons_ne_nil _ _
  have hkept : (lines (e.apply t)).length = (e.linesAfter t).length := by
    rcases lines_apply he hne with heq | heq
    · rw [heq]
    · obtain ⟨u, us, hu⟩ := List.exists_cons_of_ne_nil hne
      rw [heq, hu, markFirst, List.length_cons, List.length_cons]
  have hlength := length_line? hnodup 1 (lines t)
  rw [← numberedLines_eq] at hlength
  have hone := newNumber_first hfirst
  have hall : (e.deletions.countP fun d => decide (d < 1 + ((lines t).length : Int))) =
      e.deletions.length := by
    rw [List.countP_eq_length]
    intro d hd
    have hle := hlast d hd
    exact decide_eq_true (by omega)
  rw [hone, newNumber, hall] at hlength
  rw [hkept, linesAfter]
  omega

end LineEdits

end ImportRepair
