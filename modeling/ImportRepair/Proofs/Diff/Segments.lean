import ImportRepair.Diff.Segments
import Mathlib.Data.List.Chain

/-!
# What a comparison says

However common runs are chosen, the segments of a comparison put together give
both lists back, and no change follows another one without a common run in
between.  For the first it is enough that what is taken for a common run is one;
that it is the longest does not matter.  The table of run lengths is looked at
from behind: the lines in front of a place, last one first, in both lists.
-/

namespace ImportRepair.Diff

variable {seeds : Text → Bool} {a b a' u v : List Text} {x y : Text} {m n i j : Nat}
  {ns : List Nat} {r best : Run} {s : Segment} {ss : List Segment}

/-! ### Common runs -/

/-- The two lists begin with the same `n` lines. -/
def SharesFront (n : Nat) (u v : List Text) : Prop :=
  ∃ p u' v', u = p ++ u' ∧ v = p ++ v' ∧ p.length = n

theorem sharesFront_zero (u v : List Text) : SharesFront 0 u v := ⟨[], u, v, rfl, rfl, rfl⟩

theorem SharesFront.cons (x : Text) (h : SharesFront n u v) :
    SharesFront (n + 1) (x :: u) (x :: v) := by
  obtain ⟨p, u', v', rfl, rfl, hn⟩ := h
  exact ⟨x :: p, u', v', rfl, rfl, by rw [List.length_cons, hn]⟩

theorem sharesFront_commonFront (u v : List Text) : SharesFront (commonFront u v) u v := by
  induction u generalizing v with
  | nil => exact sharesFront_zero [] v
  | cons x u ih =>
    cases v with
    | nil => exact sharesFront_zero _ []
    | cons y v =>
      rw [commonFront]
      split
      · rename_i hxy
        rw [hxy]
        exact (ih v).cons y
      · exact sharesFront_zero _ _

/-- The lines of the run are the same in both lists. -/
def Run.IsCommon (r : Run) (a b : List Text) : Prop :=
  ∃ a₁ a₂ b₁ b₂ ls, a = a₁ ++ (ls ++ a₂) ∧ b = b₁ ++ (ls ++ b₂) ∧ a₁.length = r.old ∧
    b₁.length = r.new ∧ ls.length = r.size

theorem isCommon_empty (a b : List Text) : Run.IsCommon ⟨0, 0, 0⟩ a b :=
  ⟨[], a, [], b, [], rfl, rfl, rfl, rfl, rfl⟩

/-- Lines that are shared in front of two places, last one first, are a run that ends there. -/
theorem SharesFront.isCommon (h : SharesFront n u v) (a b : List Text) :
    Run.IsCommon ⟨u.length - n, v.length - n, n⟩ (u.reverse ++ a) (v.reverse ++ b) := by
  obtain ⟨p, u', v', rfl, rfl, rfl⟩ := h
  refine ⟨u'.reverse, a, v'.reverse, b, p.reverse, ?_, ?_, ?_, ?_, List.length_reverse⟩
  · rw [List.reverse_append, List.append_assoc]
  · rw [List.reverse_append, List.append_assoc]
  · dsimp only
    rw [List.length_reverse, List.length_append, Nat.add_sub_cancel_left]
  · dsimp only
    rw [List.length_reverse, List.length_append, Nat.add_sub_cancel_left]

/-! ### The table of run lengths -/

/-- A row of the table: `u` are the lines of the old list up to a place, last one first, `v` those
    of the new list in front of `b`, and each number tells of a run that ends in `u` and at a line
    of `b`. -/
inductive Row (u : List Text) : List Text → List Text → List Nat → Prop
  | nil {v : List Text} : Row u v [] []
  | cons {v b : List Text} {y : Text} {n : Nat} {ns : List Nat} (hn : SharesFront n u (y :: v))
      (h : Row u (y :: v) b ns) : Row u v (y :: b) (n :: ns)

theorem row_zero (u v b : List Text) : Row u v b (b.map fun _ => 0) := by
  induction b generalizing v with
  | nil => exact .nil
  | cons y b ih => exact .cons (sharesFront_zero _ _) (ih (y :: v))

/-- A run that ends in the next line of both lists is one longer than the run in front of it. -/
theorem Row.zipWith (x : Text) (hm : SharesFront m u v) (h : Row u v b ns) :
    Row (x :: u) v b (List.zipWith (fun y n => if y = x then n + 1 else 0) b (m :: ns)) := by
  induction h generalizing m with
  | nil => exact .nil
  | @cons v b y n ns hn _ ih =>
    refine .cons ?_ (ih hn)
    dsimp only
    split
    · rename_i hyx
      rw [hyx]
      exact hm.cons x
    · exact sharesFront_zero _ _

theorem row_runLengths (x : Text) (h : Row u [] b ns) :
    Row (x :: u) [] b (runLengths seeds x b ns) := by
  rw [runLengths]
  split
  · exact h.zipWith x (sharesFront_zero _ _)
  · exact row_zero _ _ _

theorem isCommon_longerRun (hbest : best.IsCommon (u.reverse ++ a) (v.reverse ++ b))
    (h : Row u v b ns) (hu : u.length = i + 1) (hv : v.length = j) :
    (longerRun best i j ns).IsCommon (u.reverse ++ a) (v.reverse ++ b) := by
  induction h generalizing best j with
  | nil => exact hbest
  | @cons v b y n ns hn _ ih =>
    have hb : v.reverse ++ y :: b = (y :: v).reverse ++ b := by simp
    have hy : (y :: v).length = j + 1 := by rw [List.length_cons, hv]
    rw [longerRun]
    rw [hb] at hbest ⊢
    refine ih ?_ hy
    split
    · rw [← hu, ← hy]
      exact hn.isCommon a b
    · exact hbest

/-- **What is found in the table is a common run.**  The induction goes through the old list, and
    the row that belongs to the lines gone through is what it carries along. -/
theorem isCommon_longestRun (hbest : best.IsCommon (u.reverse ++ a) b) (h : Row u [] b ns)
    (hu : u.length = i) : (longestRun seeds b best i ns a).IsCommon (u.reverse ++ a) b := by
  induction a generalizing u best i ns with
  | nil => exact hbest
  | cons x a ih =>
    have ha : u.reverse ++ x :: a = (x :: u).reverse ++ a := by simp
    have hx : (x :: u).length = i + 1 := by rw [List.length_cons, hu]
    have hrow : Row (x :: u) [] b (runLengths seeds x b ns) := row_runLengths x h
    rw [ha] at hbest ⊢
    exact ih (isCommon_longerRun hbest hrow hx rfl) hrow hx

/-- A common run that is extended on both sides over lines that are shared there is common. -/
theorem Run.IsCommon.extend (h : r.IsCommon a b) : (r.extend a b).IsCommon a b := by
  obtain ⟨a₁, a₂, b₁, b₂, ls, rfl, rfl, ha, hb, hls⟩ := h
  obtain ⟨p, a₁', b₁', hpa, hpb, hp⟩ := sharesFront_commonFront a₁.reverse b₁.reverse
  obtain ⟨q, a₂', b₂', rfl, rfl, hq⟩ := sharesFront_commonFront a₂ b₂
  have hfront : commonFront ((a₁ ++ (ls ++ (q ++ a₂'))).take r.old).reverse
      ((b₁ ++ (ls ++ (q ++ b₂'))).take r.new).reverse = p.length := by
    rw [← ha, ← hb, List.take_left', List.take_left', hp]
    · rfl
    · rfl
  have hback : commonFront ((a₁ ++ (ls ++ (q ++ a₂'))).drop (r.old + r.size))
      ((b₁ ++ (ls ++ (q ++ b₂'))).drop (r.new + r.size)) = q.length := by
    rw [← ha, ← hb, ← hls, ← List.append_assoc, ← List.append_assoc b₁, ← List.length_append,
      ← List.length_append, List.drop_left', List.drop_left', hq]
    · rfl
    · rfl
  rw [List.reverse_eq_iff, List.reverse_append] at hpa hpb
  subst hpa hpb
  rw [List.length_append, List.length_reverse, List.length_reverse] at ha hb
  refine ⟨a₁'.reverse, a₂', b₁'.reverse, b₂', p.reverse ++ (ls ++ q), ?_, ?_, ?_, ?_, ?_⟩
  · simp
  · simp
  · rw [Run.extend, hfront, List.length_reverse, ← ha]
    exact (Nat.add_sub_cancel ..).symm
  · rw [Run.extend, hfront, List.length_reverse, ← hb]
    exact (Nat.add_sub_cancel ..).symm
  · rw [Run.extend, hfront, hback, List.length_append, List.length_append, List.length_reverse, hls,
      Nat.add_assoc]

theorem isCommon_commonRun (seeds : Text → Bool) (a b : List Text) :
    (commonRun seeds a b).IsCommon a b :=
  Run.IsCommon.extend (isCommon_longestRun (isCommon_empty a b) (row_zero [] [] b) rfl)

/-! ### Segments -/

/-- The segments come from a comparison: two lists without lines have none, two others are one
    change, or a common run parts them into two comparisons. -/
inductive Compares : List Text → List Text → List Segment → Prop
  | nil : Compares [] [] []
  | change {a b : List Text} (h : ¬ (a = [] ∧ b = [])) : Compares a b [.change a b]
  | common {a₁ a₂ b₁ b₂ ls : List Text} {ss ts : List Segment} (hls : ls ≠ [])
      (hfront : Compares a₁ b₁ ss) (hback : Compares a₂ b₂ ts) :
      Compares (a₁ ++ (ls ++ a₂)) (b₁ ++ (ls ++ b₂)) (ss ++ .same ls :: ts)

theorem compares_rawSegments (seeds : Text → Bool) (a b : List Text) :
    Compares a b (rawSegments seeds a b) := by
  induction hsize : a.length using Nat.strongRecOn generalizing a b with
  | ind size ih =>
    obtain ⟨a₁, a₂, b₁, b₂, ls, ha, hb, hold, hnew, hlength⟩ := isCommon_commonRun seeds a b
    rw [rawSegments]
    split
    rename_i i j n hrun
    rw [hrun] at hold hnew hlength
    dsimp only at hold hnew hlength
    split
    · rename_i hn
      have hls : ls ≠ [] := List.ne_nil_of_length_pos (hlength ▸ hn.1)
      have ha₁ : a.take i = a₁ := by rw [ha, List.take_left' hold]
      have hb₁ : b.take j = b₁ := by rw [hb, List.take_left' hnew]
      have hrest : a.drop i = ls ++ a₂ := by rw [ha, List.drop_left' hold]
      have ha₂ : a.drop (i + n) = a₂ := by rw [← List.drop_drop, hrest, List.drop_left' hlength]
      have hb₂ : b.drop (j + n) = b₂ := by
        rw [← List.drop_drop, hb, List.drop_left' hnew, List.drop_left' hlength]
      have htotal : a₁.length + (ls.length + a₂.length) = size := by
        rw [← hsize, ha, List.length_append, List.length_append]
      rw [ha₁, hb₁, ha₂, hb₂, hrest, List.take_left' hlength]
      have hfront := ih a₁.length (by omega) a₁ b₁ rfl
      have hback := ih a₂.length (by omega) a₂ b₂ rfl
      have hcommon := Compares.common hls hfront hback
      rwa [← ha, ← hb] at hcommon
    · split
      · rename_i hempty
        rw [Bool.and_eq_true, List.isEmpty_iff, List.isEmpty_iff] at hempty
        rw [hempty.1, hempty.2]
        exact .nil
      · rename_i hempty
        rw [Bool.and_eq_true, List.isEmpty_iff, List.isEmpty_iff] at hempty
        exact .change hempty

theorem Compares.old (h : Compares a b ss) : ss.flatMap Segment.old = a := by
  induction h with
  | nil => rfl
  | change _ => exact List.append_nil _
  | common _ _ _ hfront hback =>
    rw [List.flatMap_append, List.flatMap_cons, hfront, hback]
    rfl

theorem Compares.new (h : Compares a b ss) : ss.flatMap Segment.new = b := by
  induction h with
  | nil => rfl
  | change _ => exact List.append_nil _
  | common _ _ _ hfront hback =>
    rw [List.flatMap_append, List.flatMap_cons, hfront, hback]
    rfl

/-- The segment is a common run. -/
def Segment.isSame : Segment → Bool
  | same _ => true
  | change _ _ => false

/-- The segment shows something. -/
def Segment.IsFull : Segment → Prop
  | same ls => ls ≠ []
  | change old new => ¬ (old = [] ∧ new = [])

/-- No segment is empty, and of two neighbours one is a common run. -/
structure Separates (ss : List Segment) : Prop where
  full : ∀ s ∈ ss, s.IsFull
  chain : ss.IsChain fun s t => s.isSame = true ∨ t.isSame = true

theorem Compares.separates (h : Compares a b ss) : Separates ss := by
  induction h with
  | nil => exact ⟨by simp, .nil⟩
  | change h =>
    refine ⟨?_, .singleton _⟩
    intro s hs
    rw [List.mem_singleton.1 hs]
    exact h
  | @common a₁ a₂ b₁ b₂ ls ss ts hls _ _ hfront hback =>
    constructor
    · intro s hs
      rw [List.mem_append, List.mem_cons] at hs
      rcases hs with hs | rfl | hs
      · exact hfront.full s hs
      · exact hls
      · exact hback.full s hs
    · rw [List.isChain_append]
      refine ⟨hfront.chain, ?_, ?_⟩
      · rw [List.isChain_cons]
        exact ⟨fun t _ => .inl rfl, hback.chain⟩
      · intro s _ t ht
        rw [List.head?_cons, Option.mem_some] at ht
        rw [← ht]
        exact .inr rfl

/-! ### Joined runs -/

theorem joinRuns_change (old new : List Text) (ss : List Segment) :
    joinRuns (.change old new :: ss) = .change old new :: joinRuns ss := rfl

/-- A common run takes in the one that follows it. -/
theorem joinRuns_same (ls : List Text) (ss : List Segment) :
    joinRuns (.same ls :: ss) = (.same ls :: joinRuns ss) ∨
      ∃ ms rest, joinRuns ss = .same ms :: rest ∧
        joinRuns (.same ls :: ss) = .same (ls ++ ms) :: rest := by
  cases h : joinRuns ss with
  | nil => exact .inl (by rw [joinRuns, h])
  | cons s rest =>
    cases s with
    | change old new => exact .inl (by rw [joinRuns, h])
    | same ms => exact .inr ⟨ms, rest, rfl, by rw [joinRuns, h]⟩

theorem flatMap_joinRuns {f : Segment → List Text}
    (hf : ∀ ls ms, f (.same (ls ++ ms)) = f (.same ls) ++ f (.same ms)) (ss : List Segment) :
    (joinRuns ss).flatMap f = ss.flatMap f := by
  induction ss with
  | nil => rfl
  | cons s ss ih =>
    cases s with
    | change old new => rw [joinRuns_change, List.flatMap_cons, List.flatMap_cons, ih]
    | same ls =>
      rcases joinRuns_same ls ss with heq | ⟨ms, rest, hrest, heq⟩
      · rw [heq, List.flatMap_cons, List.flatMap_cons, ih]
      · rw [heq, List.flatMap_cons, List.flatMap_cons, ← ih, hrest, List.flatMap_cons, hf,
          List.append_assoc]

theorem Separates.cons (hs : s.IsFull)
    (hhead : ∀ t ∈ ss.head?, s.isSame = true ∨ t.isSame = true) (h : Separates ss) :
    Separates (s :: ss) := by
  constructor
  · rw [List.forall_mem_cons]
    exact ⟨hs, h.full⟩
  · rw [List.isChain_cons]
    exact ⟨hhead, h.chain⟩

theorem Separates.head (h : Separates (s :: ss)) :
    ∀ t ∈ ss.head?, s.isSame = true ∨ t.isSame = true := (List.isChain_cons.1 h.chain).1

theorem Separates.tail (h : Separates (s :: ss)) : Separates ss :=
  ⟨fun t ht => h.full t (List.mem_cons_of_mem s ht), (List.isChain_cons.1 h.chain).2⟩

/-- The first of the joined segments is a common run if and only if the first one was. -/
theorem head?_joinRuns (h : s ∈ (joinRuns ss).head?) : ∃ t ∈ ss.head?, t.isSame = s.isSame := by
  cases ss with
  | nil => exact absurd h (by simp [joinRuns])
  | cons t ss =>
    refine ⟨t, rfl, ?_⟩
    cases t with
    | change old new =>
      rw [joinRuns_change, List.head?_cons, Option.mem_some] at h
      rw [← h]
    | same ls =>
      rcases joinRuns_same ls ss with heq | ⟨ms, rest, -, heq⟩
      · rw [heq, List.head?_cons, Option.mem_some] at h
        rw [← h]
      · rw [heq, List.head?_cons, Option.mem_some] at h
        rw [← h]
        rfl

theorem Separates.joinRuns (h : Separates ss) : Separates (joinRuns ss) := by
  induction ss with
  | nil => exact h
  | cons s ss ih =>
    have htail := ih h.tail
    have hs := h.full s List.mem_cons_self
    cases s with
    | change old new =>
      rw [joinRuns_change]
      apply htail.cons hs
      intro t ht
      obtain ⟨t', ht', hsame⟩ := head?_joinRuns ht
      rw [← hsame]
      exact h.head t' ht'
    | same ls =>
      rcases joinRuns_same ls ss with heq | ⟨ms, rest, hrest, heq⟩
      · rw [heq]
        exact htail.cons hs fun t _ => .inl rfl
      · rw [hrest] at htail
        rw [heq]
        exact htail.tail.cons (List.append_ne_nil_of_left_ne_nil hs ms) fun t _ => .inl rfl

/-! ### The comparison of two lists -/

/-- **The segments put together are the old list.** -/
theorem flatMap_old_segments (a b : List Text) : (segments a b).flatMap Segment.old = a := by
  rw [segments, flatMap_joinRuns fun _ _ => rfl]
  exact (compares_rawSegments _ a b).old

/-- **The segments put together are the new list.** -/
theorem flatMap_new_segments (a b : List Text) : (segments a b).flatMap Segment.new = b := by
  rw [segments, flatMap_joinRuns fun _ _ => rfl]
  exact (compares_rawSegments _ a b).new

theorem separates_segments (a b : List Text) : Separates (segments a b) :=
  (compares_rawSegments _ a b).separates.joinRuns

end ImportRepair.Diff
