import Mathlib.Data.List.Perm.Basic
import ImportRepair.Proofs.Diagnostic.Tiers

/-!
# Snippets

A snippet is an annotation: whether snippets are asked for or not, the same
diagnostics are found by the same tier, in the same order.  A snippet comes from
two of the four lines behind the line of its diagnostic, a line of source and a
line of marks below it, and no line in the format stands in front of the marks.
-/

namespace ImportRepair

open Text

variable {root : Option Text} {l : Layout} {d : Diagnostic} {ds : List Diagnostic}
  {t s output : Text} {ts us ls after : List Text} {last : Option Text} {k n : Nat}
  {tier : Tier} {tiers : List Tier}

/-! ### Lines of marks -/

def isMark (c : Char) : Bool := c == '~' || c == '^'

/-- The first mark of the line is in column `k`, and there are only marks and white space on the
    line. -/
structure MarksColumn (t : Text) (k : Nat) : Prop where
  mark : t[k]? = some '~' ∨ t[k]? = some '^'
  before : AllIn isBlank (t.take k)
  behind : ∃ marks rest, t.drop k = marks ++ rest ∧ AllIn isMark marks ∧ AllIn isBlank rest

theorem isMark_iff {c : Char} : isMark c = true ↔ c = '~' ∨ c = '^' := by simp [isMark]

theorem isBlank_of_isMark {c : Char} (h : isMark c = true) : isBlank c = false := by
  rcases isMark_iff.1 h with rfl | rfl <;> decide

theorem markColumn?_eq_some_iff : markColumn? t = some k ↔ MarksColumn t k := by
  constructor
  · intro h
    have hsplit : t.takeWhile isBlank ++ t.dropWhile isBlank = t := List.takeWhile_append_dropWhile
    unfold markColumn? at h
    dsimp only at h
    split at h
    · next c r hr =>
      split at h
      · next hmarks =>
        obtain ⟨hc, hrest⟩ := Bool.and_eq_true_iff.1 hmarks
        have hk : (t.takeWhile isBlank).length = k := Option.some.inj h
        rw [hr] at hsplit
        have htake : t.take k = t.takeWhile isBlank := by
          conv_lhs => rw [← hsplit, ← hk]
          exact List.take_left
        have hdrop : t.drop k = c :: r := by
          conv_lhs => rw [← hsplit, ← hk]
          exact List.drop_left
        have hget : t[k]? = some c := by
          rw [← List.head?_drop, hdrop]
          rfl
        refine ⟨?_, htake ▸ allIn_takeWhile, c :: r.takeWhile isMark, r.dropWhile isMark,
          ?_, ?_, ?_⟩
        · rw [hget, Option.some_inj, Option.some_inj]
          exact isMark_iff.1 hc
        · rw [hdrop, List.cons_append, List.takeWhile_append_dropWhile]
        · exact allIn_cons.2 ⟨hc, allIn_takeWhile⟩
        · exact List.all_eq_true.1 hrest
      · cases h
    · cases h
  · rintro ⟨hmark, hbefore, marks, rest, hsplit, hmarks, hrest⟩
    obtain ⟨c, hget, hc⟩ : ∃ c, t[k]? = some c ∧ isMark c = true := by
      rcases hmark with hget | hget
      · exact ⟨_, hget, rfl⟩
      · exact ⟨_, hget, rfl⟩
    obtain ⟨hk, -⟩ := List.getElem?_eq_some_iff.1 hget
    obtain ⟨r, hdrop⟩ : ∃ r, t.drop k = c :: r := by
      rw [← List.head?_drop] at hget
      exact ⟨_, (List.cons_head?_tail hget).symm⟩
    have ht : t = t.take k ++ c :: r := by rw [← hdrop, List.take_append_drop]
    have hstop : Stops isBlank (c :: r) := stops_cons.2 (isBlank_of_isMark hc)
    have htake : t.takeWhile isBlank = t.take k := by
      conv_lhs => rw [ht, takeWhile_run hbefore hstop]
    have hrest' : t.dropWhile isBlank = c :: r := by
      conv_lhs => rw [ht, dropWhile_run hbefore hstop]
    have hmarks' : (r.dropWhile isMark).all isBlank = true := by
      rw [hdrop] at hsplit
      cases marks with
      | nil =>
        rw [List.nil_append] at hsplit
        have hblank := hrest c (hsplit ▸ List.mem_cons_self)
        exact absurd hblank (by simp [isBlank_of_isMark hc])
      | cons m marks =>
        have hr : r = marks ++ rest := (List.cons.inj hsplit).2
        have hnot : ∀ x, isBlank x = true → isMark x = false := by
          intro x hx
          rw [Bool.eq_false_iff]
          exact fun hm => Bool.false_ne_true ((isBlank_of_isMark hm).symm.trans hx)
        rw [hr, dropWhile_run (allIn_cons.1 hmarks).2 (hrest.stops hnot), List.all_eq_true]
        exact hrest
    unfold markColumn?
    rw [hrest', htake, List.length_take, Nat.min_eq_left (Nat.le_of_lt hk)]
    exact if_pos (Bool.and_eq_true_iff.2 ⟨hc, hmarks'⟩)

/-! ### The search -/

/-- What is quoted where some lines have been passed: the last of them that is not blank, or else
    what was quoted before them. -/
def quotedBy (last : Option Text) (passed : List Text) : Option Text :=
  ((passed.filter fun t => !allBlank t).getLast?.map dropGutter) <|> last

theorem quotedBy_cons (last : Option Text) (t : Text) (us : List Text) :
    quotedBy last (t :: us) = quotedBy (if allBlank t then last else some (dropGutter t)) us := by
  unfold quotedBy
  cases hblank : allBlank t with
  | true => rw [List.filter_cons_of_neg (by simp [hblank]), if_pos rfl]
  | false =>
    rw [List.filter_cons_of_pos (by simp [hblank]), if_neg Bool.false_ne_true, List.getLast?_cons]
    cases (us.filter fun t => !allBlank t).getLast? <;> rfl

/-- Line `j` is the first line of marks with a quoted line in front of it, and no line in the
    format comes earlier. -/
structure Layout.FindsAt (l : Layout) (last : Option Text) (ts : List Text) (j : Nat) (s : Text)
    (k : Nat) : Prop where
  marked : ∃ t, ts[j]? = some t ∧ MarksColumn t k
  quoted : quotedBy last (ts.take j) = some s
  format : ∀ n ≤ j, ∀ u ∈ ts[n]?, l.line? (trim u) = none
  first : ∀ n < j, ∀ u ∈ ts[n]?, ∀ i, MarksColumn u i → quotedBy last (ts.take n) = none

theorem Layout.findsAt_zero : l.FindsAt last (t :: ts) 0 s k ↔
    l.line? (trim t) = none ∧ MarksColumn t k ∧ last = some s := by
  constructor
  · rintro ⟨⟨u, hu, hmarks⟩, hquoted, hformat, -⟩
    obtain rfl : t = u := Option.some.inj hu
    exact ⟨hformat 0 (Nat.le_refl 0) t rfl, hmarks, hquoted⟩
  · rintro ⟨hformat, hmarks, hquoted⟩
    refine ⟨⟨t, rfl, hmarks⟩, hquoted, ?_, fun n hn => absurd hn (Nat.not_lt_zero n)⟩
    intro n hn u hu
    obtain rfl : n = 0 := Nat.le_zero.1 hn
    obtain rfl : t = u := Option.some.inj hu
    exact hformat

theorem Layout.findsAt_succ {j : Nat} : l.FindsAt last (t :: ts) (j + 1) s k ↔
    l.line? (trim t) = none ∧ (∀ i, MarksColumn t i → last = none) ∧
      l.FindsAt (if allBlank t then last else some (dropGutter t)) ts j s k := by
  constructor
  · rintro ⟨hmarked, hquoted, hformat, hfirst⟩
    refine ⟨hformat 0 (Nat.zero_le _) t rfl, fun i hi => hfirst 0 (Nat.succ_pos j) t rfl i hi,
      hmarked, ?_, fun n hn u hu => hformat (n + 1) (Nat.succ_le_succ hn) u hu, ?_⟩
    · rwa [List.take_succ_cons, quotedBy_cons] at hquoted
    · intro n hn u hu i hi
      have hnone := hfirst (n + 1) (Nat.succ_lt_succ hn) u hu i hi
      rwa [List.take_succ_cons, quotedBy_cons] at hnone
  · rintro ⟨hline, hmark, hmarked, hquoted, hformat, hfirst⟩
    refine ⟨hmarked, by rwa [List.take_succ_cons, quotedBy_cons], ?_, ?_⟩
    · rintro (_ | n) hn u hu
      · obtain rfl : t = u := Option.some.inj hu
        exact hline
      · exact hformat n (Nat.le_of_succ_le_succ hn) u hu
    · rintro (_ | n) hn u hu i hi
      · obtain rfl : t = u := Option.some.inj hu
        exact hmark i hi
      · rw [List.take_succ_cons, quotedBy_cons]
        exact hfirst n (Nat.lt_of_succ_lt_succ hn) u hu i hi

theorem snippet?_eq_some_iff_findsAt :
    l.snippet? last ts = some (s, k) ↔ ∃ j, l.FindsAt last ts j s k := by
  induction ts generalizing last with
  | nil =>
    refine iff_of_false nofun ?_
    rintro ⟨j, ⟨⟨u, hu, -⟩, -, -, -⟩⟩
    cases hu
  | cons t ts ih =>
    rw [← Nat.or_exists_add_one]
    simp only [Layout.findsAt_zero, Layout.findsAt_succ, exists_and_left, ← ih]
    conv_lhs => unfold Layout.snippet?
    by_cases hline : (l.line? (trim t)).isSome
    · rw [if_pos hline]
      rw [Option.isSome_iff_ne_none] at hline
      simp [hline]
    · rw [if_neg hline]
      have hnone : l.line? (trim t) = none := by simpa using hline
      rw [and_iff_right hnone, and_iff_right hnone]
      cases hmark : markColumn? t with
      | none =>
        have hmarks : ∀ i, ¬ MarksColumn t i := fun i hi =>
          Option.some_ne_none i ((markColumn?_eq_some_iff.2 hi).symm.trans hmark)
        simp [hmarks]
      | some i =>
        have hmarks : MarksColumn t i := markColumn?_eq_some_iff.1 hmark
        have hcolumn : MarksColumn t k ↔ i = k := by
          rw [← markColumn?_eq_some_iff, hmark, Option.some_inj]
        cases last with
        | none => simp
        | some r =>
          have hpast : ¬ ∀ i, MarksColumn t i → some r = none := fun h => nomatch h i hmarks
          rw [hcolumn, or_iff_left fun h => hpast h.1, Option.some_inj, Option.some_inj,
            Prod.mk.injEq, and_comm]

/-! ### What a snippet is -/

theorem quotedBy_none_eq_none_iff : quotedBy none us = none ↔ ∀ u ∈ us, allBlank u = true := by
  simp [quotedBy]

/-- The last member of a list that has a property, with its index. -/
theorem getLast?_filter_eq_some_iff {p : Text → Bool} : (us.filter p).getLast? = some t ↔
    ∃ i : Nat, us[i]? = some t ∧ p t = true ∧ ∀ n : Nat, i < n → ∀ u ∈ us[n]?, p u = false := by
  induction us using List.reverseRecOn with
  | nil => simp
  | append_singleton us x ih =>
    have hlast : (us ++ [x])[us.length]? = some x := by simp
    have hbefore : ∀ {n}, n < us.length → (us ++ [x])[n]? = us[n]? := fun hn =>
      List.getElem?_append_left hn
    have hbound : ∀ {n u}, (us ++ [x])[n]? = some u → n ≤ us.length := by
      intro n u hu
      obtain ⟨hn, -⟩ := List.getElem?_eq_some_iff.1 hu
      rw [List.length_append, List.length_singleton] at hn
      omega
    rw [List.filter_append]
    cases hx : p x with
    | true =>
      rw [List.filter_cons_of_pos hx, List.filter_nil, List.getLast?_concat, Option.some_inj]
      constructor
      · rintro rfl
        refine ⟨us.length, hlast, hx, fun n hn u hu => ?_⟩
        exact absurd (hbound hu) (Nat.not_le.2 hn)
      · rintro ⟨i, hi, -, hbehind⟩
        rcases Nat.lt_or_eq_of_le (hbound hi) with hlt | rfl
        · have hfalse := hbehind us.length hlt x hlast
          exact absurd hx (by rw [hfalse]; decide)
        · exact Option.some.inj (hlast.symm.trans hi)
    | false =>
      rw [List.filter_cons_of_neg (by simp [hx]), List.filter_nil, List.append_nil, ih]
      constructor
      · rintro ⟨i, hi, ht, hbehind⟩
        obtain ⟨hlt, -⟩ := List.getElem?_eq_some_iff.1 hi
        refine ⟨i, (hbefore hlt).trans hi, ht, fun n hn u hu => ?_⟩
        rcases Nat.lt_or_eq_of_le (hbound hu) with hnlt | rfl
        · exact hbehind n hn u ((hbefore hnlt).symm.trans hu)
        · rw [← Option.some.inj (hlast.symm.trans hu), hx]
      · rintro ⟨i, hi, ht, hbehind⟩
        have hlt : i < us.length := by
          refine Nat.lt_of_le_of_ne (hbound hi) ?_
          rintro rfl
          rw [Option.some.inj (hlast.symm.trans hi), ht] at hx
          cases hx
        refine ⟨i, (hbefore hlt).symm.trans hi, ht, fun n hn u hu => ?_⟩
        obtain ⟨hnlt, -⟩ := List.getElem?_eq_some_iff.1 hu
        exact hbehind n hn u ((hbefore hnlt).trans hu)

theorem quotedBy_none_eq_some_iff : quotedBy none us = some s ↔
    ∃ (i : Nat) (t : Text), us[i]? = some t ∧ allBlank t = false ∧ s = dropGutter t ∧
      ∀ n : Nat, i < n → ∀ u ∈ us[n]?, allBlank u = true := by
  have hlast : quotedBy none us = some s ↔
      ∃ t, (us.filter fun t => !allBlank t).getLast? = some t ∧ dropGutter t = s := by
    simp [quotedBy]
  rw [hlast]
  simp only [getLast?_filter_eq_some_iff, Bool.not_eq_true', Bool.not_eq_false']
  constructor
  · rintro ⟨t, ⟨i, hi, ht, hbehind⟩, hs⟩
    exact ⟨i, t, hi, ht, hs.symm, hbehind⟩
  · rintro ⟨i, t, hi, ht, hs, hbehind⟩
    exact ⟨t, ⟨i, hi, ht, hbehind⟩, hs.symm⟩

/-- Of the lines behind a diagnostic, line `i` is quoted as `s`, and the first mark below it is in
    column `k` of line `j`.  All lines up to there count, and they are counted from 0. -/
structure Layout.Quotes (l : Layout) (after : List Text) (i j : Nat) (s : Text) (k : Nat) :
    Prop where
  lt : i < j
  reach : j < snippetReach
  quoted : ∃ t, after[i]? = some t ∧ allBlank t = false ∧ s = dropGutter t
  marked : ∃ t, after[j]? = some t ∧ MarksColumn t k
  /-- The next line in the format comes later. -/
  format : ∀ n ≤ j, ∀ t ∈ after[n]?, l.line? (trim t) = none
  /-- The quoted line is the nearest one. -/
  between : ∀ n, i < n → n < j → ∀ t ∈ after[n]?, allBlank t = true
  /-- Marks count only below a line that is not blank, and then the first ones do. -/
  first : ∀ n < j, ∀ t ∈ after[n]?, ∀ c, MarksColumn t c →
    ∀ m < n, ∀ u ∈ after[m]?, allBlank u = true

theorem Layout.findsAt_none_iff {j : Nat} :
    l.FindsAt none (after.take snippetReach) j s k ↔ ∃ i, l.Quotes after i j s k := by
  have hget : ∀ {n}, n < snippetReach → (after.take snippetReach)[n]? = after[n]? := fun hn => by
    rw [List.getElem?_take, if_pos hn]
  have htake : ∀ {n}, n < snippetReach → (after.take snippetReach).take n = after.take n :=
    fun hn => by rw [List.take_take, Nat.min_eq_left (Nat.le_of_lt hn)]
  constructor
  · rintro ⟨⟨t, ht, hmarks⟩, hquoted, hformat, hfirst⟩
    have hj : j < snippetReach := by
      obtain ⟨hlt, -⟩ := List.getElem?_eq_some_iff.1 ht
      exact Nat.lt_of_lt_of_le hlt (List.length_take_le _ _)
    rw [htake hj] at hquoted
    obtain ⟨i, u, hi, hu, rfl, hbehind⟩ := quotedBy_none_eq_some_iff.1 hquoted
    obtain ⟨hlt, -⟩ := List.getElem?_eq_some_iff.1 hi
    have hij : i < j := Nat.lt_of_lt_of_le hlt (List.length_take_le _ _)
    refine ⟨i, hij, hj, ⟨u, ?_, hu, rfl⟩, ⟨t, (hget hj).symm.trans ht, hmarks⟩, ?_, ?_, ?_⟩
    · rwa [List.getElem?_take, if_pos hij] at hi
    · exact fun n hn v hv => hformat n hn v ((hget (Nat.lt_of_le_of_lt hn hj)).trans hv)
    · intro n hin hnj v hv
      exact hbehind n hin v (by rwa [List.getElem?_take, if_pos hnj])
    · intro n hn v hv c hc m hm w hw
      have hn' := Nat.lt_trans hn hj
      have hnone := hfirst n hn v ((hget hn').trans hv) c hc
      rw [htake hn'] at hnone
      refine quotedBy_none_eq_none_iff.1 hnone w (List.mem_of_getElem? (i := m) ?_)
      rwa [List.getElem?_take, if_pos hm]
  · rintro ⟨i, hij, hj, ⟨u, hi, hu, rfl⟩, ⟨t, ht, hmarks⟩, hformat, hbetween, hfirst⟩
    refine ⟨⟨t, (hget hj).trans ht, hmarks⟩, ?_, ?_, ?_⟩
    · rw [htake hj]
      refine quotedBy_none_eq_some_iff.2 ⟨i, u, ?_, hu, rfl, ?_⟩
      · rwa [List.getElem?_take, if_pos hij]
      · intro n hin v hv
        obtain ⟨hlt, -⟩ := List.getElem?_eq_some_iff.1 hv
        have hnj : n < j := Nat.lt_of_lt_of_le hlt (List.length_take_le _ _)
        rw [List.getElem?_take, if_pos hnj] at hv
        exact hbetween n hin hnj v hv
    · exact fun n hn v hv => hformat n hn v ((hget (Nat.lt_of_le_of_lt hn hj)).symm.trans hv)
    · intro n hn v hv c hc
      have hn' := Nat.lt_trans hn hj
      rw [htake hn', quotedBy_none_eq_none_iff]
      intro w hw
      obtain ⟨m, hm⟩ := List.mem_iff_getElem?.1 hw
      obtain ⟨hlt, -⟩ := List.getElem?_eq_some_iff.1 hm
      have hmn : m < n := Nat.lt_of_lt_of_le hlt (List.length_take_le _ _)
      rw [List.getElem?_take, if_pos hmn] at hm
      exact hfirst n hn v ((hget hn').symm.trans hv) c hc m hmn w hm

/-- The search finds exactly the snippets that the lines behind a diagnostic hold. -/
theorem snippet?_eq_some_iff : l.snippet? none (after.take snippetReach) = some (s, k) ↔
    ∃ i j, l.Quotes after i j s k := by
  rw [snippet?_eq_some_iff_findsAt, exists_comm]
  exact exists_congr fun j => Layout.findsAt_none_iff

/-! ### Annotated diagnostics -/

/-- Line `n` reports the diagnostic, and the diagnostic has the snippet that the lines behind this
    line hold, with the column of its mark, or neither of them if they hold none. -/
structure Layout.Reports (l : Layout) (root : Option Text) (ls : List Text) (n : Nat)
    (d : Diagnostic) : Prop where
  own : ∃ t x, ls[n]? = some t ∧ l.line? (trim t) = some x ∧ d.withoutSnippet = x.report l root
  together : d.snippet.isSome = d.caret.isSome
  quotes : ∀ (s : Text) (k : Nat), d.snippet = some s ∧ d.caret = some (k : Int) ↔
    ∃ i j, l.Quotes (ls.drop (n + 1)) i j s k

theorem Diagnostic.withSnippet_fields (h : d.withoutSnippet = d) (l : Layout) (after : List Text) :
    (d.withSnippet l after).snippet.isSome = (d.withSnippet l after).caret.isSome ∧
    ∀ (s : Text) (k : Nat), (d.withSnippet l after).snippet = some s ∧
        (d.withSnippet l after).caret = some (k : Int) ↔
      l.snippet? none (after.take snippetReach) = some (s, k) := by
  have hsnippet : d.snippet = none := (congrArg Diagnostic.snippet h).symm
  have hcaret : d.caret = none := (congrArg Diagnostic.caret h).symm
  unfold withSnippet
  split
  · next s k hfound =>
    refine ⟨rfl, fun s' k' => ?_⟩
    simp [hfound]
  · next hnone => simp [hsnippet, hcaret, hnone]

theorem LocatedLine.withoutSnippet_report (x : LocatedLine) (l : Layout) (root : Option Text) :
    (x.report l root).withoutSnippet = x.report l root := rfl

/-- The diagnostics of a tier stand for lines one behind the other. -/
theorem Layout.exists_reports (h : l.diagnostics root true ls = .ok ds) :
    ∃ ns : List Nat, ns.Pairwise (· < ·) ∧ List.Forall₂ (l.Reports root ls) ns ds := by
  induction ls generalizing ds with
  | nil =>
    cases h
    exact ⟨[], .nil, .nil⟩
  | cons t ls ih =>
    have hshift : ∀ {n d}, l.Reports root ls n d → l.Reports root (t :: ls) (n + 1) d :=
      fun h => ⟨h.own, h.together, h.quotes⟩
    have hmap : ∀ {ns ds}, List.Forall₂ (l.Reports root ls) ns ds →
        List.Forall₂ (l.Reports root (t :: ls)) (ns.map (· + 1)) ds := by
      intro ns ds h
      rw [List.forall₂_map_left_iff]
      exact h.imp fun _ _ => hshift
    have hincreasing : ∀ {ns : List Nat}, ns.Pairwise (· < ·) →
        (ns.map (· + 1)).Pairwise (· < ·) := fun h =>
      List.pairwise_map.2 (h.imp fun hlt => Nat.succ_lt_succ hlt)
    rw [diagnostics] at h
    split at h
    · obtain ⟨ns, hns, hreports⟩ := ih h
      exact ⟨ns.map (· + 1), hincreasing hns, hmap hreports⟩
    · next x hx =>
      obtain ⟨d, hd, hrest⟩ := bind_eq_ok_iff.1 h
      obtain ⟨ds', hds, hcons⟩ := bind_eq_ok_iff.1 hrest
      obtain ⟨ns, hns, hreports⟩ := ih hds
      obtain ⟨-, rfl⟩ := LocatedLine.diagnostic_eq_ok_iff.1 hd
      have hfields := Diagnostic.withSnippet_fields (x.withoutSnippet_report l root) l ls
      have hfirst : l.Reports root (t :: ls) 0 ((x.report l root).withSnippet l ls) := by
        refine ⟨⟨t, x, rfl, hx, Diagnostic.withoutSnippet_withSnippet _ _ _⟩, hfields.1, ?_⟩
        intro s k
        rw [hfields.2, snippet?_eq_some_iff]
        rfl
      rw [← Except.ok.inj hcons]
      exact ⟨0 :: ns.map (· + 1), List.pairwise_cons.2 ⟨by simp, hincreasing hns⟩,
        .cons hfirst (hmap hreports)⟩

/-- A tier in a format is the same with and without snippets, but for the snippets. -/
theorem Layout.map_withoutSnippet_diagnostics_true (l : Layout) (root : Option Text)
    (ls : List Text) : (l.diagnostics root true ls).map (List.map Diagnostic.withoutSnippet) =
      l.diagnostics root false ls := by
  rw [map_withoutSnippet_diagnostics, ← map_withoutSnippet_diagnostics l root false]
  induction ls with
  | nil => rfl
  | cons t ls ih =>
    rw [diagnostics]
    split
    · exact ih
    · next x hx =>
      cases hd : x.diagnostic l root with
      | error e => rfl
      | ok d =>
        have hplain : d.withoutSnippet = d := by
          obtain ⟨-, rfl⟩ := LocatedLine.diagnostic_eq_ok_iff.1 hd
          rfl
        cases hds : l.diagnostics root false ls with
        | error e => rfl
        | ok ds =>
          rw [hds] at ih
          have hrest : ds.map (·.withoutSnippet) = ds := Except.ok.inj ih
          exact congrArg Except.ok (congrArg₂ List.cons hplain hrest)

/-! ### Tiers without snippets -/

theorem withoutSnippet_of_mem_summaryDiagnostics {seen : List Text} {es : List SummaryEntry}
    (h : (summaryDiagnostics root seen es).1 = .ok ds) (hd : d ∈ ds) : d.withoutSnippet = d := by
  induction es generalizing seen ds with
  | nil =>
    cases h
    cases hd
  | cons e es ih =>
    rcases summaryDiagnostics_cons h with h | ⟨d', rest, ⟨-, hplain⟩, rfl, hrest⟩
    · exact ih h hd
    · rcases List.mem_cons.1 hd with rfl | hd
      · exact hplain
      · exact ih hrest hd

theorem Tier.withoutSnippet_of_mem_read {snippets : Bool} (hplace : tier.hasPlace = false)
    (h : (tier.read root snippets t).1 = .ok ds) (hd : d ∈ ds) : d.withoutSnippet = d := by
  cases tier with
  | primary => cases hplace
  | alternate => cases hplace
  | summary => exact withoutSnippet_of_mem_summaryDiagnostics h hd
  | scan =>
    cases h
    obtain ⟨file, -, rfl⟩ := List.mem_map.1 hd
    rfl

/-- Whether snippets are asked for plays no part in a tier without places. -/
theorem Tier.read_of_hasPlace_false (hplace : tier.hasPlace = false) (root : Option Text)
    (snippets : Bool) (t : Text) : tier.read root snippets t = tier.read root false t := by
  cases tier with
  | primary => cases hplace
  | alternate => cases hplace
  | summary => rfl
  | scan => rfl

/-- A tier finds the same with and without snippets, and fails with them where it fails without
    them. -/
theorem Tier.map_withoutSnippet_read (tier : Tier) (root : Option Text) (t : Text) :
    (tier.read root true t).1.map (List.map Diagnostic.withoutSnippet) =
      (tier.read root false t).1 := by
  cases hplace : tier.hasPlace with
  | false =>
    rw [read_of_hasPlace_false hplace]
    cases hread : (tier.read root false t).1 with
    | error e => rfl
    | ok ds =>
      have hplain : ds.map (·.withoutSnippet) = ds :=
        (List.map_congr_left fun _ hd => withoutSnippet_of_mem_read hplace hread hd).trans
          (List.map_id ds)
      exact congrArg Except.ok hplain
  | true =>
    cases tier with
    | primary => exact Layout.map_withoutSnippet_diagnostics_true .parenthesised root _
    | alternate => exact Layout.map_withoutSnippet_diagnostics_true .colonSeparated root _
    | summary => cases hplace
    | scan => cases hplace

theorem map_withoutSnippet_mergeSort (ds : List Diagnostic) :
    (ds.mergeSort Diagnostic.le).map (·.withoutSnippet) =
      (ds.map (·.withoutSnippet)).mergeSort Diagnostic.le :=
  List.map_mergeSort fun _ _ _ _ => rfl

/-- So the same tier answers. -/
theorem map_withoutSnippet_readTiers (root : Option Text) (t : Text) (tiers : List Tier) :
    (readTiers root true t tiers).1.map (·.withoutSnippet) = (readTiers root false t tiers).1 := by
  induction tiers with
  | nil => rfl
  | cons tier tiers ih =>
    have hread := tier.map_withoutSnippet_read root t
    cases hon : (tier.read root true t).1 with
    | error e =>
      rw [hon] at hread
      rw [readTiers_of_error hon, readTiers_of_error hread.symm, ih]
    | ok ds =>
      rw [hon] at hread
      by_cases hne : ds = []
      · subst hne
        rw [readTiers_of_nil hon, readTiers_of_nil hread.symm, ih]
      · have hne' : ds.map (·.withoutSnippet) ≠ [] := mt List.map_eq_nil_iff.1 hne
        rw [readTiers_of_ne_nil hon hne, readTiers_of_ne_nil hread.symm hne',
          map_withoutSnippet_mergeSort]

/-- One tier answers, if any. -/
theorem exists_read_of_readTiers {snippets : Bool} (root : Option Text) (t : Text)
    (tiers : List Tier) : (readTiers root snippets t tiers).1 = [] ∨
      ∃ tier ∈ tiers, ∃ ds, (tier.read root snippets t).1 = .ok ds ∧
        (readTiers root snippets t tiers).1 = ds.mergeSort Diagnostic.le := by
  induction tiers with
  | nil => exact .inl rfl
  | cons tier tiers ih =>
    have hbehind : (readTiers root snippets t (tier :: tiers)).1 =
        (readTiers root snippets t tiers).1 →
        (readTiers root snippets t (tier :: tiers)).1 = [] ∨
        ∃ tier' ∈ tier :: tiers, ∃ ds, (tier'.read root snippets t).1 = .ok ds ∧
          (readTiers root snippets t (tier :: tiers)).1 = ds.mergeSort Diagnostic.le := by
      intro heq
      rw [heq]
      refine ih.imp_right ?_
      rintro ⟨tier', hmem, h⟩
      exact ⟨tier', List.mem_cons_of_mem _ hmem, h⟩
    cases hread : (tier.read root snippets t).1 with
    | error e => exact hbehind (readTiers_of_error hread)
    | ok ds =>
      by_cases hne : ds = []
      · exact hbehind (readTiers_of_nil (hne ▸ hread))
      · exact .inr ⟨tier, List.mem_cons_self, ds, hread, readTiers_of_ne_nil hread hne⟩

/-! ### The whole output -/

/-- Diagnostics that are put in order take the lines that they stand for with them. -/
theorem Layout.exists_reports_mergeSort (h : l.diagnostics root true ls = .ok ds) :
    ∃ ns : List Nat, ns.Nodup ∧
      List.Forall₂ (l.Reports root ls) ns (ds.mergeSort Diagnostic.le) := by
  obtain ⟨ns, hns, hreports⟩ := exists_reports h
  have hcomp : Relation.Comp List.Perm (List.Forall₂ (l.Reports root ls)) ns
      (ds.mergeSort Diagnostic.le) := by
    rw [← List.forall₂_comp_perm_eq_perm_comp_forall₂]
    exact ⟨ds, hreports, (List.mergeSort_perm ds _).symm⟩
  obtain ⟨ms, hperm, hms⟩ := hcomp
  exact ⟨ms, hperm.nodup_iff.1 (hns.imp Nat.ne_of_lt), hms⟩

/-- **Snippets only annotate.**  With snippets the output gives the diagnostics that it gives
    without them, in the same order and of the same tier, and each has a snippet and a column of
    marks or neither.  Where the diagnostics have places, each reports a line of its own in one
    format, and its snippet and its column are those that the lines behind it hold; otherwise they
    have no snippets. -/
theorem snippets_annotate_only (root : Option Text) (output : Text) :
    (diagnosticsOf root true output).map (·.withoutSnippet) = diagnosticsOf root false output ∧
    (∀ d ∈ diagnosticsOf root true output, d.snippet.isSome = d.caret.isSome) ∧
    ((∀ d ∈ diagnosticsOf root true output, d.hasPlace = false ∧ d.withoutSnippet = d) ∨
      ∃ (l : Layout) (ns : List Nat), ns.Nodup ∧
        List.Forall₂ (l.Reports root (lines (plainOutput output))) ns
          (diagnosticsOf root true output)) := by
  rw [diagnosticsOf_eq_readTiers, diagnosticsOf_eq_readTiers]
  refine ⟨map_withoutSnippet_readTiers root _ _, ?_⟩
  rcases exists_read_of_readTiers root (plainOutput output) Tier.ladder with
    hnone | ⟨tier, -, ds, hread, hds⟩
  · rw [hnone]
    exact ⟨List.forall_mem_nil _, .inl (List.forall_mem_nil _)⟩
  rw [hds]
  cases hplace : tier.hasPlace with
  | false =>
    have hplain : ∀ d ∈ ds.mergeSort Diagnostic.le, d.hasPlace = false ∧ d.withoutSnippet = d := by
      intro d hd
      rw [List.mem_mergeSort] at hd
      refine ⟨?_, Tier.withoutSnippet_of_mem_read hplace hread hd⟩
      rw [Diagnostic.hasPlace, Tier.tier_of_mem_read hread hd, hplace]
    refine ⟨fun d hd => ?_, .inl hplain⟩
    rw [← (hplain d hd).2]
    rfl
  | true =>
    obtain ⟨l, hl⟩ : ∃ l : Layout,
        l.diagnostics root true (lines (plainOutput output)) = .ok ds := by
      cases tier with
      | primary => exact ⟨.parenthesised, hread⟩
      | alternate => exact ⟨.colonSeparated, hread⟩
      | summary => cases hplace
      | scan => cases hplace
    obtain ⟨ns, hns, hreports⟩ := Layout.exists_reports_mergeSort hl
    have htogether : List.Forall₂ (fun (d : Diagnostic) (_ : Nat) =>
        d.snippet.isSome = d.caret.isSome ∧ True) (ds.mergeSort Diagnostic.le) ns :=
      hreports.flip.imp fun _ _ h => ⟨h.together, trivial⟩
    exact ⟨((List.forall₂_and_left _ _).1 htogether).1, .inr ⟨l, ns, hns, hreports⟩⟩

end ImportRepair
