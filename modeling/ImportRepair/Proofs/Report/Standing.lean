import ImportRepair.Report.Summary
import Mathlib.Data.List.Basic

/-!
# How files stand in a report

Each file of a batch has failed, is fixed, or was skipped.  A batch counts them,
the report file has a line for each, a result says of itself whether it was
skipped, and the command line prints those that were changed.  Two results are
judged differently in different places: an error that says nothing counts as a
failure but does not show as one, and a fix with an error counts as a failure but
is printed as a change.  Without such results all views agree.
-/

namespace ImportRepair

variable {α : Type} {l : List α} {p q : α → Bool} {r : FixResult} {results : List FixResult}
  {dryRun : Bool}

/-! ### Standing -/

/-- What has become of a file. -/
inductive Standing where
  | failed
  | fixed
  | skipped
deriving DecidableEq, Repr

/-- How a line of the report file begins that lists a file. -/
def Standing.mark : Standing → String
  | failed => "  FAILED  "
  | fixed => "  FIXED   "
  | skipped => "  SKIPPED "

namespace FixResult

/-- How the counters of a batch take a result. -/
def counted (r : FixResult) : Standing :=
  if r.failed then .failed else if r.fixed then .fixed else .skipped

/-- The result has an error that shows. -/
def showsError (r : FixResult) : Bool := (r.error.filter (· != "")).isSome

/-- How the report file lists a result. -/
def listed (r : FixResult) : Standing :=
  if r.showsError then .failed else if r.fixed then .fixed else .skipped

/-- The line that begins the changes of a file. -/
def heading (r : FixResult) : String := s!"📄 {String.ofList r.file}"

end FixResult

/-- The line begins with the mark. -/
def beginsWith (mark line : String) : Bool := mark.toList.isPrefixOf line.toList

namespace Batch

variable (b : Batch)

/-- How many files are counted as standing so. -/
def count : Standing → Nat
  | .failed => b.failed
  | .fixed => b.fixed
  | .skipped => b.skipped

/-- How many lines of the report on the fix pass list a file as one that stands so. -/
def listedAs (k : Standing) : Nat := b.statusLines.countP (beginsWith k.mark)

/-- The lines among the printed changes that name a file. -/
def printedHeadings (dryRun : Bool) : List String :=
  (b.changeLines dryRun).filter (beginsWith "📄 ")

/-- The counters, the report file, the results themselves and the printed changes say the same. -/
structure ViewsAgree (dryRun : Bool) : Prop where
  listed : ∀ k, b.listedAs k = b.count k
  skipped : (b.details.filter (·.skipped)).length = b.count .skipped
  printed : b.printedHeadings dryRun =
    (b.details.filter fun r => decide (r.counted = .fixed)).map FixResult.heading

end Batch

/-! ### Marked lines -/

theorem beginsWith_mark (k k' : Standing) (rest : String) :
    beginsWith k.mark (k'.mark ++ rest) = decide (k' = k) := by
  rw [beginsWith, String.toList_append]
  cases k <;> cases k' <;> rfl

/-- The line of a result begins with the mark of its standing. -/
theorem exists_statusLine_eq (r : FixResult) : ∃ rest, r.statusLine = r.listed.mark ++ rest := by
  cases he : r.error.filter (· != "") with
  | some e =>
    have hlisted : r.listed = .failed := by rw [FixResult.listed, FixResult.showsError, he]; rfl
    refine ⟨String.ofList r.file ++ (": " ++ e), ?_⟩
    rw [FixResult.statusLine, he, hlisted]
    simp only [toString, String.append_assoc]
    rfl
  | none =>
    have hlisted : r.listed = if r.fixed then .fixed else .skipped := by
      rw [FixResult.listed, FixResult.showsError, he]
      rfl
    refine ⟨String.ofList r.file ++ (": " ++ r.message), ?_⟩
    rw [FixResult.statusLine, he, hlisted]
    cases r.fixed with
    | true =>
      simp only [toString, String.append_assoc]
      rfl
    | false =>
      simp only [toString, String.append_assoc]
      rfl

theorem beginsWith_statusLine (k : Standing) (r : FixResult) :
    beginsWith k.mark r.statusLine = decide (r.listed = k) := by
  obtain ⟨rest, hline⟩ := exists_statusLine_eq r
  rw [hline, beginsWith_mark]

/-- The summary in front of the lines, and the empty line behind them, list no file. -/
theorem listedAs_eq (b : Batch) (k : Standing) :
    b.listedAs k = b.details.countP fun r => decide (r.listed = k) := by
  have hsummary : beginsWith k.mark b.summary = false := by
    rw [beginsWith]
    -- The equation of such a long interpolated text is slow to derive.
    delta Batch.summary
    simp only [toString, String.append_assoc, String.toList_append]
    cases k <;> rfl
  have hempty : beginsWith k.mark "" = false := by cases k <;> rfl
  rw [Batch.listedAs, Batch.statusLines, List.countP_append, List.countP_cons, List.countP_map,
    List.countP_singleton, hsummary, hempty]
  simp only [Function.comp_def, beginsWith_statusLine]
  rfl

/-! ### Headings -/

/-- A line that begins with another character names no file. -/
theorem beginsWith_heading_of_head {c : Char} {line : String} (hc : c ≠ '📄')
    (h : line.toList.head? = some c) : beginsWith "📄 " line = false := by
  obtain ⟨rest, hrest⟩ := List.head?_eq_some_iff.1 h
  have hmark : "📄 ".toList = ['📄', ' '] := rfl
  rw [beginsWith, hrest, hmark, List.isPrefixOf_cons_cons, beq_eq_false_iff_ne.2 hc.symm,
    Bool.false_and]

theorem filter_heading_eq_nil {lines : List String}
    (h : ∀ line ∈ lines, beginsWith "📄 " line = false) : lines.filter (beginsWith "📄 ") = [] := by
  rw [List.filter_eq_nil_iff]
  intro line hline
  rw [h line hline]
  exact Bool.false_ne_true

theorem head?_rule (c : Char) : (rule c).toList.head? = some c := by
  rw [rule, String.toList_ofList, List.replicate_succ, List.head?_cons]

/-- Of the lines about the changes of a file only the first one is a heading. -/
theorem filter_changeLines (r : FixResult) :
    r.changeLines.filter (beginsWith "📄 ") = [r.heading] := by
  have hheading : beginsWith "📄 " r.heading = true := by
    rw [beginsWith, FixResult.heading]
    simp only [toString, String.toList_append]
    rfl
  have hactions : (r.actions.map (s!"   • {·}")).filter (beginsWith "📄 ") = [] := by
    apply filter_heading_eq_nil
    intro line hline
    obtain ⟨a, -, rfl⟩ := List.mem_map.1 hline
    exact beginsWith_heading_of_head (c := ' ') (by decide) (by simp [toString])
  have hdiff : ∀ ds : List Text, (ds.flatMap fun d =>
      (Text.lines (Text.dropEndWhile (· == '\n') d)).map fun l => s!"   {String.ofList l}").filter
        (beginsWith "📄 ") = [] := by
    intro ds
    apply filter_heading_eq_nil
    intro line hline
    obtain ⟨d, -, hline⟩ := List.mem_flatMap.1 hline
    obtain ⟨l, -, rfl⟩ := List.mem_map.1 hline
    exact beginsWith_heading_of_head (c := ' ') (by decide) (by simp [toString])
  rw [FixResult.changeLines, List.filter_append, List.filter_append, hactions, List.append_nil,
    hdiff, List.append_nil, List.filter_cons_of_neg (by decide)]
  exact List.filter_cons_of_pos hheading

theorem filter_flatMap_changeLines (rs : List FixResult) :
    (rs.flatMap FixResult.changeLines).filter (beginsWith "📄 ") = rs.map FixResult.heading := by
  rw [List.filter_flatMap]
  simp only [filter_changeLines]
  exact (List.map_eq_flatMap).symm

/-- The headings among the printed changes are those of the results that are fixes. -/
theorem printedHeadings_eq (b : Batch) (dryRun : Bool) :
    b.printedHeadings dryRun = (b.details.filter (·.fixed)).map FixResult.heading := by
  rw [Batch.printedHeadings, Batch.changeLines]
  cases b.details.filter (·.fixed) with
  | nil => rfl
  | cons r rs =>
    have hempty : beginsWith "📄 " "" = false := rfl
    have hrule : ∀ c, c ≠ '📄' → beginsWith "📄 " (rule c) = false := fun c hc =>
      beginsWith_heading_of_head hc (head?_rule c)
    have hmode : ∀ mode : String, beginsWith "📄 " s!"CHANGES ({mode})" = false := fun _ =>
      beginsWith_heading_of_head (c := 'C') (by decide) (by simp [toString])
    have htotal : ∀ verb ∈ ["Would change", "Changed"], ∀ (n : Int) (k : Nat),
        beginsWith "📄 " s!"{verb}: {n} items in {k} files" = false := by
      intro verb hverb n k
      rcases List.mem_pair.1 hverb with rfl | rfl
      · exact beginsWith_heading_of_head (c := 'W') (by decide) (by simp [toString])
      · exact beginsWith_heading_of_head (c := 'C') (by decide) (by simp [toString])
    have hverb : (if dryRun = true then "Would change" else "Changed") ∈
        ["Would change", "Changed"] := by
      cases dryRun <;> decide
    have hfailed : (if 0 < b.failed then [s!"Failed: {b.failed}"] else []).filter
        (beginsWith "📄 ") = [] := by
      apply filter_heading_eq_nil
      intro line hline
      split at hline
      · rw [List.mem_singleton.1 hline]
        exact beginsWith_heading_of_head (c := 'F') (by decide) (by simp [toString])
      · exact absurd hline List.not_mem_nil
    simp only [List.filter_append, filter_flatMap_changeLines, hfailed, List.filter_cons, hempty,
      hrule '=' (by decide), hrule '-' (by decide), hmode, htotal _ hverb, Bool.false_eq_true,
      if_false, List.filter_nil, List.nil_append, List.append_nil]

/-! ### Counting -/

/-- Two tests of which one implies the other hold equally often only if they agree. -/
theorem countP_eq_iff_of_imp (h : ∀ a ∈ l, p a = true → q a = true) :
    l.countP p = l.countP q ↔ ∀ a ∈ l, q a = true → p a = true := by
  induction l with
  | nil => simp
  | cons a l ih =>
    have hrest : ∀ b ∈ l, p b = true → q b = true := fun b hb => h b (List.mem_cons_of_mem a hb)
    have hle := List.countP_mono_left hrest
    have ha := h a List.mem_cons_self
    rw [List.forall_mem_cons, ← ih hrest, List.countP_cons, List.countP_cons]
    cases hp : p a with
    | true =>
      rw [ha hp]
      simp
    | false =>
      cases hq : q a with
      | true =>
        simp
        omega
      | false => simp

theorem details_foldl_add (total : Int) (before results : List FixResult) :
    results.foldl Batch.add ⟨total, before⟩ = ⟨total, before ++ results⟩ := by
  induction results generalizing before with
  | nil => rw [List.foldl_nil, List.append_nil]
  | cons r results ih =>
    rw [List.foldl_cons, Batch.add, ih, List.append_assoc]
    rfl

/-! ### Agreement -/

namespace FixResult

theorem counted_eq_failed_iff : r.counted = .failed ↔ r.failed = true := by
  cases hfailed : r.failed <;> cases hfixed : r.fixed <;> simp [counted, hfailed, hfixed]

theorem counted_eq_fixed_iff : r.counted = .fixed ↔ r.failed = false ∧ r.fixed = true := by
  cases hfailed : r.failed <;> cases hfixed : r.fixed <;> simp [counted, hfailed, hfixed]

theorem counted_eq_skipped_iff : r.counted = .skipped ↔ r.skipped = true := by
  cases hfailed : r.failed <;> cases hfixed : r.fixed <;> simp [counted, skipped, hfailed, hfixed]

theorem listed_eq_failed_iff : r.listed = .failed ↔ r.showsError = true := by
  cases hshows : r.showsError <;> cases hfixed : r.fixed <;> simp [listed, hshows, hfixed]

theorem failed_of_showsError (h : r.showsError = true) : r.failed = true := by
  rw [showsError, Option.isSome_filter] at h
  exact Option.isSome_of_any h

/-- An error shows unless it says nothing. -/
theorem showsError_eq_failed_iff : r.showsError = r.failed ↔ r.error ≠ some "" := by
  rw [showsError, failed]
  cases r.error with
  | none => simp
  | some e => by_cases he : e = "" <;> simp [he]

theorem listed_eq_counted (h : r.error ≠ some "") : r.listed = r.counted := by
  rw [listed, counted, showsError_eq_failed_iff.2 h]

end FixResult

theorem Batch.count_eq (b : Batch) (k : Standing) :
    b.count k = b.details.countP fun r => decide (r.counted = k) := by
  cases k with
  | failed =>
    apply List.countP_congr
    intro r _
    rw [decide_eq_true_iff, FixResult.counted_eq_failed_iff]
  | fixed =>
    apply List.countP_congr
    intro r _
    rw [decide_eq_true_iff, FixResult.counted_eq_fixed_iff, Bool.and_eq_true, Bool.not_eq_true']
  | skipped =>
    apply List.countP_congr
    intro r _
    rw [decide_eq_true_iff, FixResult.counted_eq_skipped_iff]

/-- The report file has a line FAILED for each failure exactly if all errors say something. -/
theorem Batch.listedAs_failed_eq_iff (b : Batch) :
    b.listedAs .failed = b.count .failed ↔ ∀ r ∈ b.details, r.error ≠ some "" := by
  have himp : ∀ r ∈ b.details, decide (r.listed = .failed) = true →
      decide (r.counted = .failed) = true := by
    intro r _
    rw [decide_eq_true_iff, decide_eq_true_iff, FixResult.listed_eq_failed_iff,
      FixResult.counted_eq_failed_iff]
    exact FixResult.failed_of_showsError
  rw [listedAs_eq, Batch.count_eq, countP_eq_iff_of_imp himp]
  apply forall₂_congr
  intro r _
  rw [decide_eq_true_iff, decide_eq_true_iff, FixResult.listed_eq_failed_iff,
    FixResult.counted_eq_failed_iff, ← FixResult.showsError_eq_failed_iff]
  constructor
  · intro hshows
    exact Bool.eq_iff_iff.2 ⟨FixResult.failed_of_showsError, hshows⟩
  · intro heq hfailed
    rw [heq, hfailed]

/-- The changes that are printed are those of the files that count as fixed exactly if no fix has an
    error. -/
theorem Batch.printedHeadings_eq_iff (b : Batch) (dryRun : Bool) :
    b.printedHeadings dryRun =
        (b.details.filter fun r => decide (r.counted = .fixed)).map FixResult.heading ↔
      ∀ r ∈ b.details, r.fixed = true → r.error = none := by
  have hcounted : ∀ r : FixResult,
      decide (r.counted = .fixed) = true ↔ r.error = none ∧ r.fixed = true := by
    intro r
    rw [decide_eq_true_iff, FixResult.counted_eq_fixed_iff, FixResult.failed,
      Option.isSome_eq_false_iff, Option.isNone_iff_eq_none]
  rw [printedHeadings_eq]
  constructor
  · intro h r hr hfixed
    have hlengths := congrArg List.length h
    rw [List.length_map, List.length_map, ← List.countP_eq_length_filter,
      ← List.countP_eq_length_filter, eq_comm,
      countP_eq_iff_of_imp fun r _ hr => ((hcounted r).1 hr).2] at hlengths
    exact ((hcounted r).1 (hlengths r hr hfixed)).1
  · intro h
    apply congrArg (List.map FixResult.heading)
    apply List.filter_congr
    intro r hr
    rw [Bool.eq_iff_iff, hcounted]
    exact ⟨fun hfixed => ⟨h r hr hfixed, hfixed⟩, And.right⟩

/-- **When all views of a batch agree.**  They do exactly if no result has an error that says
    nothing, or is a fix with an error. -/
theorem views_agree_iff (total : Int) (results : List FixResult) (dryRun : Bool) :
    (results.foldl Batch.add ⟨total, []⟩).ViewsAgree dryRun ↔
      ∀ r ∈ results, r.error ≠ some "" ∧ (r.fixed = true → r.error = none) := by
  rw [details_foldl_add, List.nil_append]
  constructor
  · intro h r hr
    exact ⟨(Batch.listedAs_failed_eq_iff _).1 (h.listed .failed) r hr,
      (Batch.printedHeadings_eq_iff _ dryRun).1 h.printed r hr⟩
  · intro h
    refine ⟨?_, ?_, ?_⟩
    · intro k
      rw [listedAs_eq, Batch.count_eq]
      apply List.countP_congr
      intro r hr
      rw [FixResult.listed_eq_counted (h r hr).1]
    · rw [← List.countP_eq_length_filter]
      rfl
    · exact (Batch.printedHeadings_eq_iff _ dryRun).2 fun r hr => (h r hr).2

/-- A failure without words is counted, but the report lists it among the skipped files. -/
theorem views_disagree_on_silent_error :
    let b : Batch := Batch.add ⟨1, []⟩ { file := "a.ts".toList, error := some "", message := "m" }
    b.count .failed = 1 ∧ b.listedAs .failed = 0 ∧
      b.statusLines = [b.summary, "  SKIPPED a.ts: m", ""] := by
  decide +kernel

end ImportRepair
