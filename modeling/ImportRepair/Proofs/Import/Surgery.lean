import ImportRepair.Import.Removal
import ImportRepair.Proofs.Import.Characters

/-!
# Taking bindings out of a line

A statement from which bindings are taken is written again, or its line is cut
open at the braces and keeps the text of the items that stay.  In both cases
the new line is read as the same statement with the bindings that were kept, in
their order.
-/

namespace ImportRepair

open Text

variable {s : Statement} {before c after body rest w : Text} {o : Origin} {names : List Text}
variable {bs : List Binding} {n : Int} {typeOnly : Bool}

/-! ### The braces of a line -/

theorem firstBraces?_append (hw : AllIn isNoBrace w) (hbody : AllIn isNoBrace body) :
    firstBraces? (w ++ '\x7b' :: (body ++ '\x7d' :: rest)) = some (w, body, rest) := by
  have hread : braces? ('\x7b' :: (body ++ '\x7d' :: rest)) = some (body, rest) :=
    braces?_eq_some_iff.2 ⟨hbody, rfl⟩
  induction w with
  | nil => simp only [List.nil_append, firstBraces?, hread]
  | cons d w ih =>
    obtain ⟨hd, hw⟩ := allIn_cons.1 hw
    have hnone : braces? (d :: (w ++ '\x7b' :: (body ++ '\x7d' :: rest))) = none := by
      have hne : d ≠ '\x7b' := by
        rintro rfl
        exact absurd hd (by decide)
      simp [braces?, hne]
    simp only [List.cons_append, firstBraces?, hnone, ih hw, Option.map_some]

theorem firstBraces?_eq_some {t : Text} (h : firstBraces? t = some (before, body, rest)) :
    t = before ++ '\x7b' :: (body ++ '\x7d' :: rest) := by
  induction t generalizing before with
  | nil => cases h
  | cons c t ih =>
    simp only [firstBraces?] at h
    split at h
    · next hbraces =>
      cases h
      exact (braces?_eq_some_iff.1 hbraces).2
    · obtain ⟨⟨before', body', rest'⟩, hrest, heq⟩ := Option.map_eq_some_iff.1 h
      cases heq
      rw [ih hrest]
      rfl

theorem Opening.no_brace {indent : Text} {form : Form} (h : Opening indent form before)
    (hindent : AllIn isBlank indent) : AllIn isNoBrace before :=
  (h.chars hindent).mono fun _ => isNoBrace_of_isStatementChar

/-! ### Items that stay -/

/-- The items of a text whose bindings are kept, with these bindings. -/
def keptItems (items : List Text) (bs : List Binding) (names : List Text) : List (Text × Binding) :=
  (items.zip bs).filter fun p => !names.contains p.2.localName

variable {items : List Text}

theorem keptItems_snd {R : Text → Binding → Prop} (h : List.Forall₂ R items bs) :
    (keptItems items bs names).map (·.2) = bs.filter fun b => !names.contains b.localName := by
  induction h with
  | nil => rfl
  | @cons x b items bs hxb hrest ih =>
    unfold keptItems at ih ⊢
    rw [List.zip_cons_cons, List.filter_cons, List.filter_cons]
    split
    · rw [List.map_cons, ih]
    · exact ih

theorem forall₂_keptItems {R : Text → Binding → Prop} (h : List.Forall₂ R items bs) :
    List.Forall₂ R ((keptItems items bs names).map (·.1))
      ((keptItems items bs names).map (·.2)) := by
  induction h with
  | nil => simp [keptItems]
  | @cons x b items bs hxb hrest ih =>
    unfold keptItems at ih ⊢
    rw [List.zip_cons_cons, List.filter_cons]
    split
    · exact .cons hxb ih
    · exact ih

theorem mapM_keptItems {f : Text → Option Binding} (h : items.mapM f = some bs) :
    ((keptItems items bs names).map (·.1)).mapM f =
      some (bs.filter fun b => !names.contains b.localName) := by
  have hall := mapM_eq_some_iff.1 h
  rw [mapM_eq_some_iff, ← keptItems_snd hall]
  exact forall₂_keptItems hall

theorem mem_items_of_mem_keptItems {x : Text} (h : x ∈ (keptItems items bs names).map (·.1)) :
    x ∈ items := by
  obtain ⟨⟨y, b⟩, hp, rfl⟩ := List.mem_map.1 h
  exact (List.of_mem_zip (List.mem_of_mem_filter hp)).1

theorem isItemText_of_mem_items {x : Text} (hbody : AllIn isNoBrace body) (hline : '\n' ∉ body)
    (hx : x ∈ Text.items body) (hchars : AllIn isStatementChar x) : IsItemText x := by
  refine ⟨isTrimmed_of_mem_items hx, fun d hd => ?_⟩
  have hnoBrace := allIn_of_mem_items hbody hx d hd
  have hcomma : d ≠ ',' := fun h => not_mem_comma_of_mem_items hx (h ▸ hd)
  have hnewline : d ≠ '\n' := fun h => hline (h ▸ ((mem_items_cases body).2 x hx d hd).1)
  simp [isItemChar, isSpecifierChar_of_isStatementChar (hchars d hd), hnoBrace, hcomma, hnewline]

/-! ### Cutting a line open -/

/-- The items of a clause that stay make a clause with their bindings. -/
theorem reads_keptItems_es (names : List Text) {head : Text} {defaults : List Binding}
    (hhead : ClauseHead typeOnly head defaults) (hbody : AllIn isNoBrace body)
    (hitems : (Text.items body).mapM (namedItem? typeOnly) = some bs)
    (hc : IsClauseText typeOnly (head ++ '\x7b' :: (body ++ ['\x7d']))) :
    (Form.es typeOnly).Reads (head ++ braced ((keptItems (Text.items body) bs names).map (·.1)))
      (defaults ++ bs.filter fun b => !names.contains b.localName) := by
  have hline : '\n' ∉ head ∧ '\n' ∉ body := by
    have hnot := hc.line
    simp only [List.mem_append, List.mem_cons, not_or] at hnot
    exact ⟨hnot.1, hnot.2.2.1⟩
  have hchars := (isItem_of_mapM hitems).2
  have hkept : ∀ x ∈ (keptItems (Text.items body) bs names).map (·.1), IsItemText x := by
    intro x hx
    have hmem := mem_items_of_mem_keptItems hx
    exact isItemText_of_mem_items hbody hline.2 hmem (hchars x hmem)
  have hgroup := isGroupText_braced hkept (mapM_keptItems hitems)
  refine ⟨hhead.clause?_group hgroup, hhead.isClauseText hline.1 hgroup fun htype => ?_⟩
  exact hhead.afterWord?_exchange (stops_of_clauseGroup? hgroup.read).2 (hc.word htype).2

/-- The items of a target that stay make a target with their bindings. -/
theorem reads_keptItems_commonJs (k : Keyword) (names : List Text) (hbody : AllIn isNoBrace body)
    (hline : '\n' ∉ body) (hitems : (Text.items body).mapM destructuredItem? = some bs) :
    (Form.commonJs k).Reads (braced ((keptItems (Text.items body) bs names).map (·.1)))
      (bs.filter fun b => !names.contains b.localName) := by
  refine ⟨stops_cons.2 (by decide), by simp [braced], fun r _ => target?_braced (fun x hx => ?_)
    (mapM_keptItems hitems)⟩
  have hmem := mem_items_of_mem_keptItems hx
  obtain ⟨b, -, hb⟩ := (mem_of_mapM_eq_some hitems).1 x hmem
  exact isItemText_of_mem_items hbody hline hmem (destructuredItem?_eq_some hb).2.2

namespace Statement

/-- The bindings that stay when names are removed. -/
def kept (s : Statement) (names : List Text) : List Binding :=
  s.bindings.filter fun b => !names.contains b.localName

theorem mem_kept_iff {b : Binding} : b ∈ s.kept names ↔ b ∈ s.bindings ∧ b.localName ∉ names := by
  simp [kept]

theorem kept_eq_filter {P : Binding → Prop} [DecidablePred P]
    (h : ∀ b ∈ s.bindings, b.localName ∈ names ↔ P b) :
    s.kept names = s.bindings.filter fun b => ¬ P b := by
  refine List.filter_congr fun b hb => ?_
  by_cases hp : P b
  · simp [hp, (h b hb).2 hp]
  · simp [hp, mt (h b hb).1 hp]

/-- The text that is left when the first braces of the line stand between `w` and `after`. -/
theorem withoutItems_eq (hw : AllIn isNoBrace w) (hbody : AllIn isNoBrace body)
    (hraw : s.raw = w ++ '\x7b' :: (body ++ '\x7d' :: after)) :
    s.withoutItems names =
      w ++ (braced ((keptItems (Text.items body) s.named names).map (·.1)) ++ after) := by
  simp only [withoutItems, hraw, firstBraces?_append hw hbody, keptItems, List.append_assoc]

/-- A line that is cut open at its braces keeps to its characters. -/
theorem allIn_withoutItems {p : Char → Bool} (hp : HoldsLayout p) (hraw : AllIn p s.raw) :
    AllIn p (s.withoutItems names) := by
  unfold withoutItems
  split
  · exact hraw
  · next before body rest hbraces =>
    rw [firstBraces?_eq_some hbraces] at hraw
    simp only [allIn_append, allIn_cons] at hraw
    obtain ⟨hbefore, -, hbody, -, hrest⟩ := hraw
    refine allIn_append.2 ⟨allIn_append.2 ⟨hbefore, allIn_braced hp fun x hx => ?_⟩, hrest⟩
    exact allIn_of_mem_items hbody (mem_items_of_mem_keptItems hx)

theorem StandsIn.withoutItems_es (h : s.StandsIn before c after o) (hform : s.form = .es typeOnly)
    (hnamed : ∃ b ∈ s.bindings, b.kind = .named)
    (hlost : ∀ b ∈ s.bindings, names.contains b.localName = true → b.kind = .named) :
    ∃ c', s.withoutItems names = before ++ (c' ++ after) ∧
      (Form.es typeOnly).Reads c' (s.kept names) := by
  have hparts := h.body
  rw [hform] at hparts
  rcases hparts with ⟨hclause, hc⟩ | ⟨-, -, hbs⟩
  · obtain ⟨head, defaults, body, items, hhead, rfl, hbody, hitems, hbs⟩ :=
      clause?_cases_of_named hclause hnamed
    have hdefault : ∀ d ∈ defaults, d.kind = .defaultName :=
      fun d hd => (hhead.isDefault.1 d hd).kind_eq
    have hitem := (isItem_of_mapM hitems).1
    have hnamedEq : s.named = items := by
      rw [Statement.named, hbs, List.filter_append]
      rw [List.filter_eq_nil_iff.2 fun d hd => by simp [hdefault d hd], List.nil_append]
      exact List.filter_eq_self.2 fun d hd => by simp [(hitem d hd).1.2.1]
    have hstays : ∀ d ∈ defaults, names.contains d.localName = false := by
      intro d hd
      rw [Bool.eq_false_iff]
      intro hcontains
      have hkind := hlost d (by simp [hbs, hd]) hcontains
      rw [hdefault d hd] at hkind
      cases hkind
    have hkept : s.kept names = defaults ++ items.filter fun b => !names.contains b.localName := by
      rw [kept, hbs, List.filter_append]
      rw [List.filter_eq_self.2 fun d hd => by rw [hstays d hd]; rfl]
    have hbefore := h.opening.no_brace h.indent
    have hnoBrace := hhead.chars.mono fun _ => isNoBrace_of_isStatementChar
    have hraw : s.raw = (before ++ head) ++ '\x7b' :: (body ++ '\x7d' :: after) := by
      rw [h.raw]
      simp
    have hreads := reads_keptItems_es names hhead hbody hitems hc
    rw [hkept, withoutItems_eq (allIn_append.2 ⟨hbefore, hnoBrace⟩) hbody hraw, hnamedEq]
    exact ⟨_, by simp only [List.append_assoc], hreads⟩
  · obtain ⟨b, hb, hkind⟩ := hnamed
    rw [hbs, List.mem_singleton] at hb
    rw [hb] at hkind
    cases hkind

theorem StandsIn.withoutItems_commonJs {k : Keyword} (h : s.StandsIn before c after o)
    (hform : s.form = .commonJs k) (hline : '\n' ∉ s.raw)
    (hnamed : ∃ b ∈ s.bindings, b.kind = .named) :
    ∃ c', s.withoutItems names = before ++ (c' ++ after) ∧
      (Form.commonJs k).Reads c' (s.kept names) := by
  obtain ⟨b, hb, hkind⟩ := hnamed
  have hparts := h.body
  have hend := h.ending
  rw [hform] at hparts hend
  rcases hparts with ⟨-, -, htarget⟩ | ⟨hcontra, -⟩
  · rcases target?_cases (htarget after (stops_of_requireBehind? hend)) with
      ⟨m, -, -, -, hbs⟩ | ⟨body, hbody, hc, hitems⟩
    · rw [hbs, List.mem_singleton] at hb
      rw [hb] at hkind
      cases hkind
    · have hitem := mem_of_mapM_eq_some hitems
      have hnamedEq : s.named = s.bindings := by
        refine List.filter_eq_self.2 fun d hd => ?_
        obtain ⟨x, -, hx⟩ := hitem.2 d hd
        simp [(destructuredItem?_eq_some hx).1.2.1]
      have hraw : s.raw = before ++ '\x7b' :: (body ++ '\x7d' :: after) := by rw [h.raw, hc]
      have hbodyLine : '\n' ∉ body := fun hmem => hline (by rw [hraw]; simp [hmem])
      rw [withoutItems_eq (h.opening.no_brace h.indent) hbody hraw, hnamedEq]
      exact ⟨_, rfl, reads_keptItems_commonJs k names hbody hbodyLine hitems⟩
  · cases hcontra

/-- What is read when items are cut out of the braces of a line that binds named exports. -/
theorem StandsIn.withoutItems (h : s.StandsIn before c after o) (hline : '\n' ∉ s.raw)
    (hnamed : ∃ b ∈ s.bindings, b.kind = .named)
    (hlost : ∀ b ∈ s.bindings, names.contains b.localName = true → b.kind = .named) :
    ∃ c', s.withoutItems names = before ++ (c' ++ after) ∧
      s.form.Reads c' (s.kept names) := by
  cases hform : s.form with
  | es typeOnly => exact h.withoutItems_es hform hnamed hlost
  | commonJs k => exact h.withoutItems_commonJs hform hline hnamed

/-! ### Removal from a statement -/

/-- In the layout of the statement these bindings are a default name `type` that is not read. -/
def IsHidden (s : Statement) (bs : List Binding) : Prop :=
  s.form = .es false ∧ bs = [defaultOf false "type".toList] ∧ s.hidesType = true

instance (s : Statement) (bs : List Binding) : Decidable (s.IsHidden bs) :=
  inferInstanceAs (Decidable (_ ∧ _ ∧ _))

/-- What may become of a statement when names are removed. -/
inductive Loses (s : Statement) (names : List Text) : StatementRemoval → Prop
  | unchanged (h : ∀ n ∈ s.boundNames, n ∉ names) : Loses s names .unchanged
  | deleted {removed : List Text} (hne : s.bindings ≠ []) (h : ∀ n ∈ s.boundNames, n ∈ names) :
      Loses s names (.deleted removed)
  | changed {line : Text} {removed : List Text} (hlost : ∃ n ∈ s.boundNames, n ∈ names)
      (hkept : ∃ n ∈ s.boundNames, n ∉ names) (hbare : IsBare line) (hline : '\n' ∉ line)
      (hread : ∀ m, ofBare? line m = if s.IsHidden (s.kept names) then none else
        some { s with bindings := s.kept names, line := m, raw := line }) :
      Loses s names (.changed line removed)

theorem StandsIn.readTrailing_eq (h : s.StandsIn before c after o) :
    s.readTrailing = s.trailing := by
  obtain ⟨-, -, hplain, -⟩ := Form.ending?_pieces h.ending
  have hsemicolon : s.semicolon = o.closing.semicolon := by rw [h.eq_ofParts]; rfl
  have htrailing : s.trailing = o.closing.trailing := by rw [h.eq_ofParts]; rfl
  unfold readTrailing
  split
  · rfl
  · next hfalse =>
    rw [htrailing]
    refine dropWhile_of_stops (hplain.head ?_)
    rw [← hsemicolon]
    exact Bool.eq_false_iff.2 hfalse

/-- The line that is written for bindings of the statement is read with them, unless it hides a
    default name `type`. -/
theorem StandsIn.ofBare?_render (h : s.StandsIn before c after o) (hadmits : s.form.Admits bs)
    (hne : bs ≠ []) : ofBare? (s.render bs) n = if s.IsHidden bs then none else
      some { s with bindings := bs, line := n, raw := s.render bs } := by
  have hwritable := h.isWritable
  have hrewritten : s.rewritten s.form bs bs n =
      { s with bindings := bs, line := n, raw := s.render bs } := by
    unfold rewritten
    rw [h.readTrailing_eq]
  by_cases htype : s.form = .es false ∧ bs = [defaultOf false "type".toList]
  · obtain ⟨hform, rfl⟩ := htype
    rw [ofBare?_render_type hwritable hform, hrewritten]
    simp only [IsHidden, hform, true_and]
  · rw [Statement.ofBare?_render hwritable hadmits (fun hnil => absurd hnil hne) fun hform hbs =>
      htype ⟨hform, hbs⟩, hrewritten, if_neg fun hhidden => htype ⟨hhidden.1, hhidden.2.1⟩]

/-- **Reading inverts writing.**  A recognised line lends its layout to any bindings that its form
    can hold: what is written for them is read, on any line, with that layout and these bindings. -/
theorem ofLine?_render {l : Text} {k : Int} (h : ofLine? l k = some s) (hadmits : s.form.Admits bs)
    (hne : bs ≠ []) (htype : ∀ b ∈ bs, b.kind = .defaultName → b.localName ≠ "type".toList)
    (n : Int) :
    ofLine? (s.render bs) n = some { s with bindings := bs, line := n, raw := s.render bs } := by
  obtain ⟨-, -, before, c, after, o, hparts⟩ := ofBare?_cases (ofLine?_eq ▸ h)
  have hbare : bareLine (s.render bs) n = s.render bs :=
    bareLine_of_isBare (isBare_render hparts.isWritable bs)
  have hshown : ¬ s.IsHidden bs := by
    rintro ⟨-, rfl, -⟩
    exact htype _ (List.mem_singleton_self _) rfl rfl
  rw [ofLine?_eq, hbare, hparts.ofBare?_render hadmits hne, if_neg hshown]

/-- The words of the syntax as names, in a layout whose comment looks like another origin. -/
theorem ofLine?_render_words :
    let s : Statement :=
      { specifier := "m".toList, bindings := [defaultOf false "X".toList], line := 4
        raw := "  import X from \"m\"; // from 'x'".toList, form := .es false, quote := .double
        semicolon := true, indent := "  ".toList, trailing := " // from 'x'".toList }
    let bs : List Binding :=
      [defaultOf false "from".toList,
        { localName := "as".toList, imported := some "type".toList },
        { localName := "as".toList, imported := some "as".toList, typeOnly := true },
        { localName := "type".toList, imported := some "type".toList }]
    s.render bs = "  import from, { type as as, type as, type } from \"m\"; // from 'x'".toList ∧
    ofLine? s.raw 4 = some s ∧ s.form.Admits bs ∧ bs ≠ [] ∧
    (∀ b ∈ bs, b.kind = .defaultName → b.localName ≠ "type".toList) ∧
    ofLine? (s.render bs) 9 = some { s with bindings := bs, line := 9, raw := s.render bs } := by
  intro s bs
  have h : ofLine? s.raw 4 = some s := by decide +kernel
  have hadmits : s.form.Admits bs := by
    refine ⟨bs.take 1, [], bs.drop 1, rfl, ?_⟩
    have hdefault : ∀ b ∈ bs.take 1, b.IsDefault false := by
      intro b hb
      rw [List.mem_singleton.1 hb]
      exact ⟨by decide, rfl⟩
    have hitem : ∀ b ∈ bs.drop 1, b.IsItem := by
      intro b hb
      have hcases : IsName b.localName ∧ b.kind = .named ∧ b.imported.isSome ∧
          ∀ x ∈ b.imported, IsName x := by
        revert b
        decide
      obtain ⟨hname, hkind, hsome, himported⟩ := hcases
      obtain ⟨x, hx⟩ := Option.isSome_iff_exists.1 hsome
      exact ⟨hname, hkind, x, himported x hx, hx⟩
    exact ⟨hdefault, by decide, by simp, by decide, fun b hb => ⟨hitem b hb, by simp⟩, by simp⟩
  have htype : ∀ b ∈ bs, b.kind = .defaultName → b.localName ≠ "type".toList := by decide
  exact ⟨by decide +kernel, h, hadmits, by simp [bs], htype,
    ofLine?_render h hadmits (by simp [bs]) htype 9⟩

/-- The line from which items are cut is read with the bindings that stay. -/
theorem StandsIn.ofBare?_withoutItems (h : s.StandsIn before c after o) (hbare : IsBare s.raw)
    (hline : '\n' ∉ s.raw) (hnamed : ∃ b ∈ s.kept names, b.kind = .named)
    (hlost : ∀ b ∈ s.bindings, names.contains b.localName = true → b.kind = .named) :
    IsBare (s.withoutItems names) ∧ '\n' ∉ s.withoutItems names ∧ ∀ m,
      ofBare? (s.withoutItems names) m =
        some { s with bindings := s.kept names, line := m, raw := s.withoutItems names } := by
  obtain ⟨b, hb, hkind⟩ := hnamed
  obtain ⟨c', htext, hreads⟩ :=
    h.withoutItems hline ⟨b, List.mem_of_mem_filter hb, hkind⟩ hlost
  have hafter : after ≠ [] := by
    obtain ⟨-, -, -, u, v, w, -, -, -, rfl⟩ := Form.ending?_pieces h.ending
    simp
  have hraw := h.raw
  have hnew : '\n' ∉ s.withoutItems names :=
    allIn_ne_iff.1 (allIn_withoutItems (holdsLayout_ne (by decide)) (allIn_ne_iff.2 hline))
  rw [htext] at hnew ⊢
  refine ⟨⟨?_, fun d hd => hbare.last d ?_⟩, hnew, fun m => ?_⟩
  · rw [hasMark_append h.opening.ne_nil]
    exact h.opening.hasMark h.indent
  · rw [← List.append_assoc, List.getLast?_append_of_ne_nil _ hafter] at hd
    rw [hraw, ← List.append_assoc, List.getLast?_append_of_ne_nil _ hafter]
    exact hd
  · rw [ofBare?_line h.indent h.opening hreads h.ending]
    have hparts := h.eq_ofParts
    generalize s.kept names = bs'
    rw [hparts]
    rfl

/-- **What becomes of a recognised statement when names are removed.** -/
theorem loses_without (h : s.StandsIn before c after o) (hbare : IsBare s.raw)
    (hline : '\n' ∉ s.raw) (names : List Text) : s.Loses names (s.without names) := by
  have hadmits : s.form.Admits (s.kept names) := h.admits.filter _
  unfold without
  simp only
  split
  · next hlost =>
    rw [List.isEmpty_iff, List.filter_eq_nil_iff] at hlost
    refine .unchanged fun n hn => ?_
    obtain ⟨b, hb, rfl⟩ := List.mem_map.1 hn
    simpa using hlost b hb
  · next hlost =>
    have hlost : ∃ b ∈ s.bindings, b.localName ∈ names := by
      simpa [List.filter_eq_nil_iff] using hlost
    have hlostName : ∃ n ∈ s.boundNames, n ∈ names := by
      obtain ⟨b, hb, hn⟩ := hlost
      exact ⟨b.localName, List.mem_map_of_mem hb, hn⟩
    split
    · next hkept =>
      rw [List.isEmpty_iff, List.filter_eq_nil_iff] at hkept
      obtain ⟨b, hb, -⟩ := hlost
      refine .deleted (List.ne_nil_of_mem hb) fun n hn => ?_
      obtain ⟨b, hb, rfl⟩ := List.mem_map.1 hn
      simpa using hkept b hb
    · next hkept =>
      have hkept : s.kept names ≠ [] := by simpa [kept, List.isEmpty_iff] using hkept
      have hkeptName : ∃ n ∈ s.boundNames, n ∉ names := by
        obtain ⟨b, hb⟩ := List.exists_mem_of_ne_nil _ hkept
        obtain ⟨hb, hn⟩ := mem_kept_iff.1 hb
        exact ⟨b.localName, List.mem_map_of_mem hb, hn⟩
      split
      · next hitems =>
        -- only items go, and the braces keep some
        rw [Bool.and_eq_true, List.all_eq_true, List.any_eq_true] at hitems
        obtain ⟨hall, b, hb, hkind⟩ := hitems
        have hkind : b.kind = .named := by simpa using hkind
        obtain ⟨hbare, hline, hread⟩ := h.ofBare?_withoutItems hbare hline ⟨b, hb, hkind⟩
          fun d hd hn => by simpa using hall d (List.mem_filter.2 ⟨hd, hn⟩)
        refine .changed hlostName hkeptName hbare hline fun m => ?_
        have hshown : ¬ s.IsHidden (s.kept names) := by
          rintro ⟨-, heq, -⟩
          have hb : b ∈ s.kept names := hb
          rw [heq, List.mem_singleton] at hb
          rw [hb] at hkind
          cases hkind
        rw [hread, if_neg hshown]
      · exact .changed hlostName hkeptName (isBare_render h.isWritable _)
          (not_mem_render (h.isOnOneLine hline) hadmits) fun m => h.ofBare?_render hadmits hkept

/-- The names that go from a statement under evidence; no name stands for all names. -/
def removedNames (s : Statement) (names : List (Option Text)) : List Text :=
  if names.contains none then s.boundNames else names.reduceOption

theorem loses_removal {l : Text} (h : ofLine? l n = some s) (hline : '\n' ∉ l)
    (names : List (Option Text)) : s.Loses (s.removedNames names) (s.removal names) := by
  obtain ⟨-, -, before, c, after, o, hparts⟩ := ofBare?_cases (ofLine?_eq ▸ h)
  unfold removal removedNames
  split
  · split
    · next hnil =>
      have hnil : s.bindings = [] := List.isEmpty_iff.1 hnil
      exact .unchanged (by simp [boundNames, hnil])
    · next hne => exact .deleted (by simpa using hne) fun _ hn => hn
  · exact loses_without hparts (ofLine?_isBare h) (isOnOneLine_of_ofLine? h hline).1 _

end Statement

end ImportRepair
