import ImportRepair.Proofs.Import.Removal

/-!
# What a removal keeps of the spelling of a line

A line that loses items only is cut open at its braces: the items that stay and
all that stands behind the clause are left as they were written.  A line that
loses a default name, an alias or its last item is written again.  Then its
items and its end are spelled as the printer spells them, and so they are left
as they were only if they had been written in that way before.
-/

namespace ImportRepair

open Text

variable {t l c c' before before' after after' indent line line' head new : Text}
variable {o o' : Origin} {form : Form} {s : Statement} {b : Binding} {bs bs' : List Binding}
variable {evidence : List Evidence} {names removed : List Text} {n : Int}

/-! ### Items as they are written -/

/-- The items between the braces of a clause, as they are written. -/
def clauseItems (c : Text) : List Text :=
  match firstBraces? c with
  | some (_, body, _) => Text.items body
  | none => []

theorem clauseItems_braces {body : Text} (hhead : AllIn isNoBrace head)
    (hbody : AllIn isNoBrace body) :
    clauseItems (head ++ '\x7b' :: (body ++ ['\x7d'])) = Text.items body := by
  rw [clauseItems, firstBraces?_append hhead hbody]

theorem clauseItems_braced {ts : List Text} (hhead : AllIn isNoBrace head)
    (hts : ∀ t ∈ ts, IsItemText t) : clauseItems (head ++ braced ts) = ts := by
  obtain ⟨hbody, htext⟩ := braces?_eq_some_iff.1 (braces?_braced hts [])
  rw [List.append_nil] at htext
  rw [htext, clauseItems_braces hhead hbody,
    items_intercalate fun t ht => ⟨(hts t ht).isTrimmed, (hts t ht).not_mem_comma⟩]

theorem clauseItems_of_allIn (h : AllIn isNoBrace c) : clauseItems c = [] := by
  have hnone : firstBraces? c = none := by
    induction c with
    | nil => rfl
    | cons d c ih =>
      obtain ⟨hd, hc⟩ := allIn_cons.1 h
      have hne : d ≠ '\x7b' := by
        rintro rfl
        exact absurd hd (by decide)
      have hread : braces? (d :: c) = none := if_neg hne
      rw [firstBraces?, hread]
      simp only [ih hc, Option.map_none]
  rw [clauseItems, hnone]

/-- The named bindings of a clause, each with its item. -/
def spelledItems (c : Text) (bs : List Binding) : List (Text × Binding) :=
  (clauseItems c).zip (bs.filter (·.kind = .named))

theorem map_snd_eq_self_iff {f : Binding → Text} {ps : List (Text × Binding)} :
    ((ps.map (·.2)).map fun b => (f b, b)) = ps ↔ ∀ p ∈ ps, p.1 = f p.2 := by
  induction ps with
  | nil => simp
  | cons p ps ih =>
    have hp : (f p.2, p.2) = p ↔ p.1 = f p.2 := by
      rw [Prod.ext_iff, and_iff_left rfl, eq_comm]
    simp only [List.map_cons, List.cons.injEq, hp, ih, List.forall_mem_cons]

/-- A named binding as it is written in a line of this form. -/
def Form.itemText : Form → Binding → Text
  | .es typeOnly, b => b.itemText typeOnly
  | .commonJs _, b => b.destructured

theorem IsName.no_brace (h : IsName c) : AllIn isNoBrace c :=
  h.allIn.mono fun _ => isNoBrace_of_isNamePart

theorem clauseItems_clauseText {typeOnly : Bool} {defaults aliases items : List Binding}
    (h : ClauseBindings typeOnly defaults aliases items) :
    clauseItems (clauseText typeOnly (defaults ++ aliases ++ items)) =
      items.map (·.itemText typeOnly) := by
  rw [clauseText_eq h]
  have hdefaults : ∀ t ∈ defaults.map (·.localName), AllIn isNoBrace t := by
    intro t ht
    obtain ⟨b, hb, rfl⟩ := List.mem_map.1 ht
    exact (h.isDefault b hb).1.no_brace
  have haliases : ∀ t ∈ aliases.map (fun b => "* as ".toList ++ b.localName),
      AllIn isNoBrace t := by
    intro t ht
    obtain ⟨b, hb, rfl⟩ := List.mem_map.1 ht
    exact allIn_append.2 ⟨by simp; decide, (h.isAlias b hb).1.no_brace⟩
  have htexts : ∀ t ∈ items.map (·.itemText typeOnly), IsItemText t := by
    intro t ht
    obtain ⟨b, hb, rfl⟩ := List.mem_map.1 ht
    exact (h.isItem b hb).1.isItemText
  by_cases hnil : items = []
  · rw [hnil]
    refine clauseItems_of_allIn (allIn_intercalate (by decide) (by decide) fun t ht => ?_)
    simp only [List.isEmpty_nil, if_true, List.append_nil, List.mem_append] at ht
    exact ht.elim (hdefaults t) (haliases t)
  · have hnone : aliases = [] := h.apart.resolve_right hnil
    have hsome : items.isEmpty = false := List.isEmpty_eq_false_iff.2 hnil
    rw [hnone, hsome]
    simp only [List.map_nil, List.append_nil, Bool.false_eq_true, if_false]
    rcases eq_nil_or_singleton h.defaults_le with hd | ⟨d, hd⟩
    · have hbraces := clauseItems_braced allIn_nil htexts
      rw [hd]
      simpa using hbraces
    · have hname := hdefaults d.localName (by simp [hd])
      have hhead : AllIn isNoBrace (d.localName ++ [',', ' ']) :=
        allIn_append.2 ⟨hname, by simp; decide⟩
      rw [hd, List.map_singleton, List.singleton_append, List.intercalate_cons_cons]
      simpa using clauseItems_braced hhead htexts

/-- The items of a written line are the texts of its named bindings. -/
theorem Form.spelledItems_bodyText (h : form.Admits bs) :
    spelledItems (form.bodyText bs) bs =
      (bs.filter (·.kind = .named)).map fun b => (form.itemText b, b) := by
  have hitems : clauseItems (form.bodyText bs) =
      (bs.filter (·.kind = .named)).map form.itemText := by
    cases form with
    | es typeOnly =>
      obtain ⟨defaults, aliases, items, rfl, h⟩ := h
      have hnamed : (defaults ++ aliases ++ items).filter (·.kind = .named) = items := by
        rw [List.filter_append, List.filter_append,
          List.filter_eq_nil_iff.2 fun b hb => by simp [(h.isDefault b hb).kind_eq],
          List.filter_eq_nil_iff.2 fun b hb => by simp [(h.isAlias b hb).kind_eq],
          List.filter_eq_self.2 fun b hb => by simp [(h.isItem b hb).1.2.1]]
        rfl
      rw [hnamed]
      exact clauseItems_clauseText h
    | commonJs k =>
      rcases h with ⟨b, hb, rfl⟩ | h
      · have hkind := hb.kind_eq
        rw [Form.bodyText, targetText_whole hkind, clauseItems_of_allIn hb.1.no_brace]
        simp [hkind]
      · have hnamed : bs.filter (·.kind = .named) = bs :=
          List.filter_eq_self.2 fun b hb => by simp [(h b hb).1.2.1]
        have htext : Form.bodyText (.commonJs k) bs = [] ++ braced (bs.map (·.destructured)) :=
          targetText_named fun b hb => (h b hb).1.2.1
        rw [htext, hnamed]
        refine clauseItems_braced allIn_nil fun t ht => ?_
        obtain ⟨b, hb, rfl⟩ := List.mem_map.1 ht
        exact (h b hb).1.isItemText_destructured (h b hb).2
  rw [spelledItems, hitems]
  simpa using List.zip_map' (f := form.itemText) (g := id)

/-! ### The parts of a line -/

/-- The text is the body of a line of this form, with these bindings.  A default name `type` alone
    is a body as well, where nothing behind it is taken for a clause. -/
def Form.Writes (form : Form) (c : Text) (bs : List Binding) : Prop :=
  form.Reads c bs ∨ form = .es false ∧ c = "type".toList ∧ bs = [defaultOf false "type".toList]

theorem Form.writes_bodyText (h : form.Admits bs) (hne : bs ≠ []) :
    form.Writes (form.bodyText bs) bs := by
  by_cases htype : form = .es false ∧ bs = [defaultOf false "type".toList]
  · obtain ⟨rfl, rfl⟩ := htype
    exact Or.inr ⟨rfl, by decide, rfl⟩
  · exact Or.inl (Form.reads_bodyText h (fun hnil => absurd hnil hne)
      fun hform hbs => htype ⟨hform, hbs⟩)

theorem Form.Writes.stops (h : form.Writes c bs) : Stops isBlank (c ++ after) := by
  rcases h with h | ⟨-, rfl, -⟩
  · cases form with
    | es typeOnly => exact stops_append h.2.isTrimmed.head h.2.isTrimmed.ne_nil
    | commonJs k => exact stops_append h.1 h.2.1
  · exact stops_cons.2 (by decide)

/-- A body ends where the shortest clause ends. -/
theorem Form.Writes.shortestClause? {typeOnly : Bool} (h : (Form.es typeOnly).Writes c bs)
    (hend : originBehind? after = some o) : shortestClause? (c ++ after) = some (c, o) := by
  rcases h with ⟨-, h⟩ | ⟨-, rfl, -⟩
  · exact shortestClause?_append h.isTrimmed h.chars h.line hend
  · have hname : IsName "type".toList := by decide
    exact shortestClause?_append hname.isTrimmed
      (hname.allIn.mono fun _ => isSpecifierChar_of_isNamePart) (by decide) hend

/-- A body and an ending are cut in one place only. -/
theorem Form.Writes.unique (h : form.Writes c bs) (hend : form.ending? after = some o)
    (h' : form.Writes c' bs') (hend' : form.ending? after' = some o')
    (heq : c ++ after = c' ++ after') : c = c' ∧ after = after' := by
  cases form with
  | es typeOnly =>
    have hsame := h.shortestClause? hend
    rw [heq, h'.shortestClause? hend'] at hsame
    cases hsame
    exact ⟨rfl, List.append_cancel_left heq⟩
  | commonJs k =>
    have htarget : ∀ {c after bs o}, (Form.commonJs k).Writes c bs →
        (Form.commonJs k).ending? after = some o → target? (c ++ after) = some (some bs, after) :=
      fun h hend => (h.resolve_right fun hcontra => nomatch hcontra.1).2.2 _
        (stops_of_requireBehind? hend)
    have hsame := htarget h hend
    rw [heq, htarget h' hend'] at hsame
    cases hsame
    exact ⟨List.append_cancel_right heq, rfl⟩

/-- An opening ends where its white space ends. -/
theorem Opening.unique {r r' : Text} (h : Opening indent form before)
    (h' : Opening indent form before') (hr : Stops isBlank r) (hr' : Stops isBlank r')
    (heq : before ++ r = before' ++ r') : before = before' ∧ r = r' := by
  cases h with
  | @values gap hne hgap =>
    cases h' with
    | @values gap' hne' hgap' =>
      simp only [List.append_assoc, List.append_cancel_left_eq] at heq
      obtain ⟨rfl, rfl⟩ := run_unique heq hgap hr hgap' hr'
      exact ⟨rfl, rfl⟩
  | @types gap gap₂ hne hgap hne₂ hgap₂ =>
    cases h' with
    | @types gap' gap₂' hne' hgap' hne₂' hgap₂' =>
      have htype : ∀ {u : Text}, Stops isBlank ("type".toList ++ u) := stops_cons.2 (by decide)
      simp only [List.append_assoc, List.append_cancel_left_eq] at heq
      obtain ⟨rfl, hrest⟩ := run_unique heq hgap htype hgap' htype
      obtain ⟨rfl, rfl⟩ := run_unique (List.append_cancel_left hrest) hgap₂ hr hgap₂' hr'
      exact ⟨rfl, rfl⟩
  | @require k gap hne hgap =>
    cases h' with
    | @require _ gap' hne' hgap' =>
      simp only [List.append_assoc, List.append_cancel_left_eq] at heq
      obtain ⟨rfl, rfl⟩ := run_unique heq hgap hr hgap' hr'
      exact ⟨rfl, rfl⟩

/-- The parts of a line: what stands in front of its clause, the clause and what stands behind. -/
structure LineParts (form : Form) (indent : Text) (bs : List Binding)
    (line before c after : Text) : Prop where
  opening : Opening indent form before
  body : form.Writes c bs
  ending : ∃ o, form.ending? after = some o
  eq_append : line = before ++ (c ++ after)

/-- **A line has its parts in one way only.** -/
theorem LineParts.unique (h : LineParts form indent bs line before c after)
    (h' : LineParts form indent bs' line before' c' after') :
    before = before' ∧ c = c' ∧ after = after' := by
  obtain ⟨o, hend⟩ := h.ending
  obtain ⟨o', hend'⟩ := h'.ending
  obtain ⟨hbefore, hrest⟩ := h.opening.unique h'.opening h.body.stops h'.body.stops
    (h.eq_append.symm.trans h'.eq_append)
  exact ⟨hbefore, h.body.unique hend h'.body hend' hrest⟩

/-- A clause that writes a named binding ends in braces, which hold the items of its named
    bindings. -/
theorem Form.Writes.exists_braces (h : form.Writes c bs) (hnamed : ∃ b ∈ bs, b.kind = .named) :
    ∃ head body, AllIn isNoBrace head ∧ AllIn isNoBrace body ∧
      c = head ++ '\x7b' :: (body ++ ['\x7d']) ∧ (∀ x ∈ Text.items body, AllIn isStatementChar x) ∧
      ∃ f : Text → Option Binding,
        (Text.items body).mapM f = some (bs.filter (·.kind = .named)) := by
  rcases h with h | ⟨-, -, rfl⟩
  · cases form with
    | es typeOnly =>
      obtain ⟨head, defaults, body, items, hhead, rfl, hbody, hitems, rfl⟩ :=
        clause?_cases_of_named h.1 hnamed
      obtain ⟨hitem, hchars⟩ := isItem_of_mapM hitems
      refine ⟨head, body, hhead.chars.mono fun _ => isNoBrace_of_isStatementChar, hbody, rfl,
        hchars, namedItem? typeOnly, ?_⟩
      rw [hitems, List.filter_append,
        List.filter_eq_nil_iff.2 fun d hd => by simp [(hhead.isDefault.1 d hd).kind_eq],
        List.filter_eq_self.2 fun d hd => by simp [(hitem d hd).1.2.1], List.nil_append]
    | commonJs k =>
      have htarget := h.2.2 [] stops_nil
      rw [List.append_nil] at htarget
      rcases target?_cases htarget with ⟨m, -, -, -, rfl⟩ | ⟨body, hbody, hc, hitems⟩
      · obtain ⟨b, hb, hkind⟩ := hnamed
        rw [List.mem_singleton.1 hb] at hkind
        cases hkind
      · have hitem := mem_of_mapM_eq_some hitems
        refine ⟨[], body, allIn_nil, hbody, hc, fun x hx => ?_, destructuredItem?, ?_⟩
        · obtain ⟨b, -, hb⟩ := hitem.1 x hx
          exact (destructuredItem?_eq_some hb).2.2
        · rw [hitems, List.filter_eq_self.2 fun d hd => ?_]
          obtain ⟨x, -, hx⟩ := hitem.2 d hd
          simp [(destructuredItem?_eq_some hx).1.2.1]
  · obtain ⟨b, hb, hkind⟩ := hnamed
    rw [List.mem_singleton.1 hb] at hkind
    cases hkind

/-- Every named binding of a clause has its item. -/
theorem Form.Writes.map_snd_spelledItems (h : form.Writes c bs) :
    (spelledItems c bs).map (·.2) = bs.filter (·.kind = .named) := by
  by_cases hnamed : ∃ b ∈ bs, b.kind = .named
  · obtain ⟨head, body, hhead, hbody, rfl, -, f, hf⟩ := h.exists_braces hnamed
    have hall : List.Forall₂ (fun x d => f x = some d) (Text.items body)
        (bs.filter (·.kind = .named)) := mapM_eq_some_iff.1 hf
    rw [spelledItems, clauseItems_braces hhead hbody]
    exact List.map_snd_zip hall.length_eq.ge
  · have hnil : bs.filter (·.kind = .named) = [] :=
      List.filter_eq_nil_iff.2 fun b hb => by simpa using fun hkind => hnamed ⟨b, hb, hkind⟩
    rw [spelledItems, hnil, List.zip_nil_right, List.map_nil]

namespace Statement

theorem StandsIn.lineParts (h : s.StandsIn before c after o) :
    LineParts s.form s.indent s.bindings s.raw before c after :=
  ⟨h.opening, h.body, ⟨o, h.ending⟩, h.raw⟩

/-! ### Lines that keep their spelling -/

/-- In the new line the bindings that stay have the items that they had, and the same text stands
    behind the clause. -/
def KeepsSpelling (s : Statement) (names : List Text) (new : Text) : Prop :=
  ∃ before c before' c' after, LineParts s.form s.indent s.bindings s.raw before c after ∧
    LineParts s.form s.indent (s.kept names) new before' c' after ∧
    spelledItems c' (s.kept names) =
      (spelledItems c s.bindings).filter fun p => !names.contains p.2.localName

/-- The items of the bindings that stay, and what stands behind the clause, are written as the
    printer writes them. -/
def IsPlainlySpelled (s : Statement) (names : List Text) : Prop :=
  ∃ before c after, LineParts s.form s.indent s.bindings s.raw before c after ∧
    after = s.endingText ∧
    ∀ p ∈ spelledItems c s.bindings, p.2.localName ∉ names → p.1 = s.form.itemText p.2

/-- Only named bindings go, and not all of them. -/
def LosesItemsOnly (s : Statement) (names : List Text) : Prop :=
  (∀ b ∈ s.bindings, b.localName ∈ names → b.kind = .named) ∧ ∃ b ∈ s.kept names, b.kind = .named

instance (s : Statement) (names : List Text) : Decidable (s.LosesItemsOnly names) :=
  inferInstanceAs (Decidable (_ ∧ _))

theorem named_kept (s : Statement) (names : List Text) :
    (s.kept names).filter (·.kind = .named) =
      s.named.filter fun b => !names.contains b.localName :=
  List.filter_comm _ _ _

/-- A line that is cut open at its braces keeps its spelling. -/
theorem StandsIn.keepsSpelling_withoutItems (h : s.StandsIn before c after o)
    (hline : '\n' ∉ s.raw) (hitems : s.LosesItemsOnly names) :
    s.KeepsSpelling names (s.withoutItems names) := by
  obtain ⟨hlost, b, hb, hkind⟩ := hitems
  have hnamed : ∃ b ∈ s.bindings, b.kind = .named := ⟨b, List.mem_of_mem_filter hb, hkind⟩
  obtain ⟨c', htext, hreads⟩ := h.withoutItems hline hnamed fun d hd hn =>
    hlost d hd (by simpa using hn)
  obtain ⟨head, body, hhead, hbody, hc, hchars, f, hf⟩ := h.lineParts.body.exists_braces hnamed
  have hall : List.Forall₂ (fun x d => f x = some d) (Text.items body) s.named :=
    mapM_eq_some_iff.1 hf
  have hraw : s.raw = (before ++ head) ++ '\x7b' :: (body ++ '\x7d' :: after) := by
    rw [h.raw, hc]
    simp
  have hbefore := h.opening.no_brace h.indent
  obtain ⟨ts, hts⟩ : ∃ ts, ts = (keptItems (Text.items body) s.named names).map (·.1) := ⟨_, rfl⟩
  have hcut : c' = head ++ braced ts := by
    rw [withoutItems_eq (allIn_append.2 ⟨hbefore, hhead⟩) hbody hraw, ← hts] at htext
    simp only [List.append_assoc, List.append_cancel_left_eq] at htext
    rw [← List.append_assoc] at htext
    exact (List.append_cancel_right htext).symm
  have hbodyLine : '\n' ∉ body := fun hmem => hline (by rw [hraw]; simp [hmem])
  have hkept : ∀ x ∈ ts, IsItemText x := by
    intro x hx
    have hmem := mem_items_of_mem_keptItems (hts ▸ hx)
    exact isItemText_of_mem_items hbody hbodyLine hmem (hchars x hmem)
  refine ⟨before, c, before, c', after, h.lineParts,
    ⟨h.opening, Or.inl hreads, ⟨o, h.ending⟩, htext⟩, ?_⟩
  rw [spelledItems, hcut, clauseItems_braced hhead hkept, hts, named_kept, ← keptItems_snd hall,
    List.zip_map', spelledItems, hc, clauseItems_braces hhead hbody]
  exact List.map_id _

/-- A line that is written again keeps its spelling if it was written in the same way. -/
theorem StandsIn.keepsSpelling_render_iff (h : s.StandsIn before c after o)
    (hne : s.kept names ≠ []) :
    s.KeepsSpelling names (s.render (s.kept names)) ↔ s.IsPlainlySpelled names := by
  have hadmits : s.form.Admits (s.kept names) := h.admits.filter _
  have hnew : LineParts s.form s.indent (s.kept names) (s.render (s.kept names)) s.openingText
      (s.form.bodyText (s.kept names)) s.endingText :=
    ⟨s.opening_openingText, Form.writes_bodyText hadmits hne,
      ⟨_, ending?_endingText h.isWritable⟩, s.render_eq _⟩
  -- what is written for the bindings that stay, against what was written for them
  have hspelled : spelledItems (s.form.bodyText (s.kept names)) (s.kept names) =
      ((spelledItems c s.bindings).filter fun p => !names.contains p.2.localName) ↔
        ∀ p ∈ spelledItems c s.bindings, p.2.localName ∉ names → p.1 = s.form.itemText p.2 := by
    have hstay : (s.kept names).filter (·.kind = .named) =
        ((spelledItems c s.bindings).filter fun p => !names.contains p.2.localName).map (·.2) := by
      rw [named_kept, Statement.named, ← h.lineParts.body.map_snd_spelledItems, List.filter_map]
      rfl
    rw [Form.spelledItems_bodyText hadmits, hstay, map_snd_eq_self_iff]
    simp only [List.mem_filter, Bool.not_eq_true', List.contains_eq_mem, decide_eq_false_iff_not,
      and_imp]
  constructor
  · rintro ⟨before₁, c₁, before₂, c₂, after₁, hold, hnew', hsame⟩
    obtain ⟨rfl, rfl, rfl⟩ := h.lineParts.unique hold
    obtain ⟨-, rfl, hafter⟩ := hnew.unique hnew'
    exact ⟨before, c, after, hold, hafter.symm, hspelled.1 hsame⟩
  · rintro ⟨before₁, c₁, after₁, hold, rfl, hsame⟩
    obtain ⟨rfl, rfl, rfl⟩ := h.lineParts.unique hold
    exact ⟨before, c, _, _, _, hold, hnew, hspelled.2 hsame⟩

/-- A line that changes is cut open at its braces or written again. -/
theorem without_eq_changed (h : s.without names = .changed new removed) : s.kept names ≠ [] ∧
    new = if s.LosesItemsOnly names then s.withoutItems names else s.render (s.kept names) := by
  have hitems : ((s.bindings.filter fun b => names.contains b.localName).all (·.kind = .named) &&
      (s.kept names).any (·.kind = .named)) = true ↔ s.LosesItemsOnly names := by
    simp [LosesItemsOnly, imp_iff_not_or]
  unfold without at h
  dsimp only at h
  split at h
  · cases h
  · split at h
    · cases h
    · next hkept =>
      refine ⟨fun hnil => hkept (List.isEmpty_iff.2 hnil), ?_⟩
      split at h
      · next hall =>
        cases h
        rw [if_pos (hitems.1 hall)]
      · next hall =>
        cases h
        rw [if_neg (mt hitems.2 hall)]
        rfl

/-- No line changes for evidence that gives no name. -/
theorem without_of_removal {names : List (Option Text)}
    (h : s.removal names = .changed new removed) :
    s.without (s.removedNames names) = .changed new removed := by
  unfold removal at h
  split at h
  · split at h <;> cases h
  · next hall => rwa [removedNames, if_neg hall]

/-- **When a changed line keeps its spelling.** -/
theorem StandsIn.keepsSpelling_iff (h : s.StandsIn before c after o) (hline : '\n' ∉ s.raw)
    (hchanged : s.without names = .changed new removed) :
    s.KeepsSpelling names new ↔ s.LosesItemsOnly names ∨ s.IsPlainlySpelled names := by
  obtain ⟨hne, rfl⟩ := without_eq_changed hchanged
  by_cases hitems : s.LosesItemsOnly names
  · rw [if_pos hitems]
    exact iff_of_true (h.keepsSpelling_withoutItems hline hitems) (Or.inl hitems)
  · rw [if_neg hitems, h.keepsSpelling_render_iff hne, or_iff_right hitems]

end Statement

/-! ### Replaced lines of a text -/

/-- The line that a statement loses names on stays, as it is planned. -/
theorem lineWithout?_of_removal (h : Statement.ofLine? l n = some s) (hl : '\n' ∉ l)
    (hremoval : s.removal (namesAt evidence n) = .changed new removed) :
    lineWithout? evidence n l = some (LineEdits.keepReturn l new) ∧ IsBare new := by
  have hloses := Statement.loses_removal h hl (namesAt evidence n)
  rw [hremoval] at hloses
  cases hloses with
  | changed hlost hkept hbare _ hread =>
    refine ⟨?_, hbare⟩
    by_cases hhidden : s.IsHidden (s.kept (s.removedNames (namesAt evidence n)))
    · obtain ⟨removed', hsame⟩ := Statement.removal_of_isHidden hlost hhidden
      rw [hremoval] at hsame
      cases hsame
      exact lineWithout?_of_isHidden h hlost hhidden
    · obtain ⟨x, -, hmem⟩ := hlost
      obtain ⟨y, hy, hnot⟩ := hkept
      obtain ⟨b, hb, rfl⟩ := List.mem_map.1 hy
      have hleft := hread 1
      rw [if_neg hhidden, ← bareLine_keepReturn (u := l) (n := 1) hbare,
        ← Statement.ofLine?_eq] at hleft
      have hfilled := bindsNothing_eq_false hleft
        (List.ne_nil_of_mem (Statement.mem_kept_iff.2 ⟨hb, hnot⟩))
      rw [lineWithout?, h, isEmpty_eq_false_of_mem hmem, Option.map_some, hremoval]
      simp only [StatementRemoval.line?, Option.filter_some, hfilled, Bool.false_eq_true, if_false,
        Bool.not_false, if_true]

/-- **When a replaced line keeps its spelling.**  The items of the bindings that stay, and the text
behind the clause, are what they were if and only if the removal takes items only and leaves some,
or they had been written as the printer writes them. -/
theorem keepsSpelling_replacement_iff
    (h : (n, new) ∈ (Removal.plan (ImportTable.ofText t) evidence).edits.replacements) :
    ∃ l s, (n, l) ∈ numberedLines t ∧ Statement.ofLine? l n = some s ∧
      (∃ m u, (m, u) ∈ numberedLines (dropUnused evidence t) ∧ bareLine u m = new) ∧
      (s.KeepsSpelling (s.removedNames (namesAt evidence n)) new ↔
        s.LosesItemsOnly (s.removedNames (namesAt evidence n)) ∨
          s.IsPlainlySpelled (s.removedNames (namesAt evidence n))) := by
  obtain ⟨removed, hremoval⟩ := (Removal.mem_replacements_plan_iff _ _ _ _).1 h
  obtain ⟨s, hs, hchanged⟩ := Option.map_eq_some_iff.1 hremoval
  obtain ⟨hmem, rfl⟩ := onLine?_eq_some_iff.1 hs
  obtain ⟨l, hl, hread⟩ := mem_ofText_iff.1 hmem
  have hline := not_mem_of_mem_numberedLines hl
  obtain ⟨hleft, hbare⟩ := lineWithout?_of_removal hread hline hchanged
  obtain ⟨m, u, hu, -, hsame⟩ := exists_mem_numberedLines_dropUnused hl hleft
  obtain ⟨-, -, before, c, after, o, hparts⟩ := Statement.ofBare?_cases
    (Statement.ofLine?_eq ▸ hread)
  refine ⟨l, s, hl, hread, ⟨m, u, hu, by rw [hsame, bareLine_keepReturn hbare]⟩, ?_⟩
  exact hparts.keepsSpelling_iff (Statement.isOnOneLine_of_ofLine? hread hline).1
    (Statement.without_of_removal hchanged)

/-- An item goes, and the item behind it, the wide gap and the comment stay as they are. -/
theorem keepsSpelling_replacement_item :
    let t := "import {  a , type   B }  from 'm' ; // c".toList
    let new := "import { type   B }  from 'm' ; // c".toList
    let evidence : List Evidence := [{ line := 1, name := some "a".toList }]
    (1, new) ∈ (Removal.plan (ImportTable.ofText t) evidence).edits.replacements ∧
      ∃ s, Statement.ofLine? t 1 = some s ∧ s.KeepsSpelling ["a".toList] new := by
  intro t new evidence
  have hplan : (1, new) ∈ (Removal.plan (ImportTable.ofText t) evidence).edits.replacements := by
    decide +kernel
  obtain ⟨l, s, hl, hread, -, hkeeps⟩ := keepsSpelling_replacement_iff hplan
  have hline : numberedLines t = [(1, t)] := by decide +kernel
  rw [hline, List.mem_singleton, Prod.mk.injEq] at hl
  have hs : s =
      { specifier := "m".toList, line := 1, raw := t, form := .es false, quote := .single
        semicolon := true, indent := [], trailing := " // c".toList
        bindings := [{ localName := "a".toList, imported := some "a".toList },
          { localName := "B".toList, imported := some "B".toList, typeOnly := true }] } := by
    refine Option.some.inj (hread.symm.trans ?_)
    rw [hl.2]
    decide +kernel
  have hitems : s.LosesItemsOnly (s.removedNames (namesAt evidence 1)) := by
    rw [hs]
    decide +kernel
  have hnames : s.removedNames (namesAt evidence 1) = ["a".toList] := by
    rw [hs]
    decide +kernel
  rw [hl.2] at hread
  exact ⟨hplan, s, hread, hnames ▸ hkeeps.2 (Or.inl hitems)⟩

/-- A default name goes, and the line is written again: the item next to it and the end of the line
    are not what they were. -/
theorem keepsSpelling_replacement_default :
    let t := "import X, { a  as  b } from \"m\" ;\n".toList
    let l := "import X, { a  as  b } from \"m\" ;".toList
    let new := "import { a as b } from \"m\";".toList
    let evidence : List Evidence := [{ line := 1, name := some "X".toList }]
    (1, new) ∈ (Removal.plan (ImportTable.ofText t) evidence).edits.replacements ∧
      dropUnused evidence t = "import { a as b } from \"m\";\n".toList ∧
      ∃ s, Statement.ofLine? l 1 = some s ∧ ¬ s.KeepsSpelling ["X".toList] new := by
  intro t l new evidence
  obtain ⟨s, hs⟩ : ∃ s : Statement, s =
      { specifier := "m".toList, line := 1, raw := l, form := .es false, quote := .double
        semicolon := true, indent := [], trailing := []
        bindings := [defaultOf false "X".toList,
          { localName := "b".toList, imported := some "a".toList }] } := ⟨_, rfl⟩
  have hread : Statement.ofLine? l 1 = some s := by
    rw [hs]
    decide +kernel
  refine ⟨by decide +kernel, by decide +kernel, s, hread, ?_⟩
  obtain ⟨-, -, before, c, after, o, hparts⟩ := Statement.ofBare?_cases
    (Statement.ofLine?_eq ▸ hread)
  have hchanged : s.without ["X".toList] = .changed new ["X".toList] := by
    rw [hs]
    decide +kernel
  rw [hparts.keepsSpelling_iff (by rw [hs]; decide +kernel) hchanged]
  rintro (⟨hitems, -⟩ | ⟨before', c', after', hold, rfl, -⟩)
  · have hkind := hitems (defaultOf false "X".toList) (by simp [hs]) (by simp [defaultOf])
    cases hkind
  · -- the line does not end as the printer would end it
    have hend : s.endingText <:+ s.raw :=
      ⟨before' ++ c', by rw [hold.eq_append, List.append_assoc]⟩
    rw [hs] at hend
    revert hend
    decide +kernel

end ImportRepair
