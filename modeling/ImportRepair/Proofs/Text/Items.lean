import ImportRepair.Proofs.Text.Scan

/-!
# Items between commas

`Text.items` forgets the white space around items, empty items and the commas
themselves.  Items written with a comma and a space between them come back, and
every other character of a text belongs to one of its items.
-/

namespace ImportRepair.Text

variable {t x y : Text}

theorem items_append_comma : items (x ++ ',' :: y) = items x ++ items y := by
  simp [items, List.splitOn_append_cons_self]

theorem items_of_not_mem (h : ',' ∉ x) : items x = [x.trim].filter (!·.isEmpty) := by
  simp [items, List.splitOn_eq_singleton h]

theorem items_of_allIn (h : AllIn isBlank x) : items x = [] := by
  have hcomma : ',' ∉ x := fun hmem => absurd (h _ hmem) (by decide)
  simp [items_of_not_mem hcomma, trim_of_allIn h]

theorem items_of_isTrimmed {w r : Text} (hw : AllIn isBlank w) (hx : IsTrimmed x) (h : ',' ∉ x)
    (hr : AllIn isBlank r) : items (w ++ x ++ r) = [x] := by
  have hblank : isBlank ',' = false := by decide
  have hcomma : ',' ∉ w ++ x ++ r := by
    simp only [List.mem_append, not_or]
    refine ⟨⟨fun hmem => ?_, h⟩, fun hmem => ?_⟩
    · simp [hw _ hmem] at hblank
    · simp [hr _ hmem] at hblank
  rw [items_of_not_mem hcomma, trim_between hw hx hr]
  simp [hx.ne_nil]

/-- Items come back from the form in which they are written. -/
theorem items_intercalate {ts : List Text} (h : ∀ t ∈ ts, IsTrimmed t ∧ ',' ∉ t) :
    items (' ' :: ([',', ' '].intercalate ts ++ [' '])) = ts := by
  have hspace : AllIn isBlank [' '] := by simp; decide
  induction ts with
  | nil => exact items_of_allIn (by simp; decide)
  | cons t ts ih =>
    obtain ⟨htrim, hcomma⟩ := h t (by simp)
    cases ts with
    | nil => simpa using items_of_isTrimmed hspace htrim hcomma hspace
    | cons u us =>
      have hsplit : ' ' :: ([',', ' '].intercalate (t :: u :: us) ++ [' ']) =
          [' '] ++ t ++ [] ++ ',' :: (' ' :: ([',', ' '].intercalate (u :: us) ++ [' '])) := by
        simp [List.intercalate_cons_cons]
      rw [hsplit, items_append_comma, items_of_isTrimmed hspace htrim hcomma (by simp),
        ih fun t ht => h t (by simp [ht])]
      rfl

theorem allIn_intercalate {p : Char → Bool} {ts : List Text} (hcomma : p ',' = true)
    (hspace : p ' ' = true) (h : ∀ t ∈ ts, AllIn p t) : AllIn p ([',', ' '].intercalate ts) := by
  induction ts with
  | nil => simp
  | cons t ts ih =>
    obtain ⟨ht, hts⟩ := List.forall_mem_cons.1 h
    cases ts with
    | nil => simpa using ht
    | cons u us =>
      rw [List.intercalate_cons_cons]
      simp only [allIn_append, allIn_cons, allIn_nil]
      exact ⟨⟨ht, hcomma, hspace, trivial⟩, ih hts⟩

theorem isTrimmed_of_mem_items (h : x ∈ items t) : IsTrimmed x := by
  simp only [items, List.mem_filter, List.mem_map, Bool.not_eq_true',
    List.isEmpty_eq_false_iff] at h
  obtain ⟨⟨u, -, rfl⟩, hne⟩ := h
  exact isTrimmed_trim hne

/-- A character is a comma, white space, or stands in an item; and an item holds nothing that the
    text does not hold. -/
theorem mem_items_cases (t : Text) :
    (∀ c ∈ t, c = ',' ∨ isBlank c = true ∨ ∃ x ∈ items t, c ∈ x) ∧
      ∀ x ∈ items t, ∀ c ∈ x, c ∈ t ∧ c ≠ ',' := by
  generalize hn : t.length = n
  induction n using Nat.strong_induction_on generalizing t with
  | _ n ih =>
    by_cases hcomma : ',' ∈ t
    · obtain ⟨x, y, rfl⟩ := List.append_of_mem hcomma
      obtain ⟨hx, hx'⟩ := ih x.length (by simp at hn; omega) x rfl
      obtain ⟨hy, hy'⟩ := ih y.length (by simp at hn; omega) y rfl
      rw [items_append_comma]
      constructor
      · intro c hc
        rcases List.mem_append.1 hc with hc | hc
        · rcases hx c hc with h | h | ⟨u, hu, hcu⟩
          · exact Or.inl h
          · exact Or.inr (Or.inl h)
          · exact Or.inr (Or.inr ⟨u, by simp [hu], hcu⟩)
        · rcases List.mem_cons.1 hc with rfl | hc
          · exact Or.inl rfl
          · rcases hy c hc with h | h | ⟨u, hu, hcu⟩
            · exact Or.inl h
            · exact Or.inr (Or.inl h)
            · exact Or.inr (Or.inr ⟨u, by simp [hu], hcu⟩)
      · intro u hu c hc
        rcases List.mem_append.1 hu with hu | hu
        · exact ⟨by simp [(hx' u hu c hc).1], (hx' u hu c hc).2⟩
        · exact ⟨by simp [(hy' u hu c hc).1], (hy' u hu c hc).2⟩
    · obtain ⟨w, r, hw, hr, hsplit⟩ := exists_trim t
      rw [items_of_not_mem hcomma]
      constructor
      · intro c hc
        rw [hsplit] at hc
        rcases List.mem_append.1 hc with hc | hc
        · rcases List.mem_append.1 hc with hc | hc
          · exact Or.inr (Or.inl (hw c hc))
          · exact Or.inr (Or.inr ⟨t.trim, by simpa using List.ne_nil_of_mem hc, hc⟩)
        · exact Or.inr (Or.inl (hr c hc))
      · intro u hu c hc
        have hu : u = t.trim := by simpa using (List.mem_filter.1 hu).1
        have hmem : c ∈ t := by rw [hsplit]; simp [← hu, hc]
        exact ⟨hmem, fun h => hcomma (h ▸ hmem)⟩

theorem not_mem_comma_of_mem_items (h : x ∈ items t) : ',' ∉ x :=
  fun hc => ((mem_items_cases t).2 x h _ hc).2 rfl

/-- A class that holds the comma, white space and all items holds the whole text. -/
theorem allIn_of_items {p : Char → Bool} (hcomma : p ',' = true)
    (hblank : ∀ c, isBlank c = true → p c = true) (hitems : ∀ x ∈ items t, AllIn p x) :
    AllIn p t := by
  intro c hc
  rcases (mem_items_cases t).1 c hc with rfl | h | ⟨x, hx, hcx⟩
  · exact hcomma
  · exact hblank c h
  · exact hitems x hx c hcx

theorem allIn_of_mem_items {p : Char → Bool} (h : AllIn p t) (hx : x ∈ items t) : AllIn p x :=
  fun c hc => h c ((mem_items_cases t).2 x hx c hc).1

end ImportRepair.Text
