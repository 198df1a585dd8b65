import ImportRepair.Import.Pieces
import Mathlib.Data.List.TakeWhile

/-!
# Scanning past white space and names

Every reader of this library takes the longest run of some class of characters
from the front of a text.  The lemmas here say when such a run is cut where it
was written, and which classes have no character in common.
-/

namespace ImportRepair

/-! ### Runs -/

namespace Text

variable {p : Char → Bool} {t u w r : Text}

/-- All characters of the text are in `p`. -/
def AllIn (p : Char → Bool) (t : Text) : Prop := ∀ c ∈ t, p c = true

/-- The text is empty or starts with a character outside `p`. -/
def Stops (p : Char → Bool) (t : Text) : Prop := ∀ c ∈ t.head?, p c = false

@[simp] theorem allIn_nil : AllIn p [] := by simp [AllIn]

@[simp] theorem allIn_cons {c : Char} : AllIn p (c :: t) ↔ p c = true ∧ AllIn p t := by
  simp [AllIn]

@[simp] theorem allIn_append : AllIn p (t ++ u) ↔ AllIn p t ∧ AllIn p u := by
  simp only [AllIn, List.mem_append]
  exact ⟨fun h => ⟨fun c hc => h c (Or.inl hc), fun c hc => h c (Or.inr hc)⟩,
    fun h c hc => hc.elim (h.1 c) (h.2 c)⟩

theorem allIn_ne_iff {c : Char} : AllIn (· != c) t ↔ c ∉ t := by
  constructor
  · intro h hc
    exact absurd rfl (bne_iff_ne.1 (h c hc))
  · intro h d hd
    exact bne_iff_ne.2 fun heq => h (heq ▸ hd)

@[simp] theorem stops_nil : Stops p [] := by simp [Stops]

@[simp] theorem stops_cons {c : Char} : Stops p (c :: t) ↔ p c = false := by simp [Stops]

theorem stops_reverse : Stops p t.reverse ↔ ∀ c ∈ t.getLast?, p c = false := by
  rw [Stops, List.head?_reverse]

-- The instances go through the text; one for all characters would go through these.
instance : DecidablePred (AllIn p) := fun t => List.decidableBAll (fun c => p c = true) t

instance : DecidablePred (Stops p)
  | [] => isTrue stops_nil
  | _ :: _ => decidable_of_iff _ stops_cons.symm

theorem stops_append (h : Stops p t) (ht : t ≠ []) : Stops p (t ++ u) := by
  cases t with
  | nil => exact absurd rfl ht
  | cons c t => simpa using h

theorem AllIn.mono {q : Char → Bool} (h : AllIn p t) (hq : ∀ c, p c = true → q c = true) :
    AllIn q t := fun c hc => hq c (h c hc)

theorem AllIn.stops {q : Char → Bool} (h : AllIn p t) (hq : ∀ c, p c = true → q c = false) :
    Stops q t := by
  intro c hc
  exact hq c (h c (List.mem_of_mem_head? hc))

theorem allIn_takeWhile : AllIn p (t.takeWhile p) := fun _ hc => List.mem_takeWhile_imp hc

theorem stops_dropWhile : Stops p (t.dropWhile p) := by
  induction t with
  | nil => simp
  | cons c t ih =>
    rw [List.dropWhile_cons]
    split
    · exact ih
    · next h => simpa using h

theorem takeWhile_run (hw : AllIn p w) (hr : Stops p r) : (w ++ r).takeWhile p = w := by
  rw [List.takeWhile_append_of_pos hw]
  cases r with
  | nil => simp
  | cons c r => simp [stops_cons.1 hr]

theorem dropWhile_run (hw : AllIn p w) (hr : Stops p r) : (w ++ r).dropWhile p = r := by
  rw [List.dropWhile_append_of_pos hw]
  cases r with
  | nil => simp
  | cons c r => simp [stops_cons.1 hr]

/-- The run at the front of a text does not go beyond it. -/
theorem takeWhile_append_of_stops (hr : Stops p r) : (w ++ r).takeWhile p = w.takeWhile p := by
  induction w with
  | nil => simpa using takeWhile_run (w := []) (by simp) hr
  | cons c w ih => rw [List.cons_append, List.takeWhile_cons, List.takeWhile_cons, ih]

theorem dropWhile_of_stops (hr : Stops p r) : r.dropWhile p = r := by
  simpa using dropWhile_run (w := []) (by simp) hr

/-- Two ways to cut a text behind its longest run are the same. -/
theorem run_unique {w' r' : Text} (h : w ++ r = w' ++ r') (hw : AllIn p w) (hr : Stops p r)
    (hw' : AllIn p w') (hr' : Stops p r') : w = w' ∧ r = r' := by
  have hwords : w = w' := by rw [← takeWhile_run hw hr, h, takeWhile_run hw' hr']
  have hrests : r = r' := by rw [← dropWhile_run hw hr, h, dropWhile_run hw' hr']
  exact ⟨hwords, hrests⟩

/-- What holds no `b` and stands in front of `s` ends before the first `b` of the whole text. -/
theorem exists_of_append_eq {b : Char} {v s : Text} (h : u ++ b :: r = v ++ s) (hb : b ∉ v) :
    ∃ w, u = v ++ w := by
  rcases List.append_eq_append_iff.1 h with ⟨w, rfl, hw⟩ | ⟨w, rfl, -⟩
  · cases w with
    | nil => exact ⟨[], by simp⟩
    | cons c w =>
      have hbc : b = c := (List.cons.inj hw).1
      exact absurd (by simp [hbc]) hb
  · exact ⟨w, rfl⟩

/-! ### Ends of texts -/

/-- A text that does not end in a character of `p` keeps its end. -/
theorem dropEndWhile_append_run (hw : AllIn p w) (hu : ∀ c ∈ u.getLast?, p c = false) :
    (u ++ w).dropEndWhile p = u := by
  have hrev : Stops p u.reverse := by simpa [Stops] using hu
  rw [dropEndWhile, List.reverse_append, dropWhile_run (by simpa [AllIn] using hw) hrev,
    List.reverse_reverse]

theorem dropEndWhile_of_getLast? (hu : ∀ c ∈ u.getLast?, p c = false) : u.dropEndWhile p = u := by
  simpa using dropEndWhile_append_run (w := []) (by simp) hu

theorem getLast?_dropEndWhile : ∀ c ∈ (t.dropEndWhile p).getLast?, p c = false := by
  have h := stops_dropWhile (p := p) (t := t.reverse)
  simpa [dropEndWhile, Stops] using h

theorem exists_dropEndWhile_append : ∃ w, AllIn p w ∧ t = t.dropEndWhile p ++ w := by
  refine ⟨(t.reverse.takeWhile p).reverse, ?_, ?_⟩
  · simpa [AllIn] using allIn_takeWhile (p := p) (t := t.reverse)
  · rw [dropEndWhile, ← List.reverse_append, List.takeWhile_append_dropWhile, List.reverse_reverse]

theorem dropEndWhile_cons_of_neg {c : Char} (hc : p c = false) :
    dropEndWhile p (c :: t) = c :: t.dropEndWhile p := by
  have hrev : (t.reverse ++ [c]).dropWhile p = t.reverse.dropWhile p ++ [c] := by
    rw [List.dropWhile_append]
    split
    · next h => simp [List.isEmpty_iff.1 h, hc]
    · rfl
  simp [dropEndWhile, hrev]

/-! ### Trimmed texts -/

theorem trimLeft_run (hw : AllIn isBlank w) (hr : Stops isBlank r) : trimLeft (w ++ r) = r :=
  dropWhile_run hw hr

theorem trimLeft_of_allIn (hw : AllIn isBlank w) : trimLeft w = [] := List.dropWhile_eq_nil_iff.2 hw

theorem stops_trimLeft : Stops isBlank t.trimLeft := stops_dropWhile

theorem exists_trimLeft (t : Text) : ∃ w, AllIn isBlank w ∧ t = w ++ t.trimLeft :=
  ⟨_, allIn_takeWhile, List.takeWhile_append_dropWhile.symm⟩

/-- The text is not empty, and there is no white space at its ends. -/
structure IsTrimmed (t : Text) : Prop where
  ne_nil : t ≠ []
  head : Stops isBlank t
  last : ∀ c ∈ t.getLast?, isBlank c = false

/-- White space around a trimmed text is trimmed away. -/
theorem trim_between (hw : AllIn isBlank w) (h : IsTrimmed t) (hr : AllIn isBlank r) :
    (w ++ t ++ r).trim = t := by
  rw [trim, List.append_assoc, trimLeft_run hw (stops_append h.head h.ne_nil), trimRight,
    dropEndWhile_append_run hr h.last]

theorem IsTrimmed.trim_eq (h : IsTrimmed t) : t.trim = t := by
  simpa using trim_between (w := []) (r := []) (by simp) h (by simp)

theorem trim_of_allIn (h : AllIn isBlank t) : t.trim = [] := by
  rw [trim, trimLeft_of_allIn h]
  rfl

/-- A text is its trimmed text between white space. -/
theorem exists_trim (t : Text) :
    ∃ w r, AllIn isBlank w ∧ AllIn isBlank r ∧ t = w ++ t.trim ++ r := by
  obtain ⟨w, hw, hleft⟩ := exists_trimLeft t
  obtain ⟨r, hr, hright⟩ := exists_dropEndWhile_append (p := isBlank) (t := t.trimLeft)
  refine ⟨w, r, hw, hr, ?_⟩
  calc
    t = w ++ t.trimLeft := hleft
    _ = w ++ (t.trim ++ r) := by rw [trim, trimRight, ← hright]
    _ = w ++ t.trim ++ r := (List.append_assoc ..).symm

theorem isTrimmed_trim (h : t.trim ≠ []) : IsTrimmed t.trim := by
  refine ⟨h, ?_, getLast?_dropEndWhile⟩
  obtain ⟨r, -, hsplit⟩ := exists_dropEndWhile_append (p := isBlank) (t := t.trimLeft)
  have hleft := stops_trimLeft (t := t)
  rw [hsplit] at hleft
  change Stops isBlank (t.trim ++ r) at hleft
  cases hu : t.trim with
  | nil => exact absurd hu h
  | cons c u => simpa [hu] using hleft

end Text

/-! ### Classes of characters -/

/-- Ranges none of which meets one of the others cover no common code point. -/
theorem Ranges.not_covers {r q : Ranges} {n : Nat}
    (h : ∀ a ∈ r, ∀ b ∈ q, a.2 < b.1 ∨ b.2 < a.1) (hr : r.covers n = true) :
    q.covers n = false := by
  rw [Bool.eq_false_iff]
  intro hq
  obtain ⟨a, ha, hal, hau⟩ := Ranges.covers_iff.1 hr
  obtain ⟨b, hb, hbl, hbu⟩ := Ranges.covers_iff.1 hq
  rcases h a ha b hb with hab | hab <;> omega

/-- White space lies below U+0080 among the control characters and the space, or outside all
    ranges of word characters. -/
theorem isWord_of_isBlank {c : Char} (h : isBlank c = true) : isWord c = false := by
  unfold isWord
  split
  · next hlow =>
    have hsmall : ∀ n < 128, blankRanges.covers n = true →
        (decide (97 ≤ n) && decide (n ≤ 122) || decide (65 ≤ n) && decide (n ≤ 90)) = false ∧
          (decide (48 ≤ n) && decide (n ≤ 57)) = false ∧ n ≠ 95 := by decide +kernel
    obtain ⟨hletter, hdigit, hline⟩ := hsmall c.toNat hlow h
    have hne : c ≠ '_' := fun hc => hline (by rw [hc]; rfl)
    simp only [isAsciiLetter, isAsciiDigit, Char.le_def, Bool.or_eq_false_iff, beq_eq_false_iff_ne]
    exact ⟨⟨Bool.or_eq_false_iff.1 hletter, hdigit⟩, hne⟩
  · exact Ranges.not_covers (r := blankRanges) (by decide +kernel) h

theorem code_of_isAsciiLetter {c : Char} (h : isAsciiLetter c = true) :
    97 ≤ c.toNat ∧ c.toNat ≤ 122 ∨ 65 ≤ c.toNat ∧ c.toNat ≤ 90 := by
  simpa [isAsciiLetter, Char.le_def, UInt32.le_iff_toNat_le] using h

theorem isAsciiLetter_of_isBlank {c : Char} (h : isBlank c = true) : isAsciiLetter c = false := by
  rw [Bool.eq_false_iff]
  intro hletter
  have hcode := code_of_isAsciiLetter hletter
  have hword := isWord_of_isBlank h
  rw [isWord, if_pos (by omega), hletter] at hword
  exact Bool.false_ne_true hword.symm

end ImportRepair
