import ImportRepair.Path.Portable
import ImportRepair.Proofs.Text.Scan
import Mathlib.Data.List.Basic

/-!
# Spellings that are portable already

The portable spelling of a path is found in stages: white space at the ends,
backslashes, the drive letter, the root of the project and leading pieces `./`
go in this order, each of them once.  No stage makes a path longer, so a path
is its own portable spelling when every single stage leaves it alone.  A
portable spelling need not be one of these: a later stage can bring to the
front what an earlier stage would have dropped.
-/

namespace ImportRepair

open Text

variable {root : Option Text} {r t u : Text}

/-! ### The stages -/

/-- What paths below the root start with, without the slash behind it. -/
def rootSpelling (r : Text) : Text := Text.dropEndWhile (· == '/') (dropHere (slashed r))

/-- The path relative to the root, if there is one. -/
def belowRoot (root : Option Text) (t : Text) : Text :=
  match root with
  | none => t
  | some r => below (rootSpelling r) t

theorem portable_eq (root : Option Text) (t : Text) :
    portable root t = dropHere (belowRoot root (slashed t)) := by
  cases root <;> rfl

theorem trim_isInfix (t : Text) : t.trim <:+: t := by
  obtain ⟨w, v, -, -, hsplit⟩ := exists_trim t
  exact ⟨w, v, hsplit.symm⟩

theorem dropDrive_suffix (t : Text) : dropDrive t <:+ t := by
  unfold dropDrive
  split
  · next d v =>
    split
    · exact ⟨[d, ':', '/'], rfl⟩
    · exact List.suffix_rfl
  · exact List.suffix_rfl

theorem below_suffix (r t : Text) : below r t <:+ t := by
  unfold below
  split
  · exact List.suffix_rfl
  split
  · exact List.nil_suffix
  cases hp : (r ++ ['/']).isPrefixOf? t with
  | none => exact List.suffix_rfl
  | some v => exact ⟨r ++ ['/'], List.isPrefixOf?_eq_some_iff_append_eq.1 hp⟩

theorem belowRoot_suffix (root : Option Text) (t : Text) : belowRoot root t <:+ t := by
  cases root with
  | none => exact List.suffix_rfl
  | some r => exact below_suffix _ t

theorem dropHere_suffix (t : Text) : dropHere t <:+ t := by
  induction t using dropHere.induct with
  | case1 v ih =>
    rw [dropHere]
    exact ih.trans ⟨['.', '/'], rfl⟩
  | case2 t hne =>
    have hkept : dropHere t = t := dropHere.eq_2 t hne
    exact hkept.symm ▸ List.suffix_rfl

theorem dropHere_dropHere (t : Text) : dropHere (dropHere t) = dropHere t := by
  induction t using dropHere.induct with
  | case1 v ih => rw [dropHere, ih]
  | case2 t hne => rw [dropHere.eq_2 t hne, dropHere.eq_2 t hne]

theorem slashed_suffix (t : Text) : slashed t <:+ replaceChar '\\' '/' t.trim := dropDrive_suffix _

theorem portable_suffix (root : Option Text) (t : Text) : portable root t <:+ slashed t := by
  rw [portable_eq]
  exact (dropHere_suffix _).trans (belowRoot_suffix root _)

/-! ### Backslashes -/

@[simp] theorem length_replaceChar (c d : Char) (t : Text) :
    (replaceChar c d t).length = t.length := by
  simp [replaceChar]

theorem replaceChar_of_notMem {c d : Char} (h : c ∉ t) : replaceChar c d t = t := by
  calc
    replaceChar c d t = t.map id := by
      apply List.map_congr_left
      intro x hx
      exact if_neg fun hxc => h (by rwa [← hxc])
    _ = t := List.map_id t

theorem notMem_replaceChar {c d : Char} (hne : c ≠ d) : c ∉ replaceChar c d t := by
  intro hc
  obtain ⟨x, -, hx⟩ := List.mem_map.1 hc
  split at hx
  · exact hne hx.symm
  · next hxc => exact hxc hx

theorem notMem_slashed (t : Text) : '\\' ∉ slashed t := fun h =>
  notMem_replaceChar (by decide) ((slashed_suffix t).subset h)

theorem notMem_portable (root : Option Text) (t : Text) : '\\' ∉ portable root t := fun h =>
  notMem_slashed t ((portable_suffix root t).subset h)

/-! ### Portable spellings that stay as they are -/

/-- No stage changes the path. -/
structure IsPortable (root : Option Text) (t : Text) : Prop where
  trim : t.trim = t
  slash : '\\' ∉ t
  drive : dropDrive t = t
  below : belowRoot root t = t
  here : dropHere t = t

theorem IsPortable.portable_eq (h : IsPortable root t) : portable root t = t := by
  have hslashed : slashed t = t := by
    rw [slashed, h.trim, replaceChar_of_notMem h.slash, h.drive]
  rw [ImportRepair.portable_eq, hslashed, h.below, h.here]

theorem isPortable_of_portable_eq (h : portable root t = t) : IsPortable root t := by
  have hsuffix := portable_suffix root t
  have hslashed := slashed_suffix t
  have hlength := hsuffix.length_le
  have hlength' := hslashed.length_le
  have htrim := (trim_isInfix t).length_le
  rw [h] at hsuffix hlength
  rw [length_replaceChar] at hlength'
  have htrimmed : t.trim = t := (trim_isInfix t).eq_of_length (by omega)
  -- All stages together drop nothing, so each of them drops nothing.
  have hself : slashed t = t := (hsuffix.eq_of_length (by omega)).symm
  have hbelow : belowRoot root t = t := by
    refine (belowRoot_suffix root t).eq_of_length (Nat.le_antisymm ?_ ?_)
    · exact (belowRoot_suffix root t).length_le
    · have hhere := (dropHere_suffix (belowRoot root t)).length_le
      rw [ImportRepair.portable_eq, hself] at h
      rwa [h] at hhere
  have hslash : '\\' ∉ t := hself ▸ notMem_slashed t
  refine ⟨htrimmed, hslash, ?_, hbelow, ?_⟩
  · rwa [slashed, htrimmed, replaceChar_of_notMem hslash] at hself
  · rwa [ImportRepair.portable_eq, hself, hbelow] at h

theorem portable_eq_self_iff : portable root t = t ↔ IsPortable root t :=
  ⟨isPortable_of_portable_eq, IsPortable.portable_eq⟩

/-! ### The portable spelling of a portable spelling -/

theorem dropDrive_eq_self_iff :
    dropDrive t = t ↔ ∀ d v, t = d :: ':' :: '/' :: v → isAsciiLetter d = false := by
  constructor
  · rintro h d v rfl
    rw [Bool.eq_false_iff]
    intro hd
    rw [dropDrive, if_pos hd] at h
    have hlength := congrArg List.length h
    simp only [List.length_cons] at hlength
    omega
  · intro h
    unfold dropDrive
    split
    · next d v => exact if_neg (by simp [h d v rfl])
    · rfl

theorem below_eq_self_iff : below r t = t ↔ r = [] ∨ t ≠ r ∧ ¬ r ++ ['/'] <+: t := by
  cases r with
  | nil => simp [below]
  | cons c r =>
    simp only [reduceCtorEq, false_or]
    by_cases heq : t = c :: r
    · subst heq
      simp [below]
    · rw [below, if_neg (by simp), if_neg heq]
      cases hp : (c :: r ++ ['/']).isPrefixOf? t with
      | none =>
        refine iff_of_true rfl ⟨heq, ?_⟩
        rintro ⟨v, hv⟩
        rw [List.isPrefixOf?_eq_some_iff_append_eq.2 hv] at hp
        cases hp
      | some v =>
        have hv := List.isPrefixOf?_eq_some_iff_append_eq.1 hp
        refine iff_of_false ?_ fun h => h.2 ⟨v, hv⟩
        intro hself
        have hlength := congrArg List.length hv
        rw [Option.getD_some] at hself
        simp only [hself, List.length_append, List.length_cons] at hlength
        omega

/-- What a portable spelling has to look like to be left alone. -/
structure StaysPortable (r t : Text) : Prop where
  blank : Stops isBlank t
  drive : ∀ d v, t = d :: ':' :: '/' :: v → isAsciiLetter d = false
  root : rootSpelling r = [] ∨ t ≠ rootSpelling r ∧ ¬ rootSpelling r ++ ['/'] <+: t

theorem last_replaceChar (h : ∀ c ∈ t.getLast?, isBlank c = false) :
    ∀ c ∈ (replaceChar '\\' '/' t).getLast?, isBlank c = false := by
  intro c hc
  rw [replaceChar, List.getLast?_map] at hc
  obtain ⟨x, hx, rfl⟩ := Option.map_eq_some_iff.1 hc
  split
  · decide +kernel
  · exact h x hx

/-- White space at the end never comes back. -/
theorem last_portable (root : Option Text) (t : Text) :
    ∀ c ∈ (portable root t).getLast?, isBlank c = false := by
  intro c hc
  have hsuffix := (portable_suffix root t).trans (slashed_suffix t)
  have htrim : ∀ d ∈ t.trim.getLast?, isBlank d = false := getLast?_dropEndWhile
  obtain ⟨w, hw⟩ := hsuffix
  refine last_replaceChar htrim c ?_
  rw [← hw, List.getLast?_append, Option.mem_def.1 hc]
  rfl

theorem trim_portable_eq_self_iff :
    trim (portable root t) = portable root t ↔ Stops isBlank (portable root t) := by
  constructor
  · intro h
    by_cases hnil : portable root t = []
    · rw [hnil]
      exact stops_nil
    · rw [← h]
      exact (isTrimmed_trim (h.symm ▸ hnil)).head
  · intro h
    by_cases hnil : portable root t = []
    · rw [hnil]
      rfl
    · exact IsTrimmed.trim_eq ⟨hnil, h, last_portable root t⟩

theorem dropHere_portable (root : Option Text) (t : Text) :
    dropHere (portable root t) = portable root t := by
  rw [portable_eq, dropHere_dropHere]

/-- Making a spelling portable twice is the same as doing it once only if the result has no white
    space, no drive letter and not the root in front. -/
theorem portable_portable_iff :
    portable (some r) (portable (some r) t) = portable (some r) t ↔
      StaysPortable r (portable (some r) t) := by
  rw [portable_eq_self_iff]
  constructor
  · intro h
    exact ⟨trim_portable_eq_self_iff.1 h.trim, dropDrive_eq_self_iff.1 h.drive,
      below_eq_self_iff.1 h.below⟩
  · intro h
    exact ⟨trim_portable_eq_self_iff.2 h.blank, notMem_portable _ _, dropDrive_eq_self_iff.2 h.drive,
      below_eq_self_iff.2 h.root, dropHere_portable _ _⟩

/-! ### Paths below a plain root -/

/-- The root is absolute, and its portable spelling is its text. -/
structure IsPlainRoot (r : Text) : Prop where
  head : r.head? = some '/'
  spelling : rootSpelling r = r

theorem IsPlainRoot.slash (h : IsPlainRoot r) : '\\' ∉ r := by
  intro hmem
  rw [← h.spelling] at hmem
  obtain ⟨w, -, hsplit⟩ := exists_dropEndWhile_append (p := (· == '/')) (t := dropHere (slashed r))
  have hmem' : '\\' ∈ dropHere (slashed r) := by
    rw [hsplit]
    exact List.mem_append_left _ hmem
  exact notMem_slashed r ((dropHere_suffix _).subset hmem')

/-- The name has neither backslashes nor white space at its end and does not start with `./`. -/
structure IsPlainName (t : Text) : Prop where
  slash : '\\' ∉ t
  last : ∀ c ∈ t.getLast?, isBlank c = false
  here : dropHere t = t

theorem portable_below (hr : IsPlainRoot r) (ht : IsPlainName t) :
    portable (some r) (r ++ '/' :: t) = t := by
  obtain ⟨v, rfl⟩ : ∃ v, r = '/' :: v := by
    cases r with
    | nil => cases hr.head
    | cons c v => exact ⟨v, by rw [Option.some.inj hr.head]⟩
  have htrim : trim ('/' :: v ++ '/' :: t) = '/' :: v ++ '/' :: t := by
    refine IsTrimmed.trim_eq ⟨by simp, stops_cons.2 (by decide +kernel), ?_⟩
    intro c hc
    rw [List.getLast?_append, List.getLast?_cons] at hc
    cases hlast : t.getLast? with
    | none =>
      rw [hlast] at hc
      obtain rfl : '/' = c := by simpa using hc
      decide +kernel
    | some d =>
      rw [hlast] at hc
      obtain rfl : d = c := by simpa using hc
      exact ht.last d hlast
  have hslash : '\\' ∉ '/' :: v ++ '/' :: t := by
    have hr' := hr.slash
    simp only [List.mem_append, List.mem_cons, not_or] at hr' ⊢
    exact ⟨hr', by decide, ht.slash⟩
  have hdrive : dropDrive ('/' :: v ++ '/' :: t) = '/' :: v ++ '/' :: t := by
    refine dropDrive_eq_self_iff.2 ?_
    intro d w hw
    rw [← (List.cons.inj hw).1]
    decide
  have hbelow : below ('/' :: v) ('/' :: v ++ '/' :: t) = t := by
    have hprefix : ('/' :: v ++ ['/']).isPrefixOf? ('/' :: v ++ '/' :: t) = some t :=
      List.isPrefixOf?_eq_some_iff_append_eq.2 (by simp)
    rw [below, if_neg (by simp), if_neg (by simp), hprefix, Option.getD_some]
  rw [portable_eq, slashed, htrim, replaceChar_of_notMem hslash, hdrive, belowRoot, hr.spelling,
    hbelow, ht.here]

/-- A relative name without white space or a drive letter in front is left alone. -/
theorem staysPortable_of_plain (hr : IsPlainRoot r) (hblank : Stops isBlank t)
    (hdrive : ∀ d v, t = d :: ':' :: '/' :: v → isAsciiLetter d = false)
    (hroot : t.head? ≠ some '/') : StaysPortable r t := by
  refine ⟨hblank, hdrive, .inr ⟨?_, ?_⟩⟩
  · rw [hr.spelling]
    rintro rfl
    exact hroot hr.head
  · rw [hr.spelling]
    rintro ⟨w, rfl⟩
    refine hroot ?_
    rw [List.append_assoc, List.head?_append, hr.head]
    rfl

end ImportRepair
