import ImportRepair.Fix.Console

/-!
# The language of complete arguments

The arguments of a call are read in one pass that counts open parentheses and
skips strings.  What this pass accepts is a context-free language: nothing, a
character that is neither a parenthesis nor a string mark, a string, or such a
text in parentheses, each in front of such a text again.

In the middle of its pass the automaton has some parentheses open.  What it
still accepts then is one such text for each of them, a closing parenthesis
behind each, and one more text at the end.
-/

namespace ImportRepair

variable {t u r s p : Text} {c m : Char} {depth n : Nat}

/-! ### The grammar -/

/-- What stands between the marks of a string: pairs of a backslash and any character, and
    characters other than the mark and the backslash. -/
inductive IsStringBody (m : Char) : Text → Prop
  | nil : IsStringBody m []
  | escape (c : Char) {s : Text} (h : IsStringBody m s) : IsStringBody m ('\\' :: c :: s)
  | char {c : Char} {s : Text} (hmark : c ≠ m) (hback : c ≠ '\\') (h : IsStringBody m s) :
      IsStringBody m (c :: s)

/-- Complete arguments: every parenthesis has its partner, and every string is closed. -/
inductive IsArguments : Text → Prop
  | nil : IsArguments []
  | char {c : Char} {t : Text} (hmark : isStringMark c = false) (hopen : c ≠ '(')
      (hclose : c ≠ ')') (h : IsArguments t) : IsArguments (c :: t)
  | string {m : Char} {s t : Text} (hmark : isStringMark m = true) (hs : IsStringBody m s)
      (h : IsArguments t) : IsArguments (m :: (s ++ m :: t))
  | parenthesised {u t : Text} (hu : IsArguments u) (h : IsArguments t) :
      IsArguments ('(' :: (u ++ ')' :: t))

/-! ### Steps of the pass -/

theorem ne_backslash_of_isStringMark (h : isStringMark m = true) : m ≠ '\\' := by
  rintro rfl
  exact absurd h (by decide)

theorem isBalanced_escape :
    isBalanced (.escape m) depth (c :: r) = isBalanced (.string m) depth r := rfl

theorem isBalanced_backslash :
    isBalanced (.string m) depth ('\\' :: r) = isBalanced (.escape m) depth r := by
  rw [isBalanced, if_pos rfl]

theorem isBalanced_endString (hm : m ≠ '\\') :
    isBalanced (.string m) depth (m :: r) = isBalanced .plain depth r := by
  rw [isBalanced, if_neg hm, if_pos rfl]

theorem isBalanced_inString (hmark : c ≠ m) (hback : c ≠ '\\') :
    isBalanced (.string m) depth (c :: r) = isBalanced (.string m) depth r := by
  rw [isBalanced, if_neg hback, if_neg hmark]

theorem isBalanced_beginString (hm : isStringMark m = true) :
    isBalanced .plain depth (m :: r) = isBalanced (.string m) depth r := by
  simp only [isBalanced, if_pos hm]

theorem isBalanced_open :
    isBalanced .plain depth ('(' :: r) = isBalanced .plain (depth + 1) r := by
  have hmark : ¬ isStringMark '(' = true := by decide
  simp only [isBalanced, if_neg hmark, if_pos]

theorem isBalanced_close :
    isBalanced .plain (depth + 1) (')' :: r) = isBalanced .plain depth r := by
  have hmark : ¬ isStringMark ')' = true := by decide
  have hopen : ¬ ')' = '(' := by decide
  simp only [isBalanced, if_neg hmark, if_neg hopen, if_pos]

theorem isBalanced_char (hmark : isStringMark c = false) (hopen : c ≠ '(') (hclose : c ≠ ')') :
    isBalanced .plain depth (c :: r) = isBalanced .plain depth r := by
  simp only [isBalanced, hmark, Bool.false_eq_true, if_false, if_neg hopen, if_neg hclose]

/-! ### The pass over derived texts -/

/-- A string is skipped up to its closing mark. -/
theorem isBalanced_string (hm : m ≠ '\\') (h : IsStringBody m s) :
    isBalanced (.string m) depth (s ++ m :: r) = isBalanced .plain depth r := by
  induction h with
  | nil => exact isBalanced_endString hm
  | escape c _ ih =>
    rw [List.cons_append, List.cons_append, isBalanced_backslash, isBalanced_escape, ih]
  | char hmark hback _ ih => rw [List.cons_append, isBalanced_inString hmark hback, ih]

/-- Behind complete arguments the pass is where it was in front of them. -/
theorem isBalanced_arguments (h : IsArguments u) :
    isBalanced .plain depth (u ++ r) = isBalanced .plain depth r := by
  induction h generalizing depth r with
  | nil => rfl
  | char hmark hopen hclose _ ih =>
    rw [List.cons_append, isBalanced_char hmark hopen hclose, ih]
  | string hmark hs _ ih =>
    rw [List.cons_append, List.append_assoc, List.cons_append, isBalanced_beginString hmark,
      isBalanced_string (ne_backslash_of_isStringMark hmark) hs, ih]
  | parenthesised _ _ ihu ih =>
    rw [List.cons_append, List.append_assoc, List.cons_append, isBalanced_open, ihu,
      isBalanced_close, ih]

/-! ### What the pass accepts from any of its states -/

/-- The text closes `n` parentheses: arguments and a closing parenthesis for each of them, and
    arguments behind the last. -/
inductive Finishes : Nat → Text → Prop
  | last {t : Text} (h : IsArguments t) : Finishes 0 t
  | close {u t : Text} {n : Nat} (hu : IsArguments u) (h : Finishes n t) :
      Finishes (n + 1) (u ++ ')' :: t)

/-- What may follow in a region where `depth` parentheses are open. -/
def Continues (region : ArgumentRegion) (depth : Nat) (t : Text) : Prop :=
  match region with
  | .plain => Finishes depth t
  | .string m => ∃ s r, IsStringBody m s ∧ t = s ++ m :: r ∧ Finishes depth r
  | .escape m => ∃ c s r, IsStringBody m s ∧ t = c :: (s ++ m :: r) ∧ Finishes depth r

/-- A piece that may stand in front of all arguments may stand in front of a text that closes. -/
theorem Finishes.behind (hp : ∀ u, IsArguments u → IsArguments (p ++ u)) (h : Finishes n t) :
    Finishes n (p ++ t) := by
  cases h with
  | last h => exact .last (hp _ h)
  | close hu h =>
    rw [← List.append_assoc]
    exact .close (hp _ hu) h

theorem Finishes.char (hmark : isStringMark c = false) (hopen : c ≠ '(') (hclose : c ≠ ')')
    (h : Finishes n t) : Finishes n (c :: t) := by
  apply h.behind (p := [c])
  intro u hu
  exact .char hmark hopen hclose hu

theorem Finishes.string (hmark : isStringMark m = true) (hs : IsStringBody m s) (h : Finishes n t) :
    Finishes n (m :: (s ++ m :: t)) := by
  rw [List.append_cons]
  apply h.behind (p := m :: (s ++ [m]))
  intro u hu
  rw [List.cons_append, ← List.append_cons]
  exact .string hmark hs hu

/-- A parenthesis that is opened is the first that will be closed. -/
theorem Finishes.open (h : Finishes (n + 1) t) : Finishes n ('(' :: t) := by
  cases h with
  | close hu h =>
    rw [List.append_cons]
    apply h.behind (p := '(' :: (_ ++ [')']))
    intro v hv
    rw [List.cons_append, ← List.append_cons]
    exact .parenthesised hu hv

/-- **What the automaton accepts from each of its states.**  The induction is on the unread text:
    each character either goes on with a derivation of the rest or begins a new piece in front. -/
theorem continues_of_isBalanced {region : ArgumentRegion}
    (h : isBalanced region depth t = true) : Continues region depth t := by
  induction t generalizing region depth with
  | nil =>
    rw [isBalanced, Bool.and_eq_true, beq_iff_eq, beq_iff_eq] at h
    obtain ⟨rfl, rfl⟩ := h
    exact .last .nil
  | cons c t ih =>
    cases region with
    | escape m =>
      obtain ⟨s, r, hs, rfl, hr⟩ := ih h
      exact ⟨c, s, r, hs, rfl, hr⟩
    | string m =>
      by_cases hback : c = '\\'
      · subst hback
        rw [isBalanced_backslash] at h
        obtain ⟨d, s, r, hs, rfl, hr⟩ := ih h
        exact ⟨'\\' :: d :: s, r, .escape d hs, rfl, hr⟩
      by_cases hmark : c = m
      · subst hmark
        rw [isBalanced_endString hback] at h
        exact ⟨[], t, .nil, rfl, ih h⟩
      rw [isBalanced_inString hmark hback] at h
      obtain ⟨s, r, hs, rfl, hr⟩ := ih h
      exact ⟨c :: s, r, .char hmark hback hs, rfl, hr⟩
    | plain =>
      by_cases hmark : isStringMark c = true
      · rw [isBalanced_beginString hmark] at h
        obtain ⟨s, r, hs, rfl, hr⟩ := ih h
        exact hr.string hmark hs
      rw [Bool.not_eq_true] at hmark
      by_cases hopen : c = '('
      · subst hopen
        rw [isBalanced_open] at h
        exact Finishes.open (ih h)
      by_cases hclose : c = ')'
      · subst hclose
        cases depth with
        | zero => exact absurd h Bool.false_ne_true
        | succ n =>
          rw [isBalanced_close] at h
          exact .close .nil (ih h)
      rw [isBalanced_char hmark hopen hclose] at h
      exact Finishes.char hmark hopen hclose (ih h)

/-! ### The language -/

/-- **The pass accepts exactly complete arguments.**  One direction reads off what the automaton
    accepts with nothing open, the other follows the derivation. -/
theorem isOneCall_iff_isArguments (t : Text) : isOneCall t = true ↔ IsArguments t := by
  rw [isOneCall]
  constructor
  · intro h
    cases continues_of_isBalanced h with
    | last ht => exact ht
  · intro h
    have hend : isBalanced .plain 0 (t ++ []) = isBalanced .plain 0 [] := isBalanced_arguments h
    rw [List.append_nil] at hend
    rw [hend]
    rfl

example : isOneCall "'a\\')', (b)".toList = true := by decide

end ImportRepair
