import ImportRepair.Proofs.Text.Lines
import ImportRepair.Proofs.Text.Scan

/-!
# The lexical context of a line

Scanning a text from its beginning tells of every place whether it stands in
code, in a string or in a comment, and how many braces are open there.  Only
braces in code count.  A text is neutral if it leads from code back to code and
closes no brace that was open in front of it; such a text can be taken out, and
everything behind it stands in the same context as before.
-/

namespace ImportRepair

open Text

/-- What a place belongs to. -/
inductive Region where
  | code
  /-- Code behind a slash, which may open a comment. -/
  | slash
  | lineComment
  | blockComment
  /-- A comment behind an asterisk, which may close it. -/
  | asterisk
  | quoted (mark : Char)
  /-- A string behind a backslash. -/
  | escaped (mark : Char)
deriving DecidableEq, Repr

/-- A place in a text: its region and the number of open braces. -/
structure Context where
  region : Region := .code
  depth : Int := 0
deriving DecidableEq, Repr

namespace Context

variable {c : Context} {d d' : Int} {t u : Text} {x q : Char}

/-! ### Scanning -/

/-- Behind a character of code. -/
def ofCode (d : Int) (x : Char) : Context :=
  if x = '/' then ⟨.slash, d⟩
  else if x = '\'' ∨ x = '"' ∨ x = '\x60' then ⟨.quoted x, d⟩
  else if x = '\x7b' then ⟨.code, d + 1⟩
  else if x = '\x7d' then ⟨.code, d - 1⟩
  else ⟨.code, d⟩

/-- Behind one more character.  A string between plain quotation marks ends with its line, one
    between backticks does not. -/
def step (c : Context) (x : Char) : Context :=
  match c.region with
  | .code => ofCode c.depth x
  | .slash =>
    if x = '/' then ⟨.lineComment, c.depth⟩
    else if x = '*' then ⟨.blockComment, c.depth⟩
    else ofCode c.depth x
  | .lineComment => if x = '\n' then ⟨.code, c.depth⟩ else c
  | .blockComment => if x = '*' then ⟨.asterisk, c.depth⟩ else c
  | .asterisk =>
    if x = '/' then ⟨.code, c.depth⟩
    else if x = '*' then c
    else ⟨.blockComment, c.depth⟩
  | .quoted q =>
    if x = q then ⟨.code, c.depth⟩
    else if x = '\\' then ⟨.escaped q, c.depth⟩
    else if x = '\n' ∧ q ≠ '\x60' then ⟨.code, c.depth⟩
    else c
  | .escaped q => ⟨.quoted q, c.depth⟩

def scan (c : Context) (t : Text) : Context := t.foldl step c

/-- While the text is scanned, at least `d` braces are open. -/
def Stays (d : Int) : Context → Text → Prop
  | c, [] => d ≤ c.depth
  | c, x :: t => d ≤ c.depth ∧ Stays d (c.step x) t

/-- The place stands in a comment that may go over several lines. -/
def InComment (c : Context) : Prop := c.region = .blockComment ∨ c.region = .asterisk

instance (c : Context) : Decidable c.InComment := inferInstanceAs (Decidable (_ ∨ _))

instance decidableStays (d : Int) : (c : Context) → (t : Text) → Decidable (Stays d c t)
  | c, [] => inferInstanceAs (Decidable (d ≤ c.depth))
  | c, x :: t =>
    have := decidableStays d (c.step x) t
    inferInstanceAs (Decidable (d ≤ c.depth ∧ Stays d (c.step x) t))

@[simp] theorem scan_nil : c.scan [] = c := rfl

@[simp] theorem scan_cons : c.scan (x :: t) = (c.step x).scan t := rfl

theorem scan_append : c.scan (t ++ u) = (c.scan t).scan u := List.foldl_append

theorem Stays.le (h : Stays d c t) : d ≤ c.depth := by
  cases t with
  | nil => exact h
  | cons x t => exact h.1

theorem Stays.mono (h : Stays d c t) (hle : d' ≤ d) : Stays d' c t := by
  induction t generalizing c with
  | nil => exact Int.le_trans hle h
  | cons x t ih => exact ⟨Int.le_trans hle h.1, ih h.2⟩

theorem stays_append : Stays d c (t ++ u) ↔ Stays d c t ∧ Stays d (c.scan t) u := by
  induction t generalizing c with
  | nil => exact ⟨fun h => ⟨h.le, h⟩, fun h => h.2⟩
  | cons x t ih =>
    simp only [List.cons_append, Stays, ih, scan_cons, and_assoc]

/-! ### Neutral texts -/

/-- The text leads from code to code and closes no brace that was open in front of it. -/
def Neutral (t : Text) : Prop := ∀ d, scan ⟨.code, d⟩ t = ⟨.code, d⟩ ∧ Stays d ⟨.code, d⟩ t

theorem neutral_nil : Neutral [] := fun d => ⟨rfl, Int.le_refl d⟩

theorem Neutral.append (ht : Neutral t) (hu : Neutral u) : Neutral (t ++ u) := by
  intro d
  obtain ⟨hscan, hstays⟩ := ht d
  obtain ⟨hscan', hstays'⟩ := hu d
  rw [scan_append, stays_append, hscan]
  exact ⟨hscan', hstays, hstays'⟩

/-- A character that leaves code as it is. -/
def isPlain (x : Char) : Bool :=
  x != '/' && x != '\'' && x != '"' && x != '\x60' && x != '\x7b' && x != '\x7d'

theorem ofCode_of_isPlain (h : isPlain x = true) (d : Int) : ofCode d x = ⟨.code, d⟩ := by
  simp only [isPlain, Bool.and_eq_true, bne_iff_ne] at h
  obtain ⟨⟨⟨⟨⟨hslash, hsingle⟩, hdouble⟩, hback⟩, hopen⟩, hclose⟩ := h
  simp only [ofCode, hslash, hsingle, hdouble, hback, hopen, hclose, or_self, if_false]

theorem neutral_of_allIn (h : AllIn isPlain t) : Neutral t := by
  induction t with
  | nil => exact neutral_nil
  | cons x t ih =>
    intro d
    obtain ⟨hx, ht⟩ := allIn_cons.1 h
    have hstep : step ⟨.code, d⟩ x = ⟨.code, d⟩ := ofCode_of_isPlain hx d
    obtain ⟨hscan, hstays⟩ := ih ht d
    rw [scan_cons, hstep]
    refine ⟨hscan, Int.le_refl d, ?_⟩
    rw [hstep]
    exact hstays

theorem Neutral.braces (h : Neutral t) : Neutral ('\x7b' :: (t ++ ['\x7d'])) := by
  intro d
  obtain ⟨hscan, hstays⟩ := h (d + 1)
  have hopen : step ⟨.code, d⟩ '\x7b' = ⟨.code, d + 1⟩ := rfl
  have hclose : step ⟨.code, d + 1⟩ '\x7d' = ⟨.code, d⟩ := by
    rw [show step ⟨.code, d + 1⟩ '\x7d' = ⟨.code, d + 1 - 1⟩ from rfl, Int.add_sub_cancel]
  refine ⟨?_, Int.le_refl d, ?_⟩
  · rw [scan_cons, hopen, scan_append, hscan, scan_cons, hclose, scan_nil]
  · rw [hopen, stays_append, hscan]
    have hle : d ≤ d + 1 := by omega
    refine ⟨hstays.mono hle, hle, ?_⟩
    rw [hclose]
    exact Int.le_refl d

theorem scan_of_step (h : ∀ y ∈ t, c.step y = c) : c.scan t = c ∧ Stays c.depth c t := by
  induction t with
  | nil => exact ⟨rfl, Int.le_refl _⟩
  | cons y t ih =>
    have hstep := h y List.mem_cons_self
    obtain ⟨hscan, hstays⟩ := ih fun z hz => h z (List.mem_cons_of_mem _ hz)
    rw [scan_cons, hstep]
    refine ⟨hscan, Int.le_refl _, ?_⟩
    rw [hstep]
    exact hstays

theorem neutral_quoted (hq : q = '\'' ∨ q = '"') (ht : ∀ y ∈ t, y ≠ q ∧ y ≠ '\\' ∧ y ≠ '\n') :
    Neutral (q :: (t ++ [q])) := by
  intro d
  have hopen : step ⟨.code, d⟩ q = ⟨.quoted q, d⟩ := by rcases hq with rfl | rfl <;> rfl
  have hinside : ∀ y ∈ t, step ⟨.quoted q, d⟩ y = ⟨.quoted q, d⟩ := by
    intro y hy
    obtain ⟨hne, hslash, hline⟩ := ht y hy
    simp only [step, hne, hslash, hline, false_and, if_false]
  have hclose : step ⟨.quoted q, d⟩ q = ⟨.code, d⟩ := by simp only [step, if_true]
  obtain ⟨hscan, hstays⟩ := scan_of_step hinside
  refine ⟨?_, Int.le_refl d, ?_⟩
  · rw [scan_cons, hopen, scan_append, hscan, scan_cons, hclose, scan_nil]
  · rw [hopen, stays_append, hscan]
    refine ⟨hstays, Int.le_refl d, ?_⟩
    rw [hclose]
    exact Int.le_refl d

theorem neutral_comment (ht : '\n' ∉ t) : Neutral ('/' :: '/' :: (t ++ ['\n'])) := by
  intro d
  have hopen : scan ⟨.code, d⟩ ['/', '/'] = ⟨.lineComment, d⟩ := rfl
  have hinside : ∀ y ∈ t, step ⟨.lineComment, d⟩ y = ⟨.lineComment, d⟩ := by
    intro y hy
    have hne : y ≠ '\n' := fun heq => ht (heq ▸ hy)
    simp only [step, hne, if_false]
  have hclose : step ⟨.lineComment, d⟩ '\n' = ⟨.code, d⟩ := rfl
  obtain ⟨hscan, hstays⟩ := scan_of_step hinside
  have hsplit : '/' :: '/' :: (t ++ ['\n']) = ['/', '/'] ++ (t ++ ['\n']) := rfl
  rw [hsplit, scan_append, stays_append, hopen, scan_append, stays_append, hscan]
  exact ⟨hclose, ⟨Int.le_refl d, Int.le_refl d, Int.le_refl d⟩, hstays, Int.le_refl d,
    Int.le_refl d⟩

/-! ### Lines -/

def ofLines (ps : List (Int × Text)) : Text := ps.flatMap fun p => p.2 ++ ['\n']

/-- The lines that are left when the lines of one kind are taken out where they stand in code. -/
def without (p : Int × Text → Bool) : Context → List (Int × Text) → List (Int × Text)
  | _, [] => []
  | c, a :: ps =>
    if c.region = .code ∧ p a = true then without p (c.scan (a.2 ++ ['\n'])) ps
    else a :: without p (c.scan (a.2 ++ ['\n'])) ps

/-- **Neutral lines can be taken out.** -/
theorem scan_without {p : Int × Text → Bool} {ps : List (Int × Text)}
    (h : ∀ a ∈ ps, p a = true → Neutral (a.2 ++ ['\n'])) :
    c.scan (ofLines (c.without p ps)) = c.scan (ofLines ps) ∧
      (Stays d c (ofLines (c.without p ps)) ↔ Stays d c (ofLines ps)) := by
  induction ps generalizing c with
  | nil => exact ⟨rfl, Iff.rfl⟩
  | cons a ps ih =>
    have hneutral := h a List.mem_cons_self
    have hlines : ∀ qs, ofLines (a :: qs) = (a.2 ++ ['\n']) ++ ofLines qs := fun _ => rfl
    rw [without, hlines]
    generalize a.2 ++ ['\n'] = line at hneutral hlines ⊢
    obtain ⟨hscan, hstays⟩ := ih (c := c.scan line) fun b hb => h b (List.mem_cons_of_mem _ hb)
    rw [scan_append, stays_append]
    split
    · next hout =>
      -- the line leads back to the context in front of it
      obtain ⟨hcode, hp⟩ := hout
      have hc : c = ⟨.code, c.depth⟩ := by rw [← hcode]
      obtain ⟨hsame, hline⟩ := hneutral hp c.depth
      rw [← hc] at hsame hline
      rw [hsame] at hscan hstays ⊢
      exact ⟨hscan, hstays.trans
        ⟨fun hrest => ⟨hline.mono hrest.le, hrest⟩, fun hrest => hrest.2⟩⟩
    · rw [hlines, scan_append, stays_append]
      exact ⟨hscan, and_congr_right fun _ => hstays⟩

end Context

/-! ### Places in a text -/

def contextAt (t : Text) (n : Int) : Context :=
  Context.scan {} (Context.ofLines ((numberedLines t).filter fun p => p.1 < n))

/-- The lines from one number up to another one, without the last. -/
def linesBetween (t : Text) (m n : Int) : List (Int × Text) :=
  (numberedLines t).filter fun p => m ≤ p.1 ∧ p.1 < n

/-- Two lines share a live context: none of them begins in a comment, and no brace that is open at
    the first is closed in front of the second. -/
structure SharesContext (t : Text) (m n : Int) : Prop where
  first : ¬ (contextAt t m).InComment
  second : ¬ (contextAt t n).InComment
  stays : Context.Stays (contextAt t m).depth (contextAt t m)
    (Context.ofLines (linesBetween t m n))

theorem sharesContext_iff {t : Text} {m n : Int} : SharesContext t m n ↔
    ¬ (contextAt t m).InComment ∧ ¬ (contextAt t n).InComment ∧
      Context.Stays (contextAt t m).depth (contextAt t m)
        (Context.ofLines (linesBetween t m n)) :=
  ⟨fun h => ⟨h.first, h.second, h.stays⟩, fun h => ⟨h.1, h.2.1, h.2.2⟩⟩

instance (t : Text) (m n : Int) : Decidable (SharesContext t m n) :=
  decidable_of_iff _ sharesContext_iff.symm

theorem filter_lt_eq_append {t : Text} {m n : Int} (h : m ≤ n) :
    (numberedLines t).filter (fun p => p.1 < n) =
      (numberedLines t).filter (fun p => p.1 < m) ++ linesBetween t m n := by
  have hsorted := pairwise_numberFrom 1 (lines t)
  rw [linesBetween, numberedLines_eq]
  generalize numberFrom 1 (lines t) = qs at hsorted ⊢
  induction qs with
  | nil => rfl
  | cons p ps ih =>
    obtain ⟨hp, hps⟩ := List.pairwise_cons.1 hsorted
    by_cases hm : p.1 < m
    · have hn : p.1 < n := by omega
      have hnot : ¬ m ≤ p.1 := by omega
      simp only [List.filter_cons, hm, hn, hnot, decide_true, false_and, decide_false, if_true,
        Bool.false_eq_true, if_false, ih hps, List.cons_append]
    · have hnone : (p :: ps).filter (fun r => decide (r.1 < m)) = [] := by
        rw [List.filter_eq_nil_iff]
        intro r hr
        rw [decide_eq_true_eq]
        rcases List.mem_cons.1 hr with rfl | hr
        · exact hm
        · have hlt := hp r hr
          omega
      rw [hnone, List.nil_append]
      refine List.filter_congr fun r hr => ?_
      have hle : m ≤ r.1 := by
        rcases List.mem_cons.1 hr with rfl | hr
        · omega
        · have hlt := hp r hr
          omega
      simp only [hle, true_and]

theorem contextAt_eq_scan {t : Text} {m n : Int} (h : m ≤ n) :
    contextAt t n = (contextAt t m).scan (Context.ofLines (linesBetween t m n)) := by
  rw [contextAt, contextAt, ← Context.scan_append, filter_lt_eq_append h]
  congr 1
  exact List.flatMap_append

end ImportRepair
