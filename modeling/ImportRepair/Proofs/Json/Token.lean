import ImportRepair.Json.Comments
import ImportRepair.Json.Reader
import ImportRepair.Proofs.Json.Lexeme

/-!
# Documents as tokens and gaps

A document is a row of tokens with gaps between them.  The reader looks at the
tokens only: it gives the same value for every text in which the same tokens
are written.  With comments, a gap may hold comments besides white space, and a
comma may stand in front of a closing bracket.
-/

namespace ImportRepair.Json

open Text

/-! ### Tokens -/

/-- The characters that are lexemes of their own. -/
inductive Mark where
  | openArray
  | closeArray
  | openObject
  | closeObject
  | colon
  | comma
deriving DecidableEq, Repr

namespace Mark

def char : Mark → Char
  | openArray => '['
  | closeArray => ']'
  | openObject => '\x7b'
  | closeObject => '\x7d'
  | colon => ':'
  | comma => ','

def lexeme : Mark → Lexeme
  | openArray => .openArray
  | closeArray => .closeArray
  | openObject => .openObject
  | closeObject => .closeObject
  | colon => .colon
  | comma => .comma

def isCloser : Mark → Bool
  | closeArray | closeObject => true
  | _ => false

end Mark

/-- A lexeme as it is written. -/
inductive Token where
  | mark (m : Mark)
  /-- A number, `null`, `true` or `false`. -/
  | scalar (word : Text)
  /-- A string, by what stands between its quotation marks. -/
  | literal (body : Text)
deriving DecidableEq, Repr

namespace Token

def text : Token → Text
  | mark m => [m.char]
  | scalar w => w
  | literal body => '"' :: (body ++ ['"'])

def isScalar : Token → Bool
  | scalar _ => true
  | _ => false

def isCloser : Token → Bool
  | mark m => m.isCloser
  | _ => false

/-- The token is written as the reader expects it, and read as the lexeme. -/
inductive Reads : Token → Lexeme → Prop
  | mark (m : Mark) : Reads (mark m) m.lexeme
  | scalar {w : Text} {l : Lexeme} (hw : AllIn isScalarChar w)
      (h : scalar? w = some (l, w.length)) : Reads (scalar w) l
  | literal {body : Text} {units : List Nat} (hbody : IsBody body)
      (h : scanString 0 0 (body ++ ['"']) = .ok (units, body.length + 1)) :
      Reads (literal body) (.string (joinPairs units))

/-- The token ends where `t` starts: a number or a word does not run on. -/
def Ends (x : Token) (t : Text) : Prop := x.isScalar = true → Stops isScalarChar t

/-- In a document, `y` may come next after `x`. -/
def Fits (x y : Token) : Prop :=
  (x.isScalar = true → y.isScalar = false) ∧ (x = mark .comma → y.isCloser = false)

end Token

/-! ### Texts -/

/-- What a text may hold besides the tokens of a document and white space: comments, and a comma in
    front of a closing bracket. -/
structure Dialect where
  comments : Bool
  lastCommas : Bool
deriving DecidableEq, Repr

def Dialect.plain : Dialect := ⟨false, false⟩

def Dialect.commented : Dialect := ⟨true, true⟩

/-- White space and, if they are allowed, complete comments. -/
inductive IsGap (D : Dialect) : Text → Prop
  | nil : IsGap D []
  | space {c : Char} {g : Text} (hc : isSpace c = true) (h : IsGap D g) : IsGap D (c :: g)
  | line {w g : Text} (hD : D.comments = true) (hw : '\n' ∉ w) (h : IsGap D g) :
      IsGap D ('/' :: '/' :: (w ++ '\n' :: g))
  | block {w g : Text} (hD : D.comments = true) (hw : ¬['*', '/'] <:+: w) (h : IsGap D g) :
      IsGap D ('/' :: '*' :: (w ++ '*' :: '/' :: g))

/-- The text holds the tokens in this order, with gaps between them. -/
inductive Written (D : Dialect) : List Token → Text → Prop
  | nil : Written D [] []
  | gap {g t : Text} {xs : List Token} (hg : IsGap D g) (h : Written D xs t) : Written D xs (g ++ t)
  | token {x : Token} {l : Lexeme} {t : Text} {xs : List Token} (hx : x.Reads l) (hend : x.Ends t)
      (h : Written D xs t) : Written D (x :: xs) (x.text ++ t)
  /-- One comma and a gap in front of a closing bracket. -/
  | lastComma {m : Mark} {g t : Text} {xs : List Token} (hD : D.lastCommas = true)
      (hm : m.isCloser = true) (hg : IsGap D g) (h : Written D xs t) :
      Written D (.mark m :: xs) (',' :: (g ++ m.char :: t))
  /-- A line comment at the end of the text, without a line feed. -/
  | lastLine {w : Text} (hD : D.comments = true) (hw : '\n' ∉ w) : Written D [] ('/' :: '/' :: w)

variable {limit : Nat}
variable {D E : Dialect} {x y : Token} {xs : List Token} {l l' : Lexeme} {ls : List Lexeme}
  {w w' w'' : Waiting} {stack stack' stack'' : List Frame} {v : Json} {t u g : Text} {c : Char}
  {offset offset' : Nat} {ps qs : List (Nat × Lexeme)}

theorem IsGap.mono (hg : IsGap D g) (hcomments : D.comments = true → E.comments = true) :
    IsGap E g := by
  induction hg with
  | nil => exact .nil
  | space hc _ ih => exact .space hc ih
  | line hD hw _ ih => exact .line (hcomments hD) hw ih
  | block hD hw _ ih => exact .block (hcomments hD) hw ih

theorem Written.mono (h : Written D xs t) (hcomments : D.comments = true → E.comments = true)
    (hcommas : D.lastCommas = true → E.lastCommas = true) : Written E xs t := by
  induction h with
  | nil => exact .nil
  | gap hg _ ih => exact .gap (hg.mono hcomments) ih
  | token hx hend _ ih => exact .token hx hend ih
  | lastComma hD hm hg _ ih => exact .lastComma (hcommas hD) hm (hg.mono hcomments) ih
  | lastLine hD hw => exact .lastLine (hcomments hD) hw

/-! ### Characters -/

theorem isBlank_of_isSpace (h : isSpace c = true) : isBlank c = true := by
  simp only [isSpace, Bool.or_eq_true, beq_iff_eq] at h
  rcases h with ((rfl | rfl) | rfl) | rfl
  all_goals decide

theorem isBlank_of_isScalarChar (h : isScalarChar c = true) : isBlank c = false := by
  have hcode : 43 ≤ c.toNat ∧ c.toNat ≤ 122 := by
    simp only [isScalarChar, isAsciiLetter, isDecimalDigit, Bool.or_eq_true, Bool.and_eq_true,
      decide_eq_true_eq, beq_iff_eq] at h
    rcases h with ((((⟨hlow, hhigh⟩ | ⟨hlow, hhigh⟩) | ⟨hlow, hhigh⟩) | rfl) | rfl) | rfl
    · exact ⟨Nat.le_trans (by decide) hlow, hhigh⟩
    · exact ⟨Nat.le_trans (by decide) hlow, Nat.le_trans hhigh (by decide)⟩
    · exact ⟨Nat.le_trans (by decide) hlow, Nat.le_trans hhigh (by decide)⟩
    all_goals decide
  have hcovers : Ranges.covers [(43, 122)] c.toNat = true :=
    Ranges.covers_iff.2 ⟨(43, 122), by simp, hcode⟩
  exact Ranges.not_covers (by decide) hcovers

theorem isCloser_of_isScalarChar (h : isScalarChar c = true) : Jsonc.isCloser c = false := by
  rw [Bool.eq_false_iff]
  intro hcloser
  simp only [Jsonc.isCloser, Bool.or_eq_true, beq_iff_eq] at hcloser
  rcases hcloser with rfl | rfl
  all_goals exact absurd h (by decide)

theorem isSpace_of_isScalarChar (h : isScalarChar c = true) : isSpace c = false := by
  rw [Bool.eq_false_iff]
  intro hspace
  have hblank := isBlank_of_isSpace hspace
  rw [isBlank_of_isScalarChar h] at hblank
  cases hblank

/-! ### Lexemes of a written text -/

theorem lexFrom_skip : lexFrom u.length offset (u ++ t) = lexFrom 0 (offset + u.length) t := by
  induction u generalizing offset with
  | nil => rfl
  | cons c u ih =>
    rw [List.length_cons, List.cons_append, lexFrom, ih, Nat.add_assoc, Nat.add_comm 1]

theorem lexFrom_of_lexeme (hc : isSpace c = false) {n : Nat} (hn : n = u.length + 1)
    (h : lexeme offset c (u ++ t) = (l, n)) :
    lexFrom 0 offset (c :: (u ++ t)) = (offset, l) :: lexFrom 0 (offset + (u.length + 1)) t := by
  rw [lexFrom, if_neg (by simp [hc]), h, hn]
  simp only [Nat.add_sub_cancel, lexFrom_skip]
  rw [Nat.add_assoc, Nat.add_comm 1]

theorem lexFrom_space (hc : isSpace c = true) :
    lexFrom 0 offset (c :: t) = lexFrom 0 (offset + 1) t := by
  rw [lexFrom, if_pos hc]

theorem lexFrom_gap (hg : IsGap .plain g) :
    lexFrom 0 offset (g ++ t) = lexFrom 0 (offset + g.length) t := by
  induction hg generalizing offset with
  | nil => rfl
  | space hc _ ih =>
    rw [List.cons_append, lexFrom_space hc, ih, List.length_cons, Nat.add_assoc, Nat.add_comm 1]
  | line hD => cases hD
  | block hD => cases hD

theorem Token.Reads.lexFrom_append (hx : x.Reads l) (hend : x.Ends t) :
    lexFrom 0 offset (x.text ++ t) = (offset, l) :: lexFrom 0 (offset + x.text.length) t := by
  cases hx with
  | mark m => cases m <;> exact lexFrom_of_lexeme (u := []) (by decide) rfl rfl
  | @scalar word l hw h =>
    cases word with
    | nil => cases h
    | cons c word =>
      have hc := (allIn_cons.1 hw).1
      refine lexFrom_of_lexeme (isSpace_of_isScalarChar hc) rfl ?_
      rw [lexeme_of_isScalarChar hc, ← List.cons_append, scalar?_append (hend rfl), h]
      rfl
  | @literal body units hbody h =>
    have hscan := hbody.scanString_eq (r := []) h offset (offset + 1) t
    have hlexeme : lexeme offset '"' ((body ++ ['"']) ++ t) =
        (.string (joinPairs units), (body ++ ['"']).length + 1) := by
      rw [List.append_assoc, List.singleton_append, lexeme, hscan]
      simp only [List.length_append, List.length_singleton, Prod.mk.injEq, true_and]
      omega
    exact lexFrom_of_lexeme (by decide) rfl hlexeme

/-- The first character of a token tells its kind. -/
theorem Token.Reads.exists_front (h : x.Reads l) :
    ∃ c u, x.text = c :: u ∧ isScalarChar c = x.isScalar ∧ isBlank c = false ∧
      Jsonc.isCloser c = x.isCloser ∧ c ≠ byteOrderMark := by
  cases h with
  | mark m => cases m <;> exact ⟨_, [], rfl, by decide, by decide, by decide, by decide⟩
  | @scalar word _ hw h =>
    cases word with
    | nil => cases h
    | cons c word =>
      have hc := (allIn_cons.1 hw).1
      have hne : c ≠ byteOrderMark := by
        rintro rfl
        exact absurd hc (by decide)
      exact ⟨c, word, rfl, hc, isBlank_of_isScalarChar hc, isCloser_of_isScalarChar hc, hne⟩
  | literal => exact ⟨'"', _, rfl, rfl, by decide, rfl, by decide⟩

theorem Token.Reads.unique (h : x.Reads l) (h' : x.Reads l') : l = l' := by
  cases h with
  | mark m =>
    cases h'
    rfl
  | scalar _ h =>
    cases h' with
    | scalar _ h' =>
      rw [h] at h'
      cases h'
      rfl
  | literal _ h =>
    cases h' with
    | literal _ h' =>
      rw [h] at h'
      cases h'
      rfl

/-- The lexemes of a text are those of its tokens. -/
theorem Written.map_lexFrom (h : Written .plain xs t) :
    ∃ ls, List.Forall₂ Token.Reads xs ls ∧
      ∀ offset, (lexFrom 0 offset t).map (·.2) = ls ++ [.finish] := by
  induction h with
  | nil => exact ⟨[], .nil, fun _ => rfl⟩
  | gap hg _ ih =>
    obtain ⟨ls, hls, hlex⟩ := ih
    exact ⟨ls, hls, fun offset => by rw [lexFrom_gap hg, hlex]⟩
  | @token x l t xs hx hend _ ih =>
    obtain ⟨ls, hls, hlex⟩ := ih
    refine ⟨l :: ls, .cons hx hls, fun offset => ?_⟩
    rw [hx.lexFrom_append hend, List.map_cons, hlex, List.cons_append]
  | lastComma hD => cases hD
  | lastLine hD => cases hD

/-! ### Steps of the reader -/

def Waiting.TakesValue (w : Waiting) : Prop := w = .value ∨ w = .firstItem

/-- What the reader does with a lexeme, whatever its offset. -/
inductive Moves (limit : Nat) : Waiting → List Frame → Lexeme → Waiting → List Frame → Prop
  | openArray {w : Waiting} {stack : List Frame} (hw : w.TakesValue)
      (hdepth : stack.length < limit) :
      Moves limit w stack .openArray .firstItem (.array [] :: stack)
  | openObject {w : Waiting} {stack : List Frame} (hw : w.TakesValue)
      (hdepth : stack.length < limit) :
      Moves limit w stack .openObject .firstName stack
  | atom {w : Waiting} {stack : List Frame} {l : Lexeme} {v : Json} (hw : w.TakesValue)
      (h : ∀ offset, l.toJson offset = .ok v) : Moves limit w stack l (.afterValue v) stack
  | emptyArray {items : List Json} {stack : List Frame} :
      Moves limit .firstItem (.array items :: stack) .closeArray (.afterValue (.array [])) stack
  | emptyObject {stack : List Frame} :
      Moves limit .firstName stack .closeObject (.afterValue (.object [])) stack
  | firstName {t : Text} {stack : List Frame} :
      Moves limit .firstName stack (.string t) (.colon [] t) stack
  | name {fields : List (Text × Json)} {t : Text} {stack : List Frame} :
      Moves limit (.name fields) stack (.string t) (.colon fields t) stack
  | colon {fields : List (Text × Json)} {t : Text} {stack : List Frame} :
      Moves limit (.colon fields t) stack .colon .value (.object fields t :: stack)
  | nextItem {v : Json} {items : List Json} {stack : List Frame} :
      Moves limit (.afterValue v) (.array items :: stack) .comma .value
        (.array (v :: items) :: stack)
  | endArray {v : Json} {items : List Json} {stack : List Frame} :
      Moves limit (.afterValue v) (.array items :: stack) .closeArray
        (.afterValue (.array (v :: items).reverse)) stack
  | nextName {v : Json} {fields : List (Text × Json)} {t : Text} {stack : List Frame} :
      Moves limit (.afterValue v) (.object fields t :: stack) .comma
        (.name (setField fields t v)) stack
  | endObject {v : Json} {fields : List (Text × Json)} {t : Text} {stack : List Frame} :
      Moves limit (.afterValue v) (.object fields t :: stack) .closeObject
        (.afterValue (.object (setField fields t v))) stack

theorem toJson_eq_ok (h : l.toJson offset = .ok v) (offset' : Nat) : l.toJson offset' = .ok v := by
  cases l with
  | null => exact h
  | bool => exact h
  | number => exact h
  | string => exact h
  | _ => cases h

theorem moves_of_openContainer {k : Container} (hw : w.TakesValue)
    (h : openContainer limit k stack = .ok (w', stack')) :
    Moves limit w stack (match k with | .array => .openArray | .object => .openObject)
      w' stack' := by
  unfold openContainer at h
  split at h
  · cases h
  · next hdepth =>
    have hdepth := Nat.lt_of_not_le hdepth
    cases k <;> cases h
    · exact .openArray hw hdepth
    · exact .openObject hw hdepth

theorem moves_of_stepValue (hw : w.TakesValue)
    (h : stepValue limit stack offset l = .ok (w', stack')) :
    Moves limit w stack l w' stack' := by
  unfold stepValue at h
  split at h
  · exact moves_of_openContainer hw h
  · exact moves_of_openContainer hw h
  · obtain ⟨v, hv, hmove⟩ := map_eq_ok_iff.1 h
    cases hmove
    exact .atom hw (toJson_eq_ok hv)

theorem stepName_eq_ok {fields : List (Text × Json)}
    (h : stepName fields stack offset l = .ok (w', stack')) :
    ∃ t, l = .string t ∧ w' = .colon fields t ∧ stack' = stack := by
  unfold stepName at h
  split at h <;> cases h
  exact ⟨_, rfl, rfl, rfl⟩

theorem moves_of_step (h : step limit w stack offset l = .ok (w', stack')) :
    Moves limit w stack l w' stack' := by
  unfold step at h
  split at h
  · exact moves_of_stepValue (.inl rfl) h
  · split at h
    · cases h
      exact .emptyArray
    · exact moves_of_stepValue (.inr rfl) h
  · split at h
    · cases h
      exact .emptyObject
    · obtain ⟨t, rfl, rfl, rfl⟩ := stepName_eq_ok h
      exact .firstName
  · obtain ⟨t, rfl, rfl, rfl⟩ := stepName_eq_ok h
    exact .name
  · split at h <;> cases h
    exact .colon
  · split at h <;> cases h
    · exact .nextItem
    · exact .endArray
    · exact .nextName
    · exact .endObject

theorem step_of_moves (h : Moves limit w stack l w' stack') (offset : Nat) :
    step limit w stack offset l = .ok (w', stack') := by
  cases h with
  | openArray hw hdepth =>
    have hopen : stepValue limit stack offset .openArray =
        .ok (.firstItem, .array [] :: stack) := by
      simp [stepValue, openContainer, Nat.not_le.2 hdepth]
    rcases hw with rfl | rfl
    · exact hopen
    · exact hopen
  | openObject hw hdepth =>
    have hopen : stepValue limit stack offset .openObject = .ok (.firstName, stack) := by
      simp [stepValue, openContainer, Nat.not_le.2 hdepth]
    rcases hw with rfl | rfl
    · exact hopen
    · exact hopen
  | @atom _ _ _ v hw h =>
    have hvalue : stepValue limit stack offset l = .ok (.afterValue v, stack) := by
      cases l with
      | openArray => cases h 0
      | openObject => cases h 0
      | _ => simp only [stepValue, h, Except.map]
    rcases hw with rfl | rfl
    · exact hvalue
    · cases l with
      | closeArray => cases h 0
      | _ => exact hvalue
  | _ => rfl

theorem readLexemes_cons (hl : l ≠ .finish)
    (h : readLexemes limit w stack ((offset, l) :: ps) = .ok v) :
    ∃ w' stack', Moves limit w stack l w' stack' ∧ readLexemes limit w' stack' ps = .ok v := by
  unfold readLexemes at h
  split at h
  · exact absurd rfl hl
  · obtain ⟨⟨w', stack'⟩, hstep, hrest⟩ := bind_eq_ok_iff.1 h
    exact ⟨w', stack', moves_of_step hstep, hrest⟩

/-- What is read does not depend on where the lexemes stand. -/
theorem readLexemes_congr (hmap : qs.map (·.2) = ps.map (·.2))
    (h : readLexemes limit w stack ps = .ok v) : readLexemes limit w stack qs = .ok v := by
  induction ps generalizing qs w stack with
  | nil => cases h
  | cons p ps ih =>
    obtain ⟨o, l⟩ := p
    obtain ⟨⟨o', l'⟩, qs, rfl, hl, htail⟩ := List.map_eq_cons_iff.1 hmap
    obtain rfl : l' = l := hl
    unfold readLexemes at h ⊢
    split at h
    · exact h
    · obtain ⟨⟨w', stack'⟩, hstep, hrest⟩ := bind_eq_ok_iff.1 h
      have hstep' := step_of_moves (moves_of_step hstep) o'
      exact bind_eq_ok_iff.2 ⟨(w', stack'), hstep', ih htail hrest⟩

/-! ### Neighbours -/

def Lexeme.IsScalar : Lexeme → Prop
  | .null | .bool _ | .number _ => True
  | _ => False

theorem isScalar_of_scalar? {n : Nat} (h : scalar? t = some (l, n)) : l.IsScalar := by
  unfold scalar? at h
  repeat' split at h
  · cases h
    trivial
  · cases h
    trivial
  · cases h
    trivial
  · obtain ⟨p, -, hp⟩ := Option.map_eq_some_iff.1 h
    cases hp
    trivial

namespace Token.Reads

theorem isScalar (h : x.Reads l) (hx : x.isScalar = true) : l.IsScalar := by
  cases h with
  | scalar _ h => exact isScalar_of_scalar? h
  | _ => cases hx

theorem closer (h : x.Reads l) (hx : x.isCloser = true) : l = .closeArray ∨ l = .closeObject := by
  cases h with
  | mark m =>
    cases m with
    | closeArray => exact .inl rfl
    | closeObject => exact .inr rfl
    | _ => cases hx
  | _ => cases hx

theorem ne_finish (h : x.Reads l) : l ≠ .finish := by
  cases h with
  | mark m => cases m <;> nofun
  | scalar _ h =>
    rintro rfl
    exact isScalar_of_scalar? h
  | literal => nofun

end Token.Reads

theorem moves_scalar (hl : l.IsScalar) (h : Moves limit w stack l w' stack') :
    ∃ v, w' = .afterValue v := by
  cases h with
  | atom => exact ⟨_, rfl⟩
  | _ => exact hl.elim

theorem not_moves_badString {f : Fault} {k : Nat} :
    ¬Moves limit w stack (.badString f k) w' stack' := by
  intro h
  cases h with
  | atom _ h => cases h 0

theorem not_moves_unknown : ¬Moves limit w stack .unknown w' stack' := by
  intro h
  cases h with
  | atom _ h => cases h 0

theorem moves_comma (h : Moves limit w stack .comma w' stack') :
    w' = .value ∨ ∃ fields, w' = .name fields := by
  cases h with
  | atom _ h => cases h 0
  | nextItem => exact .inl rfl
  | nextName => exact .inr ⟨_, rfl⟩

theorem moves_afterValue (h : Moves limit (.afterValue v) stack l w' stack') :
    l = .comma ∨ l = .closeArray ∨ l = .closeObject := by
  cases h with
  | openArray hw => rcases hw with hw | hw <;> cases hw
  | openObject hw => rcases hw with hw | hw <;> cases hw
  | atom hw => rcases hw with hw | hw <;> cases hw
  | nextItem => exact .inl rfl
  | nextName => exact .inl rfl
  | endArray => exact .inr (.inl rfl)
  | endObject => exact .inr (.inr rfl)

theorem not_moves_closer (hw : w = .value ∨ ∃ fields, w = .name fields)
    (hl : l = .closeArray ∨ l = .closeObject) : ¬Moves limit w stack l w' stack' := by
  intro h
  cases h with
  | atom _ h => rcases hl with rfl | rfl <;> cases h 0
  | emptyArray => rcases hw with hw | ⟨_, hw⟩ <;> cases hw
  | emptyObject => rcases hw with hw | ⟨_, hw⟩ <;> cases hw
  | endArray => rcases hw with hw | ⟨_, hw⟩ <;> cases hw
  | endObject => rcases hw with hw | ⟨_, hw⟩ <;> cases hw
  | _ => rcases hl with hl | hl <;> cases hl

theorem fits_of_moves (hx : x.Reads l) (hy : y.Reads l') (h : Moves limit w stack l w' stack')
    (h' : Moves limit w' stack' l' w'' stack'') : x.Fits y := by
  constructor
  · intro hscalar
    obtain ⟨v, rfl⟩ := moves_scalar (hx.isScalar hscalar) h
    rw [Bool.eq_false_iff]
    intro hscalar'
    have hl' := hy.isScalar hscalar'
    rcases moves_afterValue h' with rfl | rfl | rfl
    all_goals exact hl'
  · rintro rfl
    cases hx
    rw [Bool.eq_false_iff]
    intro hcloser
    exact not_moves_closer (moves_comma h) (hy.closer hcloser) h'

theorem isChain_of_readLexemes (hreads : List.Forall₂ Token.Reads xs ls)
    (hps : ps.map (·.2) = ls ++ [.finish]) (hread : readLexemes limit w stack ps = .ok v) :
    xs.IsChain Token.Fits := by
  induction hreads generalizing ps w stack with
  | nil => exact .nil
  | @cons x l xs ls hx hrest ih =>
    obtain ⟨⟨o, _⟩, ps, rfl, rfl, htail⟩ := List.map_eq_cons_iff.1 hps
    obtain ⟨w', stack', hmove, hread⟩ := readLexemes_cons hx.ne_finish hread
    have hchain := ih htail hread
    cases hrest with
    | nil => exact .singleton x
    | @cons y l' xs ls hy hrest =>
      obtain ⟨⟨o', _⟩, ps, rfl, rfl, -⟩ := List.map_eq_cons_iff.1 htail
      obtain ⟨w'', stack'', hmove', -⟩ := readLexemes_cons hy.ne_finish hread
      exact List.isChain_cons_cons.2 ⟨fits_of_moves hx hy hmove hmove', hchain⟩

/-! ### Documents -/

theorem read_eq_ok_iff :
    read limit t = .ok v ↔ hasMark t = false ∧ readLexemes limit .value [] (lex t) = .ok v := by
  unfold read
  cases hasMark t with
  | true => exact ⟨fun h => (nomatch h), fun h => (nomatch h.1)⟩
  | false =>
    rw [if_neg Bool.false_ne_true]
    split
    all_goals next h => simp [h]

theorem Written.hasMark_eq (h : Written .plain xs t) : hasMark t = false := by
  induction h with
  | nil => rfl
  | gap hg _ ih =>
    cases hg with
    | nil => exact ih
    | @space c g hc =>
      have hne : c ≠ byteOrderMark := by
        rintro rfl
        exact absurd hc (by decide)
      simpa [hasMark] using hne
    | line hD => cases hD
    | block hD => cases hD
  | token hx =>
    obtain ⟨c, u, htext, -, -, -, hne⟩ := hx.exists_front
    rw [htext]
    simpa [hasMark] using hne
  | lastComma hD => cases hD
  | lastLine hD => cases hD

/-- No two numbers or words stand next to each other in a document, and no comma stands in front of
    a closing bracket. -/
theorem Written.isChain (h : Written .plain xs t) (hread : read limit t = .ok v) :
    xs.IsChain Token.Fits := by
  obtain ⟨ls, hreads, hlex⟩ := h.map_lexFrom
  exact isChain_of_readLexemes hreads (hlex 0) (read_eq_ok_iff.1 hread).2

/-- Texts with the same tokens are read as the same value. -/
theorem Written.read_eq (ht : Written .plain xs t) (hu : Written .plain xs u)
    (hread : read limit t = .ok v) : read limit u = .ok v := by
  obtain ⟨ls, hls, hlex⟩ := ht.map_lexFrom
  obtain ⟨ls', hls', hlex'⟩ := hu.map_lexFrom
  have hright : Relator.RightUnique Token.Reads := fun _ _ _ => Token.Reads.unique
  have hunique : ls' = ls := hright.forall₂ hls' hls
  have hmap : (lex u).map (·.2) = (lex t).map (·.2) := by rw [lex, lex, hlex, hlex', hunique]
  exact read_eq_ok_iff.2 ⟨hu.hasMark_eq, readLexemes_congr hmap (read_eq_ok_iff.1 hread).2⟩

theorem lexeme_cases (offset : Nat) (c : Char) (r : Text) :
    (∃ m : Mark, c = m.char) ∨ c = '"' ∨
      lexeme offset c r = (scalar? (c :: r)).getD (.unknown, r.length + 1) := by
  unfold lexeme
  split
  · exact .inl ⟨.openArray, rfl⟩
  · exact .inl ⟨.closeArray, rfl⟩
  · exact .inl ⟨.openObject, rfl⟩
  · exact .inl ⟨.closeObject, rfl⟩
  · exact .inl ⟨.colon, rfl⟩
  · exact .inl ⟨.comma, rfl⟩
  · exact .inr (.inl rfl)
  · refine .inr (.inr ?_)
    unfold scalar?
    repeat' split
    all_goals simp_all

theorem exists_lexFrom_of_isScalarChar (hc : isScalarChar c = true) (offset : Nat) (t : Text) :
    ∃ l ps, lexFrom 0 offset (c :: t) = (offset, l) :: ps ∧ (l.IsScalar ∨ l = .unknown) := by
  rw [lexFrom, if_neg (by simp [isSpace_of_isScalarChar hc]), lexeme_of_isScalarChar hc]
  cases hscalar : scalar? (c :: t) with
  | none => exact ⟨_, _, rfl, .inr rfl⟩
  | some p => exact ⟨_, _, rfl, .inl (isScalar_of_scalar? hscalar)⟩

theorem readLexemes_adjacent (hl : l.IsScalar) (hl' : l'.IsScalar ∨ l' = .unknown) :
    readLexemes limit w stack ((offset, l) :: (offset', l') :: ps) ≠ .ok v := by
  intro h
  have hfinish : l ≠ .finish := by
    rintro rfl
    exact hl
  have hfinish' : l' ≠ .finish := by
    rintro rfl
    exact hl'.elim id nofun
  obtain ⟨w', stack', hmove, h⟩ := readLexemes_cons hfinish h
  obtain ⟨_, _, hmove', -⟩ := readLexemes_cons hfinish' h
  obtain ⟨v', rfl⟩ := moves_scalar hl hmove
  rcases moves_afterValue hmove' with rfl | rfl | rfl
  all_goals exact hl'.elim id nofun

/-- A number or a word that is read goes on to the first character that cannot belong to it. -/
theorem length_eq_of_scalar? {word : Text} {n : Nat} (hword : AllIn isScalarChar word)
    (ht : Stops isScalarChar t) (hscalar : scalar? word = some (l, n))
    (h : readLexemes limit w stack (lexFrom 0 offset (word ++ t)) = .ok v) : n = word.length := by
  obtain ⟨hpos, hle⟩ := length_of_scalar? hscalar
  refine hle.antisymm (Nat.le_of_not_lt fun hlt => ?_)
  -- Otherwise another number or word stands next to it.
  obtain ⟨c, u, hfront⟩ := List.exists_cons_of_length_pos (l := word.take n) (by simp; omega)
  obtain ⟨d, s, hback⟩ := List.exists_cons_of_length_pos (l := word.drop n) (by simp; omega)
  have hsplit : word = c :: (u ++ d :: s) := by
    rw [← List.take_append_drop n word, hfront, hback, List.cons_append]
  have hn : n = u.length + 1 := by
    rw [← List.length_cons (a := c), ← hfront, List.length_take, Nat.min_eq_left hle]
  subst hsplit
  simp only [allIn_cons, allIn_append] at hword
  obtain ⟨hc, -, hd, -⟩ := hword
  have hlexeme : lexeme offset c (u ++ (d :: s ++ t)) = (l, n) := by
    rw [lexeme_of_isScalarChar hc, ← List.append_assoc, ← List.cons_append, scalar?_append ht,
      hscalar]
    rfl
  have hlex := lexFrom_of_lexeme (isSpace_of_isScalarChar hc) hn hlexeme
  rw [List.cons_append, List.append_assoc, hlex] at h
  obtain ⟨l', ps, hlex', hkind⟩ :=
    exists_lexFrom_of_isScalarChar hd (offset + (u.length + 1)) (s ++ t)
  rw [List.cons_append, hlex'] at h
  exact readLexemes_adjacent (isScalar_of_scalar? hscalar) hkind h

/-- At the front of a text that is read stands a token. -/
theorem exists_token (hc : isSpace c = false)
    (h : readLexemes limit w stack (lexFrom 0 offset (c :: t)) = .ok v) :
    ∃ x l u, Token.Reads x l ∧ x.Ends u ∧ c :: t = x.text ++ u := by
  rcases lexeme_cases offset c t with ⟨m, rfl⟩ | rfl | hscalar
  · exact ⟨.mark m, _, t, .mark m, nofun, rfl⟩
  · rw [lexFrom, if_neg (by decide), lexeme] at h
    cases hscan : scanString offset (offset + 1) t with
    | error f =>
      rw [hscan] at h
      obtain ⟨_, _, hmove, -⟩ := readLexemes_cons (l := .badString f.1 f.2) nofun h
      exact absurd hmove not_moves_badString
    | ok p =>
      obtain ⟨body, r, hbody, rfl⟩ := exists_body_of_scanString hscan
      have hread := hbody.scanString_eq hscan 0 0 []
      rw [Nat.zero_add] at hread
      exact ⟨.literal body, _, r, .literal hbody hread, nofun, by simp [Token.text]⟩
  · let word := (c :: t).takeWhile isScalarChar
    let rest := (c :: t).dropWhile isScalarChar
    have hword : AllIn isScalarChar word := allIn_takeWhile
    have hrest : Stops isScalarChar rest := stops_dropWhile
    have hsplit : c :: t = word ++ rest := List.takeWhile_append_dropWhile.symm
    cases hs : scalar? (c :: t) with
    | none =>
      rw [lexFrom, if_neg (by simp [hc]), hscalar, hs] at h
      obtain ⟨_, _, hmove, -⟩ := readLexemes_cons (l := .unknown) nofun h
      exact absurd hmove not_moves_unknown
    | some p =>
      rw [hsplit] at h hs
      rw [scalar?_append hrest] at hs
      have hlength := length_eq_of_scalar? hword hrest hs h
      have hreads : (Token.scalar word).Reads p.1 := .scalar hword (by rw [hs, ← hlength])
      exact ⟨.scalar word, p.1, rest, hreads, fun _ => hrest, hsplit⟩

theorem exists_written_of_readLexemes (h : readLexemes limit w stack (lexFrom 0 offset t) = .ok v) :
    ∃ xs, Written .plain xs t := by
  induction hn : t.length using Nat.strongRecOn generalizing w stack offset t with
  | ind n ih =>
    subst hn
    cases t with
    | nil => exact ⟨[], .nil⟩
    | cons c t =>
      cases hc : isSpace c with
      | true =>
        rw [lexFrom_space hc] at h
        obtain ⟨xs, hxs⟩ := ih t.length (Nat.lt_succ_self _) h rfl
        exact ⟨xs, .gap (.space hc .nil) hxs⟩
      | false =>
        obtain ⟨x, l, u, hx, hend, ht⟩ := exists_token hc h
        rw [ht, hx.lexFrom_append hend] at h
        obtain ⟨w', stack', -, hread⟩ := readLexemes_cons hx.ne_finish h
        have hlength : u.length < (c :: t).length := by
          obtain ⟨d, s, htext, -⟩ := hx.exists_front
          rw [ht, htext, List.length_append, List.length_cons]
          omega
        obtain ⟨xs, hxs⟩ := ih u.length hlength hread rfl
        exact ⟨x :: xs, ht ▸ .token hx hend hxs⟩

/-- A text that is read is written with some tokens. -/
theorem exists_written (h : read limit t = .ok v) : ∃ xs, Written .plain xs t :=
  exists_written_of_readLexemes (read_eq_ok_iff.1 h).2

end ImportRepair.Json
