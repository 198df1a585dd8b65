import ImportRepair.Diagnostic.Reader
import ImportRepair.Proofs.Import.Frame
import ImportRepair.Proofs.Path.Portable
import Mathlib.Data.List.Infix
import Mathlib.Data.Nat.Digits.Defs

/-!
# Reading a line that reports a diagnostic

A reader looks for the shortest file name behind which the rest of the line has
the format.  So a file name must not hold anything that looks like a place.
What stands behind the place is free: the message may contain parentheses,
colons or the text of another diagnostic.
-/

namespace ImportRepair

open Text

variable {root : Option Text} {l : Layout} {x : LocatedLine} {t u r ds : Text}

/-! ### Numerals -/

/-- A sequence of digits that is not too long to be read. -/
structure IsNumeral (ds : Text) : Prop where
  ne_nil : ds ≠ []
  digits : AllIn isDigit ds
  length_le : ds.length ≤ Numeral.maxDigits

theorem digits?_eq_some_iff {q : Text × Text} :
    Numeral.digits? t = some q ↔
      q.1 ≠ [] ∧ AllIn isDigit q.1 ∧ Stops isDigit q.2 ∧ t = q.1 ++ q.2 := by
  unfold Numeral.digits?
  constructor
  · intro h
    split at h
    · cases h
    · next hne =>
      cases h
      exact ⟨hne, allIn_takeWhile, stops_dropWhile, List.takeWhile_append_dropWhile.symm⟩
  · rintro ⟨hne, hds, hr, rfl⟩
    rw [takeWhile_run hds hr, dropWhile_run hds hr]
    split
    · next hnil => exact absurd hnil hne
    · rfl

theorem digits?_run (hne : ds ≠ []) (hds : AllIn isDigit ds) (hr : Stops isDigit r) :
    Numeral.digits? (ds ++ r) = some (ds, r) :=
  digits?_eq_some_iff.2 ⟨hne, hds, hr, rfl⟩

theorem IsNumeral.digits? (h : IsNumeral ds) (hr : Stops isDigit r) :
    Numeral.digits? (ds ++ r) = some (ds, r) := digits?_run h.ne_nil h.digits hr

theorem IsNumeral.ofDigits_eq (h : IsNumeral ds) : Numeral.ofDigits ds = .ok (Numeral.value ds) :=
  if_neg (Nat.not_lt.2 h.length_le)

theorem digitValue?_digitChar : ∀ n < 10, digitValue? (Nat.digitChar n) = some n := by
  decide +kernel

theorem Numeral.value_append_singleton (ds : Text) (c : Char) :
    Numeral.value (ds ++ [c]) = 10 * Numeral.value ds + (digitValue? c).getD 0 := by
  simp [Numeral.value]

/-- The usual decimal numeral of a number is read as this number. -/
theorem Numeral.value_toDigits (n : Nat) : Numeral.value (Nat.toDigits 10 n) = n := by
  induction n using Nat.strongRecOn with
  | ind n ih =>
    rcases Nat.lt_or_ge n 10 with hn | hn
    · rw [Nat.toDigits_of_lt_base hn, ← List.nil_append [_], Numeral.value_append_singleton,
        digitValue?_digitChar n hn]
      simp [Numeral.value]
    · have hdiv : n / 10 < n := Nat.div_lt_self (by omega) (by decide)
      rw [Nat.toDigits_of_base_le (by decide) hn, Numeral.value_append_singleton, ih _ hdiv,
        digitValue?_digitChar _ (Nat.mod_lt _ (by decide)), Option.getD_some]
      exact Nat.div_add_mod n 10

theorem allIn_toDigits (n : Nat) : AllIn isDigit (Nat.toDigits 10 n) := by
  intro c hc
  have hdigit := Nat.isDigit_of_mem_toDigits (by decide) (by decide) hc
  simp only [Char.isDigit, Bool.and_eq_true, decide_eq_true_eq] at hdigit
  have hrange : 48 ≤ c.toNat ∧ c.toNat ≤ 57 := hdigit
  simp [isDigit, digitValue?, digitZeros, hrange]

theorem isNumeral_toDigits {n : Nat} (hn : n < 10 ^ Numeral.maxDigits) :
    IsNumeral (Nat.toDigits 10 n) :=
  ⟨Nat.toDigits_ne_nil, allIn_toDigits n,
    (Nat.length_toDigits_le_iff (by decide) (by decide)).2 hn⟩

/-! ### Places -/

theorem afterBlanks?_space (hr : Stops isBlank r) : afterBlanks? (' ' :: r) = some r :=
  afterBlanks?_eq_some_iff.2 ⟨[' '], by simp, by simp; decide, hr, rfl⟩

theorem isDigit_ne {c d : Char} (hc : isDigit c = true) (hd : isDigit d = false) : c ≠ d := by
  rintro rfl
  simp [hc] at hd

/-- A place starts in one way only. -/
theorem place?_parenthesised_eq_some {q : DigitPlace × Text}
    (h : Layout.place? .parenthesised t = some q) :
    ∃ d₁ d₂ s, d₁ ≠ [] ∧ AllIn isDigit d₁ ∧ d₂ ≠ [] ∧ AllIn isDigit d₂ ∧
      t = '(' :: (d₁ ++ ',' :: (d₂ ++ "):".toList ++ s)) := by
  unfold Layout.place? at h
  split at h
  · simp only [Option.bind_eq_bind, Option.bind_eq_some_iff, Prod.exists] at h
    obtain ⟨d₁, r₁, h₁, r₂, hcomma, d₂, r₃, h₂, s, hclose, -⟩ := h
    obtain ⟨hne₁, hd₁, -, rfl⟩ := digits?_eq_some_iff.1 h₁
    obtain ⟨hne₂, hd₂, -, rfl⟩ := digits?_eq_some_iff.1 h₂
    rw [isPrefixOf?_eq_some_iff] at hcomma hclose
    refine ⟨d₁, d₂, s, hne₁, hd₁, hne₂, hd₂, ?_⟩
    rw [hcomma, hclose, List.append_assoc, List.singleton_append]
  · next hlayout => cases hlayout
  · cases h

theorem place?_colonSeparated_of_ne {c : Char} (hc : c ≠ ':') :
    Layout.place? .colonSeparated (c :: t) = none := by
  unfold Layout.place?
  split
  · next hlayout _ => cases hlayout
  · next heq => exact absurd (List.cons.inj heq).1 hc
  · rfl

namespace Layout

/-- Nothing in the file name looks like a place of the format. -/
def Clears : Layout → Text → Prop
  | parenthesised, file => ∀ d₁ d₂, d₁ ≠ [] → AllIn isDigit d₁ → d₂ ≠ [] → AllIn isDigit d₂ →
      ¬ '(' :: (d₁ ++ ',' :: (d₂ ++ "):".toList)) <:+: file
  | colonSeparated, file => ':' ∉ file

/-- Parentheses that no digit follows start no place. -/
theorem clears_of_tails (h : ∀ v ∈ t.tails, v.head? = some '(' → Stops isDigit v.tail) :
    parenthesised.Clears t := by
  rintro (_ | ⟨c, d₁⟩) d₂ hne hd₁ - - ⟨v, w, hsplit⟩
  · exact hne rfl
  · have htail : '(' :: (c :: d₁ ++ ',' :: (d₂ ++ "):".toList)) ++ w ∈ t.tails :=
      (List.mem_tails _ _).2 ⟨v, by rw [← hsplit, List.append_assoc]⟩
    have hnot : isDigit c = false := h _ htail rfl c rfl
    have hdigit : isDigit c = true := (allIn_cons.1 hd₁).1
    exact Bool.false_ne_true (hnot.symm.trans hdigit)

/-- The character with which a place starts. -/
def mark : Layout → Char
  | parenthesised => '('
  | colonSeparated => ':'

theorem exists_placeText_eq (line column : Text) (l : Layout) :
    ∃ place, l.placeText line column = l.mark :: place := by
  cases l <;> exact ⟨_, rfl⟩

/-- No place starts inside a clear file name, even if it could go on behind it. -/
theorem place?_inside {v w : Text} (h : l.Clears (v ++ w)) (hw : w ≠ []) (r : Text) :
    l.place? (w ++ l.mark :: r) = none := by
  obtain ⟨c, w, rfl⟩ := List.exists_cons_of_ne_nil hw
  cases l with
  | parenthesised =>
    by_contra hplace
    obtain ⟨q, hq⟩ := Option.ne_none_iff_exists'.1 hplace
    obtain ⟨d₁, d₂, s, hne₁, hd₁, hne₂, hd₂, ht⟩ := place?_parenthesised_eq_some hq
    rw [List.cons_append, List.cons.injEq] at ht
    obtain ⟨rfl, ht⟩ := ht
    have hmark : '(' ∉ d₁ ++ ',' :: (d₂ ++ "):".toList) := by
      intro hmem
      rcases List.mem_append.1 hmem with hmem | hmem
      · exact isDigit_ne (hd₁ _ hmem) (by decide +kernel) rfl
      rcases List.mem_cons.1 hmem with hmem | hmem
      · cases hmem
      rcases List.mem_append.1 hmem with hmem | hmem
      · exact isDigit_ne (hd₂ _ hmem) (by decide +kernel) rfl
      · simp at hmem
    obtain ⟨w', rfl⟩ := exists_of_append_eq (v := d₁ ++ ',' :: (d₂ ++ "):".toList)) (s := s)
      (by simpa [mark] using ht) hmark
    exact h d₁ d₂ hne₁ hd₁ hne₂ hd₂ ⟨v, w', by simp⟩
  | colonSeparated =>
    refine place?_colonSeparated_of_ne ?_
    rintro rfl
    exact h (by simp)

theorem place?_placeText {line column : Text} (hline : IsNumeral line) (hcolumn : IsNumeral column)
    (hr : Stops isBlank r) (l : Layout) :
    l.place? (l.placeText line column ++ r) = some (⟨line, column⟩, r) := by
  have hmark : ∀ (c : Char) (s : Text), [c].isPrefixOf? (c :: s) = some s := fun _ _ =>
    isPrefixOf?_eq_some_iff.2 rfl
  cases l with
  | parenthesised =>
    have htext : placeText line column .parenthesised ++ r =
        '(' :: (line ++ ',' :: (column ++ ')' :: ':' :: ' ' :: r)) := by
      simp [placeText]
    have hclose : "):".toList.isPrefixOf? (')' :: ':' :: ' ' :: r) = some (' ' :: r) :=
      isPrefixOf?_eq_some_iff.2 rfl
    simp only [htext, place?, Option.bind_eq_bind, Option.bind_some, hmark, hclose, afterBlanks?_space hr,
      hline.digits? (stops_cons.2 (by decide +kernel : isDigit ',' = false)),
      hcolumn.digits? (stops_cons.2 (by decide +kernel : isDigit ')' = false))]
  | colonSeparated =>
    have htext : placeText line column .colonSeparated ++ r =
        ':' :: (line ++ ':' :: (column ++ ' ' :: '-' :: ' ' :: r)) := by
      simp [placeText]
    simp only [htext, place?, Option.bind_eq_bind, Option.bind_some, hmark, afterBlanks?_space hr,
      afterBlanks?_space (stops_cons.2 (by decide +kernel : isBlank '-' = false)),
      hline.digits? (stops_cons.2 (by decide +kernel : isDigit ':' = false)),
      hcolumn.digits? (stops_cons.2 (by decide +kernel : isDigit ' ' = false))]

end Layout

/-! ### Whole lines -/

theorem severity?_name (s : Severity) (hr : Stops isBlank r) :
    severity? (s.name.toList ++ ' ' :: r) = some (s, r) := by
  have hself : s.name.toList.isPrefixOf? (s.name.toList ++ ' ' :: r) = some (' ' :: r) :=
    isPrefixOf?_eq_some_iff.2 rfl
  have hread := congrArg (Option.map fun u => (s, u)) (afterBlanks?_space hr)
  unfold severity?
  cases s with
  | error => rw [List.findSome?_cons, hself, Option.bind_some, hread, Option.map_some]
  | warning =>
    have hother : Severity.error.name.toList.isPrefixOf? (Severity.warning.name.toList ++ ' ' :: r) =
        none := rfl
    rw [List.findSome?_cons, hother, Option.bind_none, Option.map_none, List.findSome?_cons, hself,
      Option.bind_some, hread, Option.map_some]

theorem code?_text (hne : ds ≠ []) (hds : AllIn isDigit ds) (r : Text) :
    code? ('T' :: 'S' :: (ds ++ ':' :: r)) = some ('T' :: 'S' :: ds, r) := by
  have hletters : "TS".toList.isPrefixOf? ('T' :: 'S' :: (ds ++ ':' :: r)) = some (ds ++ ':' :: r) :=
    isPrefixOf?_eq_some_iff.2 rfl
  have hmark : [':'].isPrefixOf? (':' :: r) = some r := isPrefixOf?_eq_some_iff.2 rfl
  simp only [code?, Option.bind_eq_bind, hletters, Option.bind_some, hmark,
    digits?_run hne hds (stops_cons.2 (by decide +kernel : isDigit ':' = false))]

/-- A character at which the output is neither cut nor read as a colour. -/
def staysInLine (c : Char) : Bool := c != '\n' && c != '\r' && c != escapeMark

/-- A line that can be written without loss. -/
structure LocatedLine.IsWritten (x : LocatedLine) (l : Layout) (root : Option Text) : Prop where
  file_ne_nil : x.file ≠ []
  file_portable : portable root x.file = x.file
  file_chars : AllIn staysInLine x.file
  file_clear : l.Clears x.file
  line : IsNumeral x.line
  column : IsNumeral x.column
  code : ∃ ds, ds ≠ [] ∧ AllIn isDigit ds ∧ x.code = 'T' :: 'S' :: ds
  message : IsTrimmed x.message
  message_chars : AllIn staysInLine x.message

theorem ne_of_staysInLine (ht : AllIn staysInLine t) {c d : Char} (hc : c ∈ t)
    (hd : staysInLine d = false) : c ≠ d := by
  rintro rfl
  exact Bool.false_ne_true (hd.symm.trans (ht c hc))

theorem staysInLine_of_isDigit {c : Char} (h : isDigit c = true) : staysInLine c = true := by
  have hne : c ≠ '\n' ∧ c ≠ '\r' ∧ c ≠ escapeMark :=
    ⟨isDigit_ne h (by decide +kernel), isDigit_ne h (by decide +kernel),
      isDigit_ne h (by decide +kernel)⟩
  simp [staysInLine, hne]

namespace LocatedLine.IsWritten

theorem report? (h : x.IsWritten l root) :
    l.report? (l.placeText x.line x.column ++ (x.severity.name.toList ++ ' ' :: (x.code ++
      ':' :: ' ' :: x.message))) = some (⟨x.line, x.column⟩, x.severity, x.code, x.message) := by
  obtain ⟨ds, hne, hds, hcode⟩ := h.code
  have hcodeStops : Stops isBlank (x.code ++ ':' :: ' ' :: x.message) := by
    rw [hcode]
    exact stops_cons.2 (by decide +kernel)
  have hseverityStops (r : Text) : Stops isBlank (x.severity.name.toList ++ r) := by
    cases x.severity <;> exact stops_cons.2 (by decide +kernel)
  have hread := code?_text hne hds (' ' :: x.message)
  have hmessage : trim (' ' :: x.message) = x.message := by
    simpa using trim_between (w := [' ']) (r := []) (by simp; decide) h.message (by simp)
  have hline : '\n' ∉ x.message := fun hmem => ne_of_staysInLine h.message_chars hmem (by decide) rfl
  rw [Layout.report?, Layout.place?_placeText h.line h.column (hseverityStops _)]
  simp only [Option.bind_eq_bind, Option.bind_some, severity?_name _ hcodeStops]
  rw [hcode, List.cons_append, List.cons_append, hread]
  simp [hmessage, hline, h.message.ne_nil]

theorem line?_text (h : x.IsWritten l root) : l.line? (x.text l) = some x := by
  have hsplit : splitShortest? l.report? (x.text l) =
      some (x.file, ⟨x.line, x.column⟩, x.severity, x.code, x.message) := by
    refine splitShortest?_eq_some_iff.2 ⟨h.file_ne_nil, ?_, _, ?_, h.report?, ?_⟩
    · exact fun hmem => ne_of_staysInLine h.file_chars hmem (by decide) rfl
    · simp [LocatedLine.text]
    · intro v w hfile hv hw
      obtain ⟨place, hplace⟩ := Layout.exists_placeText_eq x.line x.column l
      have hinside := Layout.place?_inside (hfile ▸ h.file_clear) hw
      rw [Layout.report?, hplace, List.cons_append, hinside, Option.bind_eq_bind, Option.bind_none]
  rw [Layout.line?, hsplit, Option.map_some]

/-- A file name that is portable already has no white space at its ends. -/
theorem isTrimmed_file (h : x.IsWritten l root) : IsTrimmed x.file := by
  have htrim := (isPortable_of_portable_eq h.file_portable).trim
  have hne : x.file.trim ≠ [] := htrim.symm ▸ h.file_ne_nil
  exact htrim ▸ isTrimmed_trim hne

theorem trim_text (h : x.IsWritten l root) : trim (x.text l) = x.text l := by
  refine IsTrimmed.trim_eq ⟨?_, ?_, ?_⟩
  · simp [LocatedLine.text]
  · simp only [LocatedLine.text, List.append_assoc]
    exact stops_append h.isTrimmed_file.head h.file_ne_nil
  · obtain ⟨c, hc⟩ := Option.ne_none_iff_exists'.1 (mt List.getLast?_eq_none_iff.1 h.message.ne_nil)
    rw [LocatedLine.text, List.getLast?_append, hc, Option.some_or, ← hc]
    exact h.message.last

theorem chars_text (h : x.IsWritten l root) : AllIn staysInLine (x.text l) := by
  obtain ⟨ds, -, hds, hcode⟩ := h.code
  have hline := h.line.digits.mono fun _ => staysInLine_of_isDigit
  have hcolumn := h.column.digits.mono fun _ => staysInLine_of_isDigit
  have hplace : AllIn staysInLine (l.placeText x.line x.column) := by
    cases l <;> simp [Layout.placeText, hline, hcolumn] <;> decide
  have hseverity : AllIn staysInLine x.severity.name.toList := by
    cases x.severity <;> simp [Severity.name] <;> decide
  have hcodeChars : AllIn staysInLine x.code := by
    rw [hcode, allIn_cons, allIn_cons]
    exact ⟨by decide, by decide, hds.mono fun _ => staysInLine_of_isDigit⟩
  simp only [LocatedLine.text, allIn_append]
  exact ⟨⟨⟨⟨⟨⟨h.file_chars, hplace⟩, hseverity⟩, by simp; decide⟩, hcodeChars⟩, by simp; decide⟩,
    h.message_chars⟩

end LocatedLine.IsWritten

/-- The diagnostic that a line reports. -/
def LocatedLine.asDiagnostic (x : LocatedLine) (l : Layout) : Diagnostic where
  file := x.file
  line := Numeral.value x.line
  column := Numeral.value x.column
  code := x.code
  message := x.message
  category := .of x.code x.message
  severity := x.severity
  tier := l.tier

theorem LocatedLine.IsWritten.diagnostic_eq (h : x.IsWritten l root) :
    x.diagnostic l root = .ok (x.asDiagnostic l) := by
  rw [LocatedLine.diagnostic, h.line.ofDigits_eq, h.column.ofDigits_eq, h.file_portable]
  rfl

end ImportRepair
