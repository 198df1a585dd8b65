import ImportRepair.Proofs.Import.EmptyBraces

/-!
# What the rule for console statements deletes

The rule takes the last parenthesis of a line for the one that closes the call
and asks whether the parentheses in front of it are balanced.  It skips strings
but not comments.  So every line that is one complete call is deleted, and
besides only lines where two slashes among the arguments start a comment: there
the last parenthesis stands in the comment, and the call goes on in the next
line.
-/

namespace ImportRepair

open Text

variable {t u r arguments closing l : Text} {region : ArgumentRegion} {depth : Nat}

/-! ### Calls and comments -/

/-- What follows the parenthesis that closes a call, as `behindCall?` finds it, where two slashes
    outside strings start a comment up to the end of the line. -/
def behindCodeCall? (region : ArgumentRegion) (depth : Nat) : Text → Option Text
  | [] => none
  | c :: r =>
    match region with
    | .escape m => behindCodeCall? (.string m) depth r
    | .string m =>
      if c = '\\' then behindCodeCall? (.escape m) depth r
      else if c = m then behindCodeCall? .plain depth r
      else behindCodeCall? (.string m) depth r
    | .plain =>
      if c = '/' ∧ r.head? = some '/' then none
      else if isStringMark c then behindCodeCall? (.string c) depth r
      else if c = '(' then behindCodeCall? .plain (depth + 1) r
      else if c = ')' then
        match depth with
        | 0 => some r
        | n + 1 => behindCodeCall? .plain n r
      else behindCodeCall? .plain depth r

/-- Two slashes stand in the text outside its strings. -/
def hasComment (region : ArgumentRegion) : Text → Bool
  | [] => false
  | c :: r =>
    match region with
    | .escape m => hasComment (.string m) r
    | .string m =>
      if c = '\\' then hasComment (.escape m) r
      else if c = m then hasComment .plain r
      else hasComment (.string m) r
    | .plain =>
      if c = '/' ∧ r.head? = some '/' then true
      else if isStringMark c then hasComment (.string c) r
      else hasComment .plain r

theorem behindCall?_of_behindCodeCall? (h : behindCodeCall? region depth t = some r) :
    behindCall? region depth t = some r := by
  induction t generalizing region depth with
  | nil => cases h
  | cons c t ih =>
    cases region with
    | escape m => exact ih h
    | string m =>
      simp only [behindCodeCall?] at h
      simp only [behindCall?]
      split_ifs at h ⊢
      · exact ih h
      · exact ih h
      · exact ih h
    | plain =>
      simp only [behindCodeCall?] at h
      simp only [behindCall?]
      split_ifs at h ⊢
      · exact ih h
      · exact ih h
      · cases depth with
        | zero => exact h
        | succ n => exact ih h
      · exact ih h

theorem behindCall?_ne_self : behindCall? region depth t ≠ some t := by
  intro h
  obtain ⟨u, hu⟩ := behindCall?_eq_some h
  have hlength := congrArg List.length hu
  simp only [List.length_append, List.length_cons] at hlength
  omega

/-- Where the call is closed if comments are not minded, it is closed for code exactly if no comment
    starts in front.  The induction goes through the text in front of the parenthesis. -/
theorem behindCodeCall?_eq_some_iff (h : behindCall? region depth (u ++ ')' :: r) = some r) :
    behindCodeCall? region depth (u ++ ')' :: r) = some r ↔ hasComment region u = false := by
  induction u generalizing region depth with
  | nil =>
    cases region with
    | escape m =>
      rw [List.nil_append, behindCall?] at h
      exact absurd h behindCall?_ne_self
    | string m =>
      simp only [List.nil_append, behindCall?] at h
      split_ifs at h
      · exact absurd h behindCall?_ne_self
      · exact absurd h behindCall?_ne_self
      · exact absurd h behindCall?_ne_self
    | plain =>
      have hmark : isStringMark ')' = false := by decide
      cases depth with
      | zero => simp [behindCodeCall?, hasComment, hmark]
      | succ n =>
        simp only [List.nil_append, behindCall?, hmark] at h
        exact absurd h behindCall?_ne_self
  | cons c u ih =>
    cases region with
    | escape m => exact ih h
    | string m =>
      simp only [List.cons_append, behindCall?] at h
      simp only [List.cons_append, behindCodeCall?, hasComment]
      split_ifs at h ⊢
      · exact ih h
      · exact ih h
      · exact ih h
    | plain =>
      have hhead : (u ++ ')' :: r).head? = some '/' ↔ u.head? = some '/' := by
        cases u with
        | nil => simp
        | cons d u => simp
      simp only [List.cons_append, behindCall?] at h
      simp only [List.cons_append, behindCodeCall?, hasComment, hhead]
      by_cases hcomment : c = '/' ∧ u.head? = some '/'
      · simp [hcomment]
      rw [if_neg hcomment, if_neg hcomment]
      by_cases hmark : isStringMark c = true
      · rw [if_pos hmark] at h ⊢
        rw [if_pos hmark]
        exact ih h
      rw [if_neg hmark] at h ⊢
      rw [if_neg hmark]
      by_cases hopen : c = '('
      · rw [if_pos hopen] at h ⊢
        exact ih h
      rw [if_neg hopen] at h ⊢
      by_cases hclose : c = ')'
      · rw [if_pos hclose] at h ⊢
        cases depth with
        | zero =>
          have hlength := congrArg List.length (Option.some.inj h)
          simp only [List.length_append, List.length_cons] at hlength
          omega
        | succ n => exact ih h
      rw [if_neg hclose] at h ⊢
      exact ih h

/-! ### Console calls -/

/-- The line opens a call of a console method, and `r` follows its parenthesis. -/
def OpensConsole (t r : Text) : Prop :=
  ∃ indent, AllIn isBlank indent ∧ ∃ m ∈ consoleMethods,
    t = indent ++ ("console.".toList ++ (m ++ '(' :: r))

/-- Such a line up to its last parenthesis, with anything in between. -/
def ConsoleCall (arguments closing t : Text) : Prop :=
  OpensConsole t (arguments ++ ')' :: closing) ∧ EndsStatement closing

/-- The line is one complete console call: its parenthesis is closed in the code of the line, and
    nothing but white space and a semicolon follows. -/
def IsCompleteCall (t : Text) : Prop :=
  ∃ r rest, OpensConsole t r ∧ behindCodeCall? .plain 0 r = some rest ∧ EndsStatement rest

/-- What follows the parenthesis that opens the call, read as the rule reads it. -/
def behindConsole? (t : Text) : Option Text := do
  let r ← "console.".toList.isPrefixOf? (trimLeft t)
  consoleMethods.findSome? fun m => (m ++ ['(']).isPrefixOf? r

theorem findSome?_consoleMethods :
    (consoleMethods.findSome? fun m => (m ++ ['(']).isPrefixOf? t) = some r ↔
      ∃ m ∈ consoleMethods, t = m ++ '(' :: r := by
  constructor
  · intro h
    obtain ⟨m, hm, hr⟩ := List.exists_of_findSome?_eq_some h
    rw [isPrefixOf?_eq_some_iff, List.append_assoc] at hr
    exact ⟨m, hm, hr⟩
  · rintro ⟨m, hm, rfl⟩
    simp only [consoleMethods, List.mem_cons, List.not_mem_nil, or_false] at hm
    rcases hm with rfl | rfl | rfl
    all_goals rfl

theorem behindConsole?_eq_some_iff : behindConsole? t = some r ↔ OpensConsole t r := by
  simp only [behindConsole?, bind, Option.bind_eq_some_iff, findSome?_consoleMethods,
    isPrefixOf?_eq_some_iff]
  obtain ⟨indent, hindent, hspan⟩ := exists_trimLeft t
  constructor
  · rintro ⟨v, hv, m, hm, rfl⟩
    exact ⟨indent, hindent, m, hm, by rw [← hv, ← hspan]⟩
  · rintro ⟨indent, hindent, m, hm, rfl⟩
    have hstop : Stops isBlank ("console.".toList ++ (m ++ '(' :: r)) := stops_cons.2 (by decide)
    exact ⟨_, trimLeft_run hindent hstop, m, hm, rfl⟩

theorem OpensConsole.eq (h : OpensConsole t r) (h' : OpensConsole t u) : r = u := by
  rw [← behindConsole?_eq_some_iff] at h h'
  exact Option.some.inj (h.symm.trans h')

/-- A line without its final carriage returns. -/
def bareCall (l : Text) : Text := l.dropEndWhile (· == '\r')

theorem consoleArguments?_eq_some_iff :
    consoleArguments? l = some arguments ↔
      ∃ closing, ConsoleCall arguments closing (bareCall l) := by
  have heq : consoleArguments? l = (behindConsole? (bareCall l)).bind callBody? := by
    simp only [consoleArguments?, behindConsole?, bareCall, bind, Option.bind_assoc]
  simp only [heq, Option.bind_eq_some_iff, behindConsole?_eq_some_iff, callBody?_eq_some_iff]
  constructor
  · rintro ⟨r, hr, closing, hend, rfl⟩
    exact ⟨closing, hr, hend⟩
  · rintro ⟨closing, hr, hend⟩
    exact ⟨_, hr, closing, hend, rfl⟩

theorem isConsoleCall_iff : isConsoleCall l = true ↔
    ∃ arguments closing, ConsoleCall arguments closing (bareCall l) ∧
      isOneCall arguments = true := by
  simp only [isConsoleCall, Option.any_eq_true, consoleArguments?_eq_some_iff]
  constructor
  · rintro ⟨arguments, ⟨closing, h⟩, hcall⟩
    exact ⟨arguments, closing, h, hcall⟩
  · rintro ⟨arguments, closing, h, hcall⟩
    exact ⟨arguments, ⟨closing, h⟩, hcall⟩

/-- **A balanced call is complete where no comment starts among its arguments.** -/
theorem ConsoleCall.isCompleteCall_iff (h : ConsoleCall arguments closing t)
    (hcall : isOneCall arguments = true) :
    IsCompleteCall t ↔ hasComment .plain arguments = false := by
  obtain ⟨hopens, hend⟩ := h
  have hbehind := (behindCall?_eq_some_iff hend.not_mem).2 hcall
  rw [← behindCodeCall?_eq_some_iff hbehind]
  constructor
  · rintro ⟨r, rest, hopens', hcode, -⟩
    obtain rfl := hopens.eq hopens'
    have hrest := hbehind.symm.trans (behindCall?_of_behindCodeCall? hcode)
    rw [hcode, ← hrest]
  · intro hcode
    exact ⟨_, closing, hopens, hcode, hend⟩

/-- A complete call is balanced up to its last parenthesis. -/
theorem IsCompleteCall.isConsoleCall (h : IsCompleteCall (bareCall l)) :
    isConsoleCall l = true := by
  obtain ⟨r, rest, hopens, hcode, hend⟩ := h
  have hcall := behindCall?_of_behindCodeCall? hcode
  obtain ⟨arguments, rfl⟩ := behindCall?_eq_some hcall
  exact isConsoleCall_iff.2
    ⟨arguments, rest, ⟨hopens, hend⟩, (behindCall?_eq_some_iff hend.not_mem).1 hcall⟩

/-! ### The lines that are deleted -/

/-- **What the rule deletes, and what it should not have deleted.**  The lines that are left stay as
    they are, in their order.  Every line that is one complete call is deleted; a deleted line that
    is none has balanced parentheses up to the last one and a comment that starts among them. -/
theorem removeConsoleCalls_deletes (t : Text) :
    removeConsoleCalls t = unlines ((lines t).filter fun l => !isConsoleCall l) ∧
    ∀ l, (IsCompleteCall (bareCall l) → isConsoleCall l = true) ∧
      (isConsoleCall l = true ∧ ¬ IsCompleteCall (bareCall l) ↔
        ∃ arguments closing, ConsoleCall arguments closing (bareCall l) ∧
          isOneCall arguments = true ∧ hasComment .plain arguments = true) := by
  refine ⟨rfl, fun l => ⟨IsCompleteCall.isConsoleCall, ?_⟩⟩
  rw [isConsoleCall_iff]
  constructor
  · rintro ⟨⟨arguments, closing, h, hcall⟩, hnot⟩
    rw [h.isCompleteCall_iff hcall, Bool.not_eq_false] at hnot
    exact ⟨arguments, closing, h, hcall, hnot⟩
  · rintro ⟨arguments, closing, h, hcall, hcomment⟩
    refine ⟨⟨arguments, closing, h, hcall⟩, ?_⟩
    rw [h.isCompleteCall_iff hcall, hcomment]
    exact Bool.noConfusion

/-- The parenthesis in the comment is taken for the one that closes the call, and the second line of
    the call is left. -/
theorem removeConsoleCalls_deletes_opening :
    let line := "console.log(a, // first)".toList
    removeConsoleCalls (line ++ "\n  b);\n".toList) = "  b);\n".toList ∧
      ¬ IsCompleteCall (bareCall line) := by
  intro line
  have hcall : ConsoleCall "a, // first".toList [] (bareCall line) :=
    ⟨⟨[], by decide, "log".toList, by decide, by decide +kernel⟩, [], [], by decide, by decide,
      Or.inl rfl⟩
  refine ⟨by decide +kernel, ?_⟩
  rw [hcall.isCompleteCall_iff (by decide +kernel)]
  decide +kernel

end ImportRepair
