import ImportRepair.Proofs.Path.Portable

/-!
# Paths below the root of a project

An absolute path is written with slashes or backslashes, mixed as one likes, and
perhaps behind a drive letter.  Its portable spelling has lost the root of the
project exactly if the components of the root are the first ones of the path,
however both are written: a root that is merely the beginning of a name is left
alone.
-/

namespace ImportRepair

open Text

variable {drive : Option Char} {cs ds : List Text} {c t u v root : Text}

/-! ### Written paths -/

/-- A component of a path.  There is no white space at its ends, and it is not the dot that stands
    for no component. -/
structure IsComponent (c : Text) : Prop where
  trimmed : IsTrimmed c
  slash : '/' ∉ c
  backslash : '\\' ∉ c
  dot : c ≠ ['.']

/-- The text is the components with a separator of either kind between any two neighbours. -/
inductive Separated : List Text → Text → Prop
  | nil : Separated [] []
  | single (c : Text) : Separated [c] c
  | cons (c : Text) {d : Text} {cs : List Text} {sep : Char} {t : Text}
    (hsep : sep = '/' ∨ sep = '\\') (h : Separated (d :: cs) t) :
    Separated (c :: d :: cs) (c ++ sep :: t)

/-- A drive letter with its colon, if there is one. -/
def driveText : Option Char → Text
  | none => []
  | some d => [d, ':']

/-- The text is the absolute path with these components, on the drive or on none. -/
def SpellsPath (drive : Option Char) (cs : List Text) (t : Text) : Prop :=
  ∃ sep u, (sep = '/' ∨ sep = '\\') ∧ Separated cs u ∧ t = driveText drive ++ sep :: u

/-- The text is the absolute path with these components, with or without a separator behind it. -/
def SpellsRoot (drive : Option Char) (cs : List Text) (t : Text) : Prop :=
  SpellsPath drive cs t ∨
    ∃ u sep, SpellsPath drive cs u ∧ (sep = '/' ∨ sep = '\\') ∧ t = u ++ [sep]

/-- The components with slashes between them. -/
def joined (cs : List Text) : Text := ['/'].intercalate cs

@[simp] theorem joined_nil : joined [] = [] := rfl

@[simp] theorem joined_singleton (c : Text) : joined [c] = c := by simp [joined]

theorem joined_cons (c d : Text) (cs : List Text) :
    joined (c :: d :: cs) = c ++ '/' :: joined (d :: cs) := by
  simp [joined, List.intercalate_cons_cons]

theorem joined_append (hcs : cs ≠ []) (hds : ds ≠ []) :
    joined (cs ++ ds) = joined cs ++ '/' :: joined ds := by
  induction cs with
  | nil => exact absurd rfl hcs
  | cons c cs ih =>
    cases cs with
    | nil =>
      obtain ⟨d, ds, rfl⟩ := List.exists_cons_of_ne_nil hds
      rw [List.singleton_append, joined_cons, joined_singleton]
    | cons d cs =>
      rw [List.cons_append, List.cons_append, joined_cons, joined_cons, ← List.cons_append,
        ih (by simp), List.append_assoc, List.cons_append]

/-! ### The components of a written path -/

theorem splitOn_joined (hcs : ∀ c ∈ cs, IsComponent c) (hne : cs ≠ []) :
    (joined cs).splitOn '/' = cs :=
  List.splitOn_intercalate '/' (fun c hc => (hcs c hc).slash) hne

theorem joined_inj (hcs : ∀ c ∈ cs, IsComponent c) (hds : ∀ d ∈ ds, IsComponent d)
    (hne : cs ≠ []) (h : joined cs = joined ds) : cs = ds := by
  have hsplit := splitOn_joined hcs hne
  cases ds with
  | nil =>
    have hcs' : cs = [[]] := by simpa [h] using hsplit.symm
    exact absurd rfl (hcs [] (by simp [hcs'])).trimmed.ne_nil
  | cons d ds => rw [← hsplit, h, splitOn_joined hds (by simp)]

/-- A path continues another one, as a text, exactly if it does so component by component. -/
theorem joined_prefix_iff (hcs : ∀ c ∈ cs, IsComponent c) (hds : ∀ d ∈ ds, IsComponent d)
    (hne : cs ≠ []) :
    (joined ds = joined cs ∨ joined cs ++ ['/'] <+: joined ds) ↔ cs <+: ds := by
  constructor
  · rintro (h | ⟨v, hv⟩)
    · exact joined_inj hcs hds hne h.symm ▸ List.prefix_rfl
    · have hds' : ds ≠ [] := by
        rintro rfl
        simp at hv
      rw [List.append_assoc, List.singleton_append] at hv
      refine ⟨v.splitOn '/', ?_⟩
      rw [← splitOn_joined hds hds', ← hv, List.splitOn_append_cons_self, splitOn_joined hcs hne]
  · rintro ⟨es, rfl⟩
    by_cases hes : es = []
    · exact .inl (by rw [hes, List.append_nil])
    · exact .inr ⟨joined es, by rw [joined_append hne hes]; simp⟩

/-- A written path starts with its first component. -/
theorem exists_joined_cons (c : Text) (cs : List Text) : ∃ v, joined (c :: cs) = c ++ v := by
  cases cs with
  | nil => exact ⟨[], by rw [joined_singleton, List.append_nil]⟩
  | cons d cs => exact ⟨_, joined_cons c d cs⟩

theorem joined_ne_nil (hcs : ∀ c ∈ cs, IsComponent c) (hne : cs ≠ []) : joined cs ≠ [] := by
  obtain ⟨c, cs, rfl⟩ := List.exists_cons_of_ne_nil hne
  obtain ⟨v, hv⟩ := exists_joined_cons c cs
  rw [hv]
  exact List.append_ne_nil_of_left_ne_nil (hcs c (by simp)).trimmed.ne_nil v

/-- A written path ends with its last component. -/
theorem last_joined {p : Char → Bool} (hcs : ∀ c ∈ cs, IsComponent c)
    (hp : ∀ c, IsComponent c → ∀ x ∈ c.getLast?, p x = false) :
    ∀ x ∈ (joined cs).getLast?, p x = false := by
  induction cs with
  | nil => simp
  | cons c cs ih =>
    have hrest : ∀ d ∈ cs, IsComponent d := fun d hd => hcs d (List.mem_cons_of_mem _ hd)
    cases cs with
    | nil => simpa using hp c (hcs c (by simp))
    | cons d cs =>
      obtain ⟨x, v, hv⟩ := List.exists_cons_of_ne_nil (joined_ne_nil hrest (by simp))
      have hlast : (joined (c :: d :: cs)).getLast? = (joined (d :: cs)).getLast? := by
        rw [joined_cons, hv, List.getLast?_append, List.getLast?_cons_cons,
          List.getLast?_cons, Option.some_or]
      rw [hlast]
      exact ih hrest

theorem last_slash_of_isComponent (h : IsComponent c) : ∀ x ∈ c.getLast?, (x == '/') = false := by
  intro x hx
  rw [beq_eq_false_iff_ne]
  rintro rfl
  exact h.slash (List.mem_of_getLast? hx)

/-- A component never reads like a leading piece `./`, whatever follows it. -/
theorem dropHere_component (h : IsComponent c) (v : Text) : dropHere (c ++ v) = c ++ v := by
  refine dropHere.eq_2 _ ?_
  intro w hw
  obtain ⟨x, c, rfl⟩ := List.exists_cons_of_ne_nil h.trimmed.ne_nil
  obtain ⟨hx, hrest⟩ := List.cons.inj hw
  cases c with
  | nil => exact h.dot (by rw [hx])
  | cons y c =>
    have hy : y = '/' := (List.cons.inj hrest).1
    exact h.slash (by simp [hy])

theorem dropHere_joined (hcs : ∀ c ∈ cs, IsComponent c) : dropHere (joined cs) = joined cs := by
  cases cs with
  | nil => rfl
  | cons c cs =>
    obtain ⟨v, hv⟩ := exists_joined_cons c cs
    rw [hv]
    exact dropHere_component (hcs c (by simp)) v

/-! ### Separators -/

theorem replaceChar_separator {sep : Char} (h : sep = '/' ∨ sep = '\\') :
    replaceChar '\\' '/' [sep] = ['/'] := by
  rcases h with rfl | rfl <;> rfl

theorem replaceChar_separated (hcs : ∀ c ∈ cs, IsComponent c) (h : Separated cs t) :
    replaceChar '\\' '/' t = joined cs := by
  induction h with
  | nil => rfl
  | single c => rw [joined_singleton, replaceChar_of_notMem (hcs c (by simp)).backslash]
  | @cons c d cs sep t hsep _ ih =>
    have hc : replaceChar '\\' '/' c = c := replaceChar_of_notMem (hcs c (by simp)).backslash
    have ht := ih fun e he => hcs e (List.mem_cons_of_mem _ he)
    calc
      replaceChar '\\' '/' (c ++ sep :: t) =
          replaceChar '\\' '/' c ++ (replaceChar '\\' '/' [sep] ++ replaceChar '\\' '/' t) := by
        simp [replaceChar]
      _ = joined (c :: d :: cs) := by
        rw [hc, replaceChar_separator hsep, ht, joined_cons, List.singleton_append]

theorem replaceChar_path (hdrive : ∀ d ∈ drive, isAsciiLetter d = true)
    (hcs : ∀ c ∈ cs, IsComponent c) (h : SpellsPath drive cs t) :
    replaceChar '\\' '/' t = driveText drive ++ '/' :: joined cs := by
  obtain ⟨sep, u, hsep, hu, rfl⟩ := h
  have hletter : replaceChar '\\' '/' (driveText drive) = driveText drive := by
    refine replaceChar_of_notMem ?_
    cases drive with
    | none => simp [driveText]
    | some d =>
      have hd : d ≠ '\\' := by
        rintro rfl
        exact absurd (hdrive '\\' rfl) (by decide)
      simp [driveText, Ne.symm hd]
  have hrest := replaceChar_separated hcs hu
  calc
    replaceChar '\\' '/' (driveText drive ++ sep :: u) = replaceChar '\\' '/' (driveText drive) ++
        (replaceChar '\\' '/' [sep] ++ replaceChar '\\' '/' u) := by simp [replaceChar]
    _ = driveText drive ++ '/' :: joined cs := by
      rw [hletter, replaceChar_separator hsep, hrest, List.singleton_append]

/-- Neither kind of separator is white space, so it does not matter which is trimmed first. -/
theorem replaceChar_trim (t : Text) :
    replaceChar '\\' '/' t.trim = (replaceChar '\\' '/' t).trim := by
  have hblank : isBlank ∘ (fun x => if x = '\\' then '/' else x) = isBlank := by
    funext x
    by_cases hx : x = '\\'
    · subst hx
      decide
    · simp [hx]
  simp [trim, trimRight, trimLeft, dropEndWhile, replaceChar, List.dropWhile_map, hblank,
    ← List.map_reverse]

/-! ### Drives -/

/-- An absolute path without its drive.  Its first slash goes with the drive, if there is one. -/
def onDrive (drive : Option Char) (v : Text) : Text := if drive.isSome then v else '/' :: v

theorem onDrive_append (drive : Option Char) (u v : Text) :
    onDrive drive (u ++ v) = onDrive drive u ++ v := by
  cases drive <;> rfl

theorem onDrive_inj : onDrive drive u = onDrive drive v ↔ u = v := by
  cases drive <;> simp [onDrive]

theorem onDrive_prefix_iff : onDrive drive u <+: onDrive drive v ↔ u <+: v := by
  cases drive <;> simp [onDrive]

theorem slashed_of_replaceChar (hdrive : ∀ d ∈ drive, isAsciiLetter d = true)
    (hlast : ∀ x ∈ v.getLast?, isBlank x = false)
    (h : replaceChar '\\' '/' t = driveText drive ++ '/' :: v) : slashed t = onDrive drive v := by
  have hend : ∀ x ∈ (driveText drive ++ '/' :: v).getLast?, isBlank x = false := by
    intro x hx
    rw [List.getLast?_append, List.getLast?_cons, Option.some_or] at hx
    cases hv : v.getLast? with
    | none =>
      obtain rfl : '/' = x := by simpa [hv] using hx
      decide
    | some y =>
      obtain rfl : y = x := by simpa [hv] using hx
      exact hlast y hv
  have htrim : (driveText drive ++ '/' :: v).trim = driveText drive ++ '/' :: v := by
    refine IsTrimmed.trim_eq ⟨by simp, ?_, hend⟩
    cases drive with
    | none => exact stops_cons.2 (by decide)
    | some d =>
      refine stops_cons.2 ?_
      rw [Bool.eq_false_iff]
      intro hblank
      exact Bool.false_ne_true ((isAsciiLetter_of_isBlank hblank).symm.trans (hdrive d rfl))
  rw [slashed, replaceChar_trim, h, htrim]
  cases drive with
  | none =>
    refine dropDrive_eq_self_iff.2 ?_
    intro d w hw
    rw [← (List.cons.inj hw).1]
    decide
  | some d => exact if_pos (hdrive d rfl)

/-! ### Root and path -/

variable {R : List Text}

theorem slashed_path (hdrive : ∀ d ∈ drive, isAsciiLetter d = true)
    (hcs : ∀ c ∈ cs, IsComponent c) (h : SpellsPath drive cs t) :
    slashed t = onDrive drive (joined cs) :=
  slashed_of_replaceChar hdrive (last_joined hcs fun _ hc => hc.trimmed.last)
    (replaceChar_path hdrive hcs h)

theorem dropHere_onDrive (hcs : ∀ c ∈ cs, IsComponent c) (hne : cs ≠ []) (w : Text) :
    dropHere (onDrive drive (joined cs ++ w)) = onDrive drive (joined cs ++ w) := by
  cases drive with
  | none => rfl
  | some d =>
    obtain ⟨c, cs, rfl⟩ := List.exists_cons_of_ne_nil hne
    obtain ⟨v, hv⟩ := exists_joined_cons c cs
    change dropHere (joined (c :: cs) ++ w) = joined (c :: cs) ++ w
    rw [hv, List.append_assoc]
    exact dropHere_component (hcs c (by simp)) _

/-- However the root is written, its components are what is looked for. -/
theorem rootSpelling_root (hdrive : ∀ d ∈ drive, isAsciiLetter d = true)
    (hR : ∀ c ∈ R, IsComponent c) (hne : R ≠ []) (h : SpellsRoot drive R root) :
    rootSpelling root = onDrive drive (joined R) := by
  obtain ⟨w, hw, hslashed⟩ : ∃ w, AllIn (· == '/') w ∧
      slashed root = onDrive drive (joined R ++ w) := by
    rcases h with h | ⟨u, sep, hu, hsep, rfl⟩
    · exact ⟨[], by simp, by rw [List.append_nil, slashed_path hdrive hR h]⟩
    · refine ⟨['/'], by simp, slashed_of_replaceChar hdrive ?_ ?_⟩
      · intro x hx
        obtain rfl : '/' = x := by simpa using hx
        decide
      · calc
          replaceChar '\\' '/' (u ++ [sep]) =
              replaceChar '\\' '/' u ++ replaceChar '\\' '/' [sep] := by simp [replaceChar]
          _ = driveText drive ++ '/' :: (joined R ++ ['/']) := by
            rw [replaceChar_separator hsep, replaceChar_path hdrive hR hu, List.append_assoc,
              List.cons_append]
  have hend : ∀ x ∈ (onDrive drive (joined R)).getLast?, (x == '/') = false := by
    obtain ⟨x, v, hv⟩ := List.exists_cons_of_ne_nil (joined_ne_nil hR hne)
    have hlast : (onDrive drive (joined R)).getLast? = (joined R).getLast? := by
      cases drive with
      | none => rw [onDrive, if_neg (by simp), hv, List.getLast?_cons_cons]
      | some d => rfl
    rw [hlast]
    exact last_joined hR fun _ => last_slash_of_isComponent
  rw [rootSpelling, hslashed, dropHere_onDrive hR hne, onDrive_append,
    dropEndWhile_append_run hw hend]

theorem below_onDrive (hR : ∀ c ∈ R, IsComponent c) (hne : R ≠ []) (cs : List Text) :
    below (onDrive drive (joined R)) (onDrive drive (joined (R ++ cs))) = joined cs := by
  have hsome : (onDrive drive (joined R)).isEmpty = false := by
    cases drive <;> simp [onDrive, joined_ne_nil hR hne]
  rw [below, hsome]
  by_cases hcs : cs = []
  · rw [hcs, List.append_nil]
    simp
  · have hsplit : onDrive drive (joined (R ++ cs)) =
        onDrive drive (joined R) ++ ['/'] ++ joined cs := by
      rw [joined_append hne hcs, onDrive_append, List.append_assoc, List.singleton_append]
    have hlonger : onDrive drive (joined (R ++ cs)) ≠ onDrive drive (joined R) := by
      rw [hsplit, List.append_assoc]
      simp
    rw [if_neg Bool.false_ne_true, if_neg hlonger, hsplit,
      List.isPrefixOf?_eq_some_iff_append_eq.2 rfl, Option.getD_some]

/-- What the root does not lead to is left alone, also where its text starts like that of the
    root. -/
theorem below_onDrive_eq_self_iff (hR : ∀ c ∈ R, IsComponent c) (hne : R ≠ [])
    (hcs : ∀ c ∈ cs, IsComponent c) :
    below (onDrive drive (joined R)) (onDrive drive (joined cs)) = onDrive drive (joined cs) ↔
      ¬ R <+: cs := by
  have hsome : onDrive drive (joined R) ≠ [] := by
    cases drive <;> simp [onDrive, joined_ne_nil hR hne]
  rw [below_eq_self_iff, or_iff_right hsome, ← joined_prefix_iff hR hcs hne, ← onDrive_append,
    onDrive_prefix_iff, Ne, onDrive_inj, not_or]

theorem portable_none_path (hdrive : ∀ d ∈ drive, isAsciiLetter d = true)
    (hcs : ∀ c ∈ cs, IsComponent c) (h : SpellsPath drive cs t) :
    portable none t = onDrive drive (joined cs) := by
  rw [portable_eq, belowRoot, slashed_path hdrive hcs h]
  by_cases hne : cs = []
  · subst hne
    cases drive <;> rfl
  · simpa using dropHere_onDrive hcs hne []

theorem portable_some_path (hdrive : ∀ d ∈ drive, isAsciiLetter d = true)
    (hR : ∀ c ∈ R, IsComponent c) (hne : R ≠ []) (hroot : SpellsRoot drive R root)
    (hcs : ∀ c ∈ cs, IsComponent c) (h : SpellsPath drive (R ++ cs) t) :
    portable (some root) t = joined cs := by
  have hall : ∀ c ∈ R ++ cs, IsComponent c := List.forall_mem_append.2 ⟨hR, hcs⟩
  rw [portable_eq, belowRoot, rootSpelling_root hdrive hR hne hroot, slashed_path hdrive hall h,
    below_onDrive hR hne, dropHere_joined hcs]

/-- **The root is stripped exactly.**  A path that goes on behind the components of the root is
    spelled by what follows them, and any other path as if there were no root, whichever
    separators the two are written with, on a drive or on none, and with or without a separator
    behind the root. -/
theorem portable_root_iff (hdrive : ∀ d ∈ drive, isAsciiLetter d = true)
    (hR : ∀ c ∈ R, IsComponent c) (hne : R ≠ []) (hroot : SpellsRoot drive R root) :
    (∀ cs t, (∀ c ∈ cs, IsComponent c) → SpellsPath drive (R ++ cs) t →
      portable (some root) t = ['/'].intercalate cs) ∧
    ∀ cs t, (∀ c ∈ cs, IsComponent c) → SpellsPath drive cs t →
      (portable (some root) t = portable none t ↔ ¬ R <+: cs) := by
  refine ⟨fun cs t hcs h => portable_some_path hdrive hR hne hroot hcs h, ?_⟩
  intro cs t hcs h
  constructor
  · rintro heq ⟨ds, rfl⟩
    have hds : ∀ d ∈ ds, IsComponent d := fun d hd => hcs d (List.mem_append_right _ hd)
    rw [portable_some_path hdrive hR hne hroot hds h, portable_none_path hdrive hcs h] at heq
    have hbelow : below (onDrive drive (joined R)) (onDrive drive (joined (R ++ ds))) = joined ds :=
      below_onDrive hR hne ds
    rw [heq, below_onDrive_eq_self_iff hR hne hcs] at hbelow
    exact hbelow ⟨ds, rfl⟩
  · intro hnot
    have hkept : below (onDrive drive (joined R)) (onDrive drive (joined cs)) =
        onDrive drive (joined cs) := (below_onDrive_eq_self_iff hR hne hcs).2 hnot
    rw [portable_eq, portable_eq, belowRoot, belowRoot, rootSpelling_root hdrive hR hne hroot,
      slashed_path hdrive hcs h, hkept]

/-- The path below the root and the root are written with different separators.  The other path
    starts with the same text, but not with the same components. -/
theorem portable_root_iff_drive :
    let root := "C:\\work/my app\\".toList
    portable (some root) "C:/work\\my app/src\\a.ts".toList = "src/a.ts".toList ∧
      portable (some root) "C:/work/my apps/a.ts".toList = "work/my apps/a.ts".toList := by
  intro root
  have hcomponent (c : Text) (hne : c ≠ []) (hhead : Stops isBlank c)
      (hlast : ∀ x ∈ c.getLast?, isBlank x = false)
      (hplain : '/' ∉ c ∧ '\\' ∉ c ∧ c ≠ ['.']) : IsComponent c :=
    ⟨⟨hne, hhead, hlast⟩, hplain.1, hplain.2.1, hplain.2.2⟩
  have hall : ∀ c ∈ ["work", "my app", "my apps", "src", "a.ts"].map String.toList,
      IsComponent c := by
    simp only [List.map_cons, List.map_nil, List.forall_mem_cons]
    refine ⟨?_, ?_, ?_, ?_, ?_, nofun⟩
    all_goals
      exact hcomponent _ (by decide) (stops_cons.2 (by decide)) (by simp; decide) (by decide)
  have hdrive : ∀ d ∈ some 'C', isAsciiLetter d = true := by simp; decide
  have hR : ∀ c ∈ ["work".toList, "my app".toList], IsComponent c := fun c hc => hall c (by
    simp only [List.mem_cons, List.not_mem_nil, or_false] at hc
    rcases hc with rfl | rfl <;> simp)
  have hroot : SpellsRoot (some 'C') ["work".toList, "my app".toList] root :=
    .inr ⟨"C:\\work/my app".toList, '\\', ⟨'\\', "work/my app".toList, .inr rfl,
      .cons _ (.inl rfl) (.single _), rfl⟩, .inr rfl, rfl⟩
  obtain ⟨hbelow, hother⟩ := portable_root_iff hdrive hR (by simp) hroot
  refine ⟨?_, ?_⟩
  · have hcs : ∀ c ∈ ["src".toList, "a.ts".toList], IsComponent c := fun c hc => hall c (by
      simp only [List.mem_cons, List.not_mem_nil, or_false] at hc
      rcases hc with rfl | rfl <;> simp)
    exact hbelow _ _ hcs ⟨'/', "work\\my app/src\\a.ts".toList, .inl rfl,
      .cons _ (.inr rfl) (.cons _ (.inl rfl) (.cons _ (.inr rfl) (.single _))), rfl⟩
  · have hcs : ∀ c ∈ ["work".toList, "my apps".toList, "a.ts".toList], IsComponent c :=
      fun c hc => hall c (by
        simp only [List.mem_cons, List.not_mem_nil, or_false] at hc
        rcases hc with rfl | rfl | rfl <;> simp)
    refine ((hother _ _ hcs ⟨'/', "work/my apps/a.ts".toList, .inl rfl,
      .cons _ (.inl rfl) (.cons _ (.inl rfl) (.single _)), rfl⟩).2 (by decide)).trans ?_
    decide

end ImportRepair
