import ImportRepair.Project.Settings
import ImportRepair.Proofs.Host.Disk
import ImportRepair.Proofs.Path.Root

/-!
# Excluded files and the place of a project

Whether a file below the root of a project may be touched is decided by its
suffix, by the pieces of its path that mark tests, by the names of the
directories on the way to it, and by the target directories.  The last filter
never looks at the root itself.  The second and the third see the whole path, so
they judge the directories above the project together with those below: the
verdict on a file is that on its path below the root, or what the path of the
root adds to it, which is the same for all files of the project.
-/

namespace ImportRepair

open Text

variable {m u v t : Text} {x : Char} {here here₁ here₂ root R₁ R₂ p r : Path} {s : Settings}
  {ns : List Text}

/-! ### Markers around a separator -/

/-- A piece with no separator inside stands in front of a separator or behind it. -/
theorem infix_append_cons_iff (hm : x ∉ m.tail.dropLast) :
    m <:+: u ++ x :: v ↔ m <:+: u ++ [x] ∨ m <:+: x :: v := by
  constructor
  · rintro ⟨a, b, h⟩
    rw [List.append_assoc, List.append_eq_append_iff] at h
    rcases h with ⟨w, rfl, hw⟩ | ⟨w, rfl, hw⟩
    · rw [List.append_eq_append_iff] at hw
      rcases hw with ⟨c, rfl, -⟩ | ⟨c, rfl, hc⟩
      · exact .inl ⟨a, c ++ [x], by simp⟩
      -- The piece ends behind the separator, so it holds it at its front or at its end.
      · rcases c with _ | ⟨y, c⟩
        · exact .inl ⟨a, [x], by simp⟩
        obtain ⟨rfl, rfl⟩ := List.cons.inj hc
        rcases w with _ | ⟨z, w⟩
        · exact .inr ⟨[], b, by simp⟩
        rcases List.eq_nil_or_concat c with rfl | ⟨c, z', rfl⟩
        · exact .inl ⟨a, [], by simp⟩
        · have hparts : z :: w ++ x :: c.concat z' = z :: ((w ++ x :: c) ++ [z']) := by simp
          have hinside : x ∈ w ++ x :: c := by simp
          rw [hparts, List.tail_cons, List.dropLast_concat] at hm
          exact absurd hinside hm
    · exact .inr ⟨w, b, by rw [List.append_assoc, hw]⟩
  · rintro (h | h)
    · exact h.trans ⟨[], v, by simp⟩
    · exact h.trans ⟨u, [], by simp⟩

/-! ### Test files -/

theorem isTestPath_iff : isTestPath t = true ↔
    ∃ k ∈ testMarkers, k.toList <:+: '/' :: replaceChar '\\' '/' t := by
  simp only [isTestPath, List.any_eq_true, occursIn_iff]

theorem slash_not_mem_testMarkers : ∀ k ∈ testMarkers, '/' ∉ k.toList.tail.dropLast := by decide

/-- **Every marker of a test stands on one side of a separator.** -/
theorem isTestPath_append (u v : Text) :
    isTestPath (u ++ '/' :: v) = (isTestPath (u ++ ['/']) || isTestPath v) := by
  have hsplit : ∀ w, '/' :: replaceChar '\\' '/' (u ++ '/' :: w) =
      ('/' :: replaceChar '\\' '/' u) ++ '/' :: replaceChar '\\' '/' w := by
    intro w
    simp [replaceChar]
  rw [Bool.eq_iff_iff, Bool.or_eq_true]
  simp only [isTestPath_iff, hsplit]
  constructor
  · rintro ⟨k, hk, h⟩
    rw [infix_append_cons_iff (slash_not_mem_testMarkers k hk)] at h
    exact h.imp (fun h => ⟨k, hk, h⟩) fun h => ⟨k, hk, h⟩
  · rintro (⟨k, hk, h⟩ | ⟨k, hk, h⟩)
    · exact ⟨k, hk, (infix_append_cons_iff (slash_not_mem_testMarkers k hk)).2 (.inl h)⟩
    · exact ⟨k, hk, (infix_append_cons_iff (slash_not_mem_testMarkers k hk)).2 (.inr h)⟩

/-! ### Paths below a root -/

/-- The path is one that a project may have for its root: it is absolute and stands for a place. -/
structure Path.IsPlace (p : Path) : Prop where
  absolute : p.isAbsolute = true
  plain : p.holdsNul = false

/-- The path is relative and never leads one level up. -/
structure Path.LeadsDown (p : Path) : Prop where
  relative : p.root = .relative
  plain : ∀ n ∈ p.names, n ≠ ['.', '.']

theorem Path.LeadsDown.isAbsolute (h : r.LeadsDown) : r.isAbsolute = false := by
  rw [Path.isAbsolute, h.relative]
  rfl

theorem Path.LeadsDown.join (h : r.LeadsDown) (p : Path) :
    p.join r = ⟨p.root, p.names ++ r.names⟩ := by
  rw [Path.join, h.isAbsolute]
  rfl

theorem suffix_join (h : r.LeadsDown) (hne : r.names ≠ []) : (p.join r).suffix = r.suffix := by
  obtain ⟨n, hn⟩ := Option.isSome_iff_exists.1 (List.getLast?_isSome.2 hne)
  rw [Path.suffix, Path.suffix, h.join, List.getLast?_append, hn, Option.some_or]

theorem parts_join (hp : p.isAbsolute = true) (h : r.LeadsDown) :
    (p.join r).parts = p.parts ++ r.parts := by
  have hjoin : (p.join r).isAbsolute = true := by
    rw [h.join]
    exact hp
  rw [Path.parts, Path.parts, Path.parts, if_pos hjoin, if_pos hp, h.isAbsolute, h.join]
  rfl

theorem text_relative (h : r.LeadsDown) (hne : r.names ≠ []) : r.text = joined r.names := by
  have hnames : ¬ (r.root = .relative && r.names.isEmpty) = true := by simp [hne]
  rw [Path.text, if_neg hnames, h.relative]
  rfl

theorem text_absolute (hp : p.isAbsolute = true) : p.text = p.root.text ++ joined p.names := by
  have hroot : p.root ≠ .relative := by simpa [Path.isAbsolute] using hp
  have hnames : ¬ (p.root = .relative && p.names.isEmpty) = true := by simp [hroot]
  rw [Path.text, if_neg hnames]
  rfl

/-- A path below the root of all files is written behind the slashes of that root, any other behind
    a slash of its own. -/
theorem text_join (hp : p.isAbsolute = true) (h : r.LeadsDown) (hne : r.names ≠ []) :
    (p.join r).text = if p.names = [] then p.root.text ++ r.text else p.text ++ '/' :: r.text := by
  have hjoin : (p.join r).isAbsolute = true := by
    rw [h.join]
    exact hp
  rw [text_absolute hjoin, text_relative h hne, text_absolute hp, h.join]
  by_cases hnames : p.names = []
  · rw [if_pos hnames, hnames]
    rfl
  · rw [if_neg hnames, joined_append hnames hne, List.append_assoc]

/-- The slashes of a root hold no marker. -/
theorem isTestPath_root (hnames : p.names = []) (hp : p.isAbsolute = true) (t : Text) :
    isTestPath (p.root.text ++ t) = isTestPath t ∧ isTestPath (p.text ++ ['/']) = false := by
  have htext : p.text = p.root.text := by
    rw [text_absolute hp, hnames]
    exact List.append_nil _
  rw [htext]
  cases hroot : p.root with
  | relative => exact absurd hroot (by simpa [Path.isAbsolute] using hp)
  | slash => exact ⟨isTestPath_append [] t, by decide⟩
  | doubleSlash => exact ⟨isTestPath_append ['/'] t, by decide⟩

/-- A path below a root is that of a test if its own names say so, or those of the root. -/
theorem isTestPath_join (hp : p.isAbsolute = true) (h : r.LeadsDown) (hne : r.names ≠ []) :
    isTestPath (p.join r).text = (isTestPath r.text || isTestPath (p.text ++ ['/'])) := by
  rw [text_join hp h hne]
  by_cases hnames : p.names = []
  · obtain ⟨hbelow, habove⟩ := isTestPath_root hnames hp r.text
    rw [if_pos hnames, hbelow, habove, Bool.or_false]
  · rw [if_neg hnames, isTestPath_append, Bool.or_comm]

theorem holdsNul_join (h : r.LeadsDown) : (p.join r).holdsNul = (p.holdsNul || r.holdsNul) := by
  rw [h.join, Path.holdsNul, List.any_append]
  rfl

/-- What lies below a path lies within it wherever the path leads. -/
theorem isWithin_join (hp : p.isAbsolute = true) (h : r.LeadsDown) :
    ((p.join r).resolve here).isWithin (p.resolve here) = true := by
  have hhere : ∀ q : Path, q.isAbsolute = true → here.join q = q := by
    intro q hq
    rw [Path.join, if_pos hq]
  have hjoin : (p.join r).isAbsolute = true := by
    rw [h.join]
    exact hp
  rw [Path.resolve, Path.resolve, hhere p hp, hhere _ hjoin, h.join, Path.climb_append,
    Path.climb_of_plain h.plain, List.reverse_reverse]
  simp [Path.isWithin]

/-! ### The verdict on a file below a root -/

namespace Settings

/-- The settings for a project with another root, which is the only target directory. -/
def movedTo (s : Settings) (here root : Path) : Settings :=
  { s with root := root.resolve here, targets := [root.resolve here] }

/-- What the names above a project say about each of its files: one of them is excluded or marks
    tests. -/
def excludesAbove (s : Settings) (root : Path) : Bool :=
  (!s.includeTests && isTestPath (root.text ++ ['/'])) || root.parts.any s.excludes.contains

theorem any_contains_append (excludes ns ms : List Text) :
    excludes.any (ns ++ ms).contains = (excludes.any ms.contains || ns.any excludes.contains) := by
  rw [Bool.eq_iff_iff]
  simp only [List.any_eq_true, List.contains_eq_mem, List.mem_append, decide_eq_true_eq,
    Bool.or_eq_true]
  constructor
  · rintro ⟨n, hn, h | h⟩
    · exact .inr ⟨n, h, hn⟩
    · exact .inl ⟨n, hn, h⟩
  · rintro (⟨n, hn, h⟩ | ⟨n, h, hn⟩)
    · exact ⟨n, hn, .inr h⟩
    · exact ⟨n, hn, .inl h⟩

/-- **The names on the way to a file are judged on both sides of the root.** -/
theorem excludesNames?_join (hroot : root.isAbsolute = true) (h : r.LeadsDown)
    (hne : r.names ≠ []) :
    s.excludesNames? (root.join r) = (s.excludesNames? r || s.excludesAbove root) := by
  rw [excludesNames?, excludesNames?, excludesAbove, suffix_join h hne, isTestPath_join hroot h hne,
    parts_join hroot h, any_contains_append, Bool.and_or_distrib_left]
  ac_rfl

theorem excludes?_movedTo (hroot : root.isAbsolute = true) (h : r.LeadsDown) :
    (s.movedTo here root).excludes? here (root.join r) = s.excludesNames? (root.join r) := by
  have hwithin : (s.movedTo here root).targets.any ((root.join r).resolve here).isWithin =
      true := by
    rw [movedTo, List.any_cons, isWithin_join hroot h, Bool.true_or]
  rw [excludes?, hwithin, Bool.not_true, Bool.or_false]
  rfl

/-- The verdict does not depend on the place of the project but through the names on the way. -/
theorem judge_movedTo (hroot : root.IsPlace) (h : r.LeadsDown) :
    ((s.movedTo here root).judge here (root.join r)).toOption =
      if s.excludesNames? (root.join r) then some true
      else if r.holdsNul then none else some false := by
  have hnames : (s.movedTo here root).excludesNames? (root.join r) =
    s.excludesNames? (root.join r) := rfl
  rw [judge, hnames, holdsNul_join h, hroot.plain, Bool.false_or,
    excludes?_movedTo hroot.absolute h]
  split_ifs with hexcluded
  · rfl
  · rfl
  · rw [Except.toOption, Bool.eq_false_iff.2 hexcluded]

theorem judge_movedTo_eq_iff (h₁ : R₁.IsPlace) (h₂ : R₂.IsPlace) (h : r.LeadsDown) :
    ((s.movedTo here₁ R₁).judge here₁ (R₁.join r)).toOption =
        ((s.movedTo here₂ R₂).judge here₂ (R₂.join r)).toOption ↔
      s.excludesNames? (R₁.join r) = s.excludesNames? (R₂.join r) := by
  rw [judge_movedTo h₁ h, judge_movedTo h₂ h]
  cases s.excludesNames? (R₁.join r) <;> cases s.excludesNames? (R₂.join r) <;>
    cases r.holdsNul <;> simp

end Settings

/-! ### Two places -/

/-- **When the verdict on a file depends on where the project lives.**  Two projects that differ
    only in their root agree on a path exactly if its own names exclude it, or the names above the
    one project exclude its files just as those above the other do.  The path of no names is the
    root itself. -/
theorem exclusion_independent_iff (h₁ : R₁.IsPlace) (h₂ : R₂.IsPlace) (hr : r.LeadsDown) :
    ((s.movedTo here₁ R₁).judge here₁ (R₁.join r)).toOption =
        ((s.movedTo here₂ R₂).judge here₂ (R₂.join r)).toOption ↔
      if r.names = [] then s.excludesNames? R₁ = s.excludesNames? R₂
      else s.excludesNames? r = true ∨ s.excludesAbove R₁ = s.excludesAbove R₂ := by
  rw [Settings.judge_movedTo_eq_iff h₁ h₂ hr]
  by_cases hne : r.names = []
  · have hroot : ∀ p : Path, p.join r = p := by
      intro p
      rw [hr.join, hne, List.append_nil]
    rw [if_pos hne, hroot, hroot]
  · rw [if_neg hne, Settings.excludesNames?_join h₁.absolute hr hne,
      Settings.excludesNames?_join h₂.absolute hr hne]
    cases s.excludesNames? r <;> simp

/-- The settings that a project has unless it asks for others. -/
def plainSettings : Settings := Settings.ofDirectories ⟨.slash, []⟩ ⟨.slash, []⟩ []

/-- A project for which no directories are named is at most moved. -/
theorem ofDirectories_eq_movedTo (here root : Path) :
    Settings.ofDirectories here root [] = plainSettings.movedTo here root := rfl

/-- No name above the two projects is excluded, though one of them begins like one that is. -/
theorem exclusion_independent_builder :
    let here : Path := ⟨.slash, ["srv".toList]⟩
    let R₁ : Path := ⟨.slash, ["home".toList, "app".toList]⟩
    let R₂ : Path := ⟨.slash, ["srv".toList, "builder".toList, "app".toList]⟩
    let r : Path := ⟨.relative, ["src".toList, "a.ts".toList]⟩
    R₁.IsPlace ∧ R₂.IsPlace ∧ r.LeadsDown ∧
      ((plainSettings.movedTo here R₁).judge here (R₁.join r)).toOption =
        ((plainSettings.movedTo here R₂).judge here (R₂.join r)).toOption := by
  intro here R₁ R₂ r
  have h₁ : R₁.IsPlace := ⟨by decide, by decide⟩
  have h₂ : R₂.IsPlace := ⟨by decide, by decide⟩
  have hr : r.LeadsDown := ⟨by decide, by decide⟩
  refine ⟨h₁, h₂, hr, (exclusion_independent_iff h₁ h₂ hr).2 ?_⟩
  rw [if_neg (by decide)]
  exact .inr (by decide)

/-- Below a directory `build` nothing may be touched, wherever in the path it stands. -/
theorem exclusion_depends_on_root :
    let here : Path := ⟨.slash, ["srv".toList]⟩
    let R₁ : Path := ⟨.slash, ["srv".toList, "app".toList]⟩
    let R₂ : Path := ⟨.slash, ["srv".toList, "build".toList, "app".toList]⟩
    let r : Path := ⟨.relative, ["src".toList, "a.ts".toList]⟩
    R₁.IsPlace ∧ R₂.IsPlace ∧ r.LeadsDown ∧
      (plainSettings.movedTo here R₁).judge here (R₁.join r) = .ok false ∧
      (plainSettings.movedTo here R₂).judge here (R₂.join r) = .ok true :=
  ⟨⟨by decide, by decide⟩, ⟨by decide, by decide⟩, ⟨by decide, by decide⟩, by decide +kernel,
    by decide +kernel⟩

end ImportRepair
