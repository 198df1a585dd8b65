import ImportRepair.Proofs.Merge.Groups

/-!
# What an import table holds of its text

A table is looked at in three ways: by line, by module, and as the modules that
have statements to merge.  Lines that mention neither `import` nor `require` are
never read, the modules are collected in the order of their first statement, and
modules with duplicates are found by counting keys while a merge forms groups.
None of this loses or invents a statement: the views hold on each line exactly
what is read from that line.
-/

namespace ImportRepair

open Text

/-- What is read from a line of a text, whatever words the line mentions. -/
def Statement.readAt? (t : Text) (n : Int) : Option Statement :=
  if n < 1 then none else (lines t)[(n - 1).toNat]?.bind fun l => Statement.ofLine? l n

theorem Statement.readAt?_eq_some_iff {t : Text} {n : Int} {s : Statement} :
    Statement.readAt? t n = some s ↔
      ∃ l, (n, l) ∈ numberedLines t ∧ Statement.ofLine? l n = some s := by
  simp only [mem_numberedLines_iff, Statement.readAt?]
  split
  · next hlt =>
    have hle : ¬1 ≤ n := by omega
    simp [hle]
  · next hge =>
    have hle : 1 ≤ n := by omega
    simp only [hle, true_and, Option.bind_eq_some_iff]

namespace ImportTable

variable {table : ImportTable} {m : Text} {n : Int} {g : Text × List Statement}

/-! ### The views -/

/-- The statements of all modules, each with the module that it is listed under. -/
def entries (table : ImportTable) : List (Text × Statement) :=
  table.byModule.flatMap fun g => g.2.map fun s => (g.1, s)

/-- The views of a table hold what is read from the lines of a text, and nothing else. -/
structure IsIndexOf (table : ImportTable) (t : Text) : Prop where
  /-- The statement on a line is what is read from it. -/
  onLine : ∀ n, table.onLine? n = Statement.readAt? t n
  /-- What is read from a line is listed once, under its own module, and no module lists anything
      else for that line. -/
  listed : ∀ n, (table.entries.filter fun e => e.2.line == n) =
    (Statement.readAt? t n).toList.map fun s => (s.specifier, s)
  /-- A module is listed once. -/
  modules : (table.byModule.map (·.1)).Nodup
  /-- The statements of a module come in the order of their lines. -/
  inOrder : ∀ g ∈ table.byModule, g.2.Pairwise fun s r => s.line < r.line
  /-- The modules with duplicates are those for which a merge has a group, which is one of two or
      more statements. -/
  duplicates : table.duplicateModules =
    table.byModule.filter fun g => decide (∃ h ∈ table.duplicateGroups, h.specifier = g.1)

/-! ### The view by line -/

theorem onLine?_ofText (t : Text) (n : Int) : (ofText t).onLine? n = Statement.readAt? t n := by
  ext s
  rw [onLine?_eq_some_iff, mem_ofText_iff, Statement.readAt?_eq_some_iff]
  constructor
  · rintro ⟨⟨l, hl, hs⟩, rfl⟩
    exact ⟨l, hl, hs⟩
  · rintro ⟨l, hl, hs⟩
    obtain rfl := Statement.ofLine?_line hs
    exact ⟨⟨l, hl, hs⟩, rfl⟩

theorem IsSorted.filter_line (h : table.IsSorted) (n : Int) :
    (table.filter fun s => s.line == n) = (table.onLine? n).toList := by
  induction table with
  | nil => rfl
  | cons a table ih =>
    obtain ⟨hlt, h⟩ := List.pairwise_cons.1 h
    rw [onLine?, List.filter_cons, List.find?_cons]
    by_cases ha : a.line = n
    · have hnone : (table.filter fun s => s.line == n) = [] := by
        rw [List.filter_eq_nil_iff]
        intro s hs
        have hline := hlt s hs
        simp only [beq_iff_eq]
        omega
      simp [ha, hnone]
    · have hne : (a.line == n) = false := by simpa using ha
      simp only [hne, Bool.false_eq_true, if_false]
      exact ih h

/-! ### The view by module -/

theorem mem_byModule_iff :
    g ∈ table.byModule ↔ g.2 ≠ [] ∧ g.2 = table.filter fun s => s.specifier == g.1 :=
  mem_groupBy_iff

/-- Every statement is listed under its own module. -/
theorem entries_eq (table : ImportTable) :
    table.entries = (table.byModule.flatMap (·.2)).map fun s => (s.specifier, s) := by
  rw [entries, List.map_flatMap]
  refine List.flatMap_congr fun g hg => List.map_congr_left fun s hs => ?_
  rw [(mem_of_mem_groupBy hg hs).2]

/-- Both views hold the same on each line. -/
theorem IsSorted.filter_entries (h : table.IsSorted) (n : Int) :
    (table.entries.filter fun e => e.2.line == n) =
      (table.onLine? n).toList.map fun s => (s.specifier, s) := by
  have hperm : ((table.byModule.flatMap (·.2)).filter fun s => s.line == n).Perm
      (table.onLine? n).toList := by
    rw [← h.filter_line]
    exact (perm_flatMap_groupBy _ table).filter _
  -- with one statement at most there is no order to lose
  have heq : ((table.byModule.flatMap (·.2)).filter fun s => s.line == n) =
      (table.onLine? n).toList := by
    cases hs : table.onLine? n with
    | none => simpa [hs] using hperm
    | some s => simpa [hs] using hperm
  rw [entries_eq, List.filter_map, ← heq]
  rfl

theorem IsSorted.of_mem_byModule (h : table.IsSorted) (hg : g ∈ table.byModule) :
    g.2.Pairwise fun s r => s.line < r.line := by
  rw [(mem_byModule_iff.1 hg).2]
  exact h.sublist List.filter_sublist

/-! ### Modules with duplicates -/

/-- Counting a key among the statements of a module measures the class of that key. -/
theorem count_mergeKey (hg : g ∈ table.byModule) (key : MergeKey) :
    (g.2.map Statement.mergeKey).count key = (table.ofClass g.1 key).length := by
  rw [(mem_byModule_iff.1 hg).2, List.count, List.countP_map, List.countP_filter,
    List.countP_eq_length_filter, ofClass]
  congr 1
  refine List.filter_congr fun s _ => ?_
  simp [Bool.and_comm]

theorem exists_duplicateGroup_iff : (∃ h ∈ table.duplicateGroups, h.specifier = m) ↔
    ∃ key, 1 < (table.ofClass m key).length := by
  constructor
  · rintro ⟨h, hh, rfl⟩
    refine ⟨h.key, ?_⟩
    rw [mem_duplicateGroups_iff.1 hh]
    simp [DuplicateGroup.statements, DuplicateGroup.later]
  · rintro ⟨key, hlt⟩
    rcases hclass : table.ofClass m key with _ | ⟨first, _ | ⟨second, rest⟩⟩
    · simp [hclass] at hlt
    · simp [hclass] at hlt
    · exact ⟨⟨m, key, first, second, rest⟩, mem_duplicateGroups_iff.2 hclass, rfl⟩

/-- **Counting keys and forming groups find the same modules.** -/
theorem duplicateModules_eq (table : ImportTable) : table.duplicateModules =
    table.byModule.filter fun g =>
      decide (∃ h ∈ table.duplicateGroups, h.specifier = g.1) := by
  refine List.filter_congr fun g hg => ?_
  rw [Bool.eq_iff_iff, decide_eq_true_iff, exists_duplicateGroup_iff]
  simp only [List.any_eq_true, decide_eq_true_eq, count_mergeKey hg]
  constructor
  · rintro ⟨key, -, hlt⟩
    exact ⟨key, hlt⟩
  · rintro ⟨key, hlt⟩
    refine ⟨key, ?_, hlt⟩
    rw [← List.count_pos_iff, count_mergeKey hg]
    omega

/-- Types and values of one module are no duplicates, but two imports of values are. -/
example :
    (ofText "import { A } from 'x';\nimport type { T } from 'x';\n".toList).duplicates = [] ∧
    (ofText "import { A } from 'x';\nuse(A);\nimport { B } from 'x';\n".toList).duplicates =
      ["x".toList] := by
  decide +kernel

end ImportTable

/-! ### The table of a text -/

/-- **The table of a text loses and invents no statement.** -/
theorem isIndexOf_ofText (t : Text) : (ImportTable.ofText t).IsIndexOf t where
  onLine n := ImportTable.onLine?_ofText t n
  listed n := by rw [(isSorted_ofText t).filter_entries, ImportTable.onLine?_ofText]
  modules := List.pairwise_map.2 (pairwise_groupBy _ _)
  inOrder _ hg := (isSorted_ofText t).of_mem_byModule hg
  duplicates := ImportTable.duplicateModules_eq _

end ImportRepair
