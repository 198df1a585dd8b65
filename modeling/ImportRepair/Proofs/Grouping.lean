import ImportRepair.Grouping
import Mathlib.Data.List.Nodup

/-!
# Groups and lists with keys

The groups of a list have distinct keys and share out its members, and a list
whose keys are distinct is a partial function.
-/

namespace ImportRepair

variable {α β κ : Type} [BEq κ] [LawfulBEq κ]

theorem nodup_eraseDups [BEq α] [LawfulBEq α] (l : List α) : l.eraseDups.Nodup := by
  generalize hn : l.length = n
  induction n using Nat.strongRecOn generalizing l with
  | ind n ih =>
    cases l with
    | nil => simp
    | cons a l =>
      rw [List.eraseDups_cons, List.nodup_cons]
      have hle := List.length_filter_le (fun b => !b == a) l
      refine ⟨by simp [List.mem_eraseDups], ih _ ?_ _ rfl⟩
      rw [List.length_cons] at hn
      omega

/-- The keys of groups are distinct. -/
theorem pairwise_groupBy (key : α → κ) (l : List α) :
    (groupBy key l).Pairwise fun g h => g.1 ≠ h.1 := by
  have hkeys := nodup_eraseDups (l.map key)
  rw [← map_fst_groupBy] at hkeys
  exact List.pairwise_map.1 hkeys

theorem mem_groupBy_iff {key : α → κ} {l : List α} {g : κ × List α} :
    g ∈ groupBy key l ↔ g.2 ≠ [] ∧ g.2 = l.filter fun a => key a == g.1 := by
  simp only [groupBy, List.mem_map, List.mem_eraseDups]
  constructor
  · rintro ⟨k, ⟨a, ha, rfl⟩, rfl⟩
    refine ⟨List.ne_nil_of_mem (a := a) ?_, rfl⟩
    simpa using ha
  · rintro ⟨hne, heq⟩
    obtain ⟨a, as, has⟩ := List.exists_cons_of_ne_nil hne
    have ha : a ∈ l.filter fun a => key a == g.1 := by rw [← heq, has]; simp
    rw [List.mem_filter] at ha
    exact ⟨g.1, ⟨a, ha.1, by simpa using ha.2⟩, by rw [← heq]⟩

theorem perm_flatMap_filter {key : α → κ} {ks : List κ} (hks : ks.Nodup) {l : List α}
    (h : ∀ a ∈ l, key a ∈ ks) : (ks.flatMap fun k => l.filter fun a => key a == k).Perm l := by
  induction ks generalizing l with
  | nil =>
    have hl : l = [] := List.eq_nil_iff_forall_not_mem.2 fun a ha => List.not_mem_nil (h a ha)
    simp [hl]
  | cons k ks ih =>
    obtain ⟨hk, hks⟩ := List.nodup_cons.1 hks
    -- the other groups do not miss the members with the first key
    have hothers : (ks.flatMap fun j => l.filter fun a => key a == j) =
        ks.flatMap fun j => (l.filter fun a => !(key a == k)).filter fun a => key a == j := by
      refine List.flatMap_congr fun j hj => ?_
      rw [List.filter_filter]
      refine List.filter_congr fun a _ => ?_
      by_cases ha : key a = j
      · have hne : j ≠ k := by
          rintro rfl
          exact hk hj
        simp [ha, hne]
      · simp [ha]
    rw [List.flatMap_cons, hothers]
    refine ((ih hks fun a ha => ?_).append_left _).trans (List.filter_append_perm _ l)
    obtain ⟨ha, hne⟩ := List.mem_filter.1 ha
    exact (List.mem_cons.1 (h a ha)).resolve_left (by simpa using hne)

/-- The groups share out the members of a list. -/
theorem perm_flatMap_groupBy (key : α → κ) (l : List α) :
    ((groupBy key l).flatMap (·.2)).Perm l := by
  rw [groupBy, List.flatMap_map]
  refine perm_flatMap_filter (nodup_eraseDups _) fun a ha => ?_
  exact List.mem_eraseDups.2 (List.mem_map_of_mem ha)

theorem lookup_eq_some_of_mem {l : List (κ × β)} {a : κ} {b : β}
    (hmem : (a, b) ∈ l) (hfun : ∀ c, (a, c) ∈ l → c = b) : l.lookup a = some b := by
  induction l with
  | nil => simp at hmem
  | cons p l ih =>
    obtain ⟨a', b'⟩ := p
    by_cases ha : a = a'
    · subst ha
      simp [hfun b' (by simp)]
    · rw [List.lookup_cons]
      have hne : (a == a') = false := by simpa using ha
      rw [hne]
      refine ih ?_ fun c hc => hfun c (by simp [hc])
      rcases List.mem_cons.1 hmem with heq | hmem
      · exact absurd (Prod.mk.inj heq).1 ha
      · exact hmem

theorem lookup_eq_none_of_not_mem {l : List (κ × β)} {a : κ}
    (h : ∀ b, (a, b) ∉ l) : l.lookup a = none := by
  rw [Option.eq_none_iff_forall_ne_some]
  intro b hb
  obtain ⟨u, v, huv, -⟩ := List.lookup_eq_some_iff.1 hb
  exact h b (by simp [huv])

end ImportRepair
