import ImportRepair.Text.Basic

/-!
# The order of texts

Texts are ordered by their code points, as lists are by their members.
-/

namespace ImportRepair

namespace Text

theorem le_total (t u : Text) : (le t u || le u t) = true := by
  induction t generalizing u with
  | nil => rfl
  | cons c t ih =>
    cases u with
    | nil => rfl
    | cons d u =>
      rw [le, le]
      by_cases h : c = d
      · rw [if_pos h, if_pos h.symm]
        exact ih u
      · have hne : c.toNat ≠ d.toNat := fun heq => h (Char.toNat_inj.1 heq)
        rw [if_neg h, if_neg (Ne.symm h), Bool.or_eq_true, decide_eq_true_iff, decide_eq_true_iff]
        omega

theorem le_antisymm {t u : Text} (h : le t u = true) (h' : le u t = true) : t = u := by
  induction t generalizing u with
  | nil =>
    cases u with
    | nil => rfl
    | cons d u => cases h'
  | cons c t ih =>
    cases u with
    | nil => cases h
    | cons d u =>
      rw [le] at h h'
      by_cases hc : c = d
      · rw [if_pos hc] at h
        rw [if_pos hc.symm] at h'
        rw [hc, ih h h']
      · rw [if_neg hc, decide_eq_true_iff] at h
        rw [if_neg (Ne.symm hc), decide_eq_true_iff] at h'
        omega

theorem le_trans {t u v : Text} (h : le t u = true) (h' : le u v = true) : le t v = true := by
  induction t generalizing u v with
  | nil => rfl
  | cons c t ih =>
    cases u with
    | nil => cases h
    | cons d u =>
      cases v with
      | nil => cases h'
      | cons e v =>
        rw [le] at h h' ⊢
        by_cases hc : c = d
        · subst hc
          rw [if_pos rfl] at h
          by_cases hd : c = e
          · rw [if_pos hd] at h' ⊢
            exact ih h h'
          · rw [if_neg hd] at h' ⊢
            exact h'
        · rw [if_neg hc, decide_eq_true_iff] at h
          by_cases hd : d = e
          · subst hd
            rw [if_neg hc, decide_eq_true_iff]
            exact h
          · rw [if_neg hd, decide_eq_true_iff] at h'
            have hne : c ≠ e := by
              rintro rfl
              omega
            rw [if_neg hne, decide_eq_true_iff]
            omega

theorem lt_of_le_of_ne {t u : Text} (h : le t u = true) (hne : t ≠ u) : t < u := by
  induction t generalizing u with
  | nil =>
    cases u with
    | nil => exact absurd rfl hne
    | cons d u => exact List.nil_lt_cons d u
  | cons c t ih =>
    cases u with
    | nil => cases h
    | cons d u =>
      rw [le] at h
      rw [List.cons_lt_cons_iff]
      by_cases hc : c = d
      · subst hc
        rw [if_pos rfl] at h
        exact Or.inr ⟨rfl, ih h fun heq => hne (congrArg _ heq)⟩
      · rw [if_neg hc, decide_eq_true_iff] at h
        exact Or.inl (Char.lt_def.2 (UInt32.lt_iff_toNat_lt.2 h))

end Text

end ImportRepair
