import Mathlib.Data.List.Forall2

/-!
# Computations that may fail

A computation over a list fails as soon as it fails for one member; otherwise it
gives one value for each member.
-/

namespace ImportRepair

variable {α β ε : Type} {f : α → Except ε β} {l : List α} {bs : List β} {x : Except ε α}

theorem mapM_cons_ok {a : α} {b : β} (h : f a = .ok b) :
    (a :: l).mapM f = (l.mapM f).map (b :: ·) := by
  rw [List.mapM_cons, h]
  cases l.mapM f <;> rfl

theorem mapM_cons_error {a : α} {e : ε} (h : f a = .error e) : (a :: l).mapM f = .error e := by
  rw [List.mapM_cons, h]
  rfl

theorem mapM_eq_ok_iff : l.mapM f = .ok bs ↔ List.Forall₂ (fun a b => f a = .ok b) l bs := by
  induction l generalizing bs with
  | nil =>
    rw [List.forall₂_nil_left_iff]
    exact ⟨fun h => (Except.ok.inj h).symm, fun h => by rw [h]; rfl⟩
  | cons a l ih =>
    rw [List.forall₂_cons_left_iff]
    cases ha : f a with
    | error e =>
      rw [mapM_cons_error ha]
      constructor
      · intro h
        cases h
      · rintro ⟨b, _, hb, -⟩
        cases hb
    | ok b =>
      rw [mapM_cons_ok ha]
      constructor
      · intro h
        cases hl : l.mapM f with
        | error e =>
          rw [hl] at h
          cases h
        | ok cs =>
          rw [hl] at h
          exact ⟨b, cs, rfl, ih.1 hl, (Except.ok.inj h).symm⟩
      · rintro ⟨b', cs, hb, hcs, rfl⟩
        rw [ih.2 hcs, Except.ok.inj hb]
        rfl

theorem mem_of_mapM_eq_ok_iff {b : β} (h : l.mapM f = .ok bs) :
    b ∈ bs ↔ ∃ a ∈ l, f a = .ok b := by
  induction mapM_eq_ok_iff.1 h with
  | nil => exact ⟨fun hb => (nomatch hb), fun ⟨_, ha, _⟩ => (nomatch ha)⟩
  | cons hab hrest ih =>
    rw [List.mem_cons, List.exists_mem_cons_iff, ih (mapM_eq_ok_iff.2 hrest), hab, Except.ok.injEq,
      eq_comm]

theorem exists_mapM_eq_error_iff :
    (∃ e, l.mapM f = .error e) ↔ ∃ a ∈ l, ∃ e, f a = .error e := by
  induction l with
  | nil =>
    constructor
    · rintro ⟨e, h⟩
      cases h
    · rintro ⟨a, ha, -⟩
      cases ha
  | cons a l ih =>
    cases ha : f a with
    | error e => exact ⟨fun _ => ⟨a, List.mem_cons_self, e, ha⟩, fun _ => ⟨e, mapM_cons_error ha⟩⟩
    | ok b =>
      rw [mapM_cons_ok ha, List.exists_mem_cons_iff]
      constructor
      · rintro ⟨e, h⟩
        cases hl : l.mapM f with
        | error e' => exact .inr (ih.1 ⟨e', hl⟩)
        | ok cs =>
          rw [hl] at h
          cases h
      · rintro (⟨e, h⟩ | h)
        · rw [ha] at h
          cases h
        · obtain ⟨e, he⟩ := ih.2 h
          exact ⟨e, by rw [he]; rfl⟩

theorem not_exists_ok_eq_error {a : α} : ¬ ∃ e, (.ok a : Except ε α) = .error e := by
  rintro ⟨e, h⟩
  cases h

theorem exists_ok_iff : (∃ a, x = .ok a) ↔ ¬ ∃ e, x = .error e := by
  cases x with
  | error e => exact ⟨fun ⟨_, h⟩ => (nomatch h), fun h => absurd ⟨e, rfl⟩ h⟩
  | ok a => exact ⟨fun _ ⟨_, h⟩ => (nomatch h), fun _ => ⟨a, rfl⟩⟩

theorem exists_mapM_eq_ok_iff : (∃ bs, l.mapM f = .ok bs) ↔ ∀ a ∈ l, ∃ b, f a = .ok b := by
  rw [exists_ok_iff, exists_mapM_eq_error_iff]
  constructor
  · intro h a ha
    rw [exists_ok_iff]
    exact fun he => h ⟨a, ha, he⟩
  · rintro h ⟨a, ha, he⟩
    exact exists_ok_iff.1 (h a ha) he

theorem exists_bind_eq_ok_iff {g : α → Except ε β} :
    (∃ b, (x >>= g) = .ok b) ↔ ∃ a, x = .ok a ∧ ∃ b, g a = .ok b := by
  cases x with
  | error e => exact ⟨fun ⟨_, h⟩ => (nomatch h), fun ⟨_, h, _⟩ => (nomatch h)⟩
  | ok a =>
    constructor
    · exact fun h => ⟨a, rfl, h⟩
    · rintro ⟨a', ha, h⟩
      rwa [← Except.ok.inj ha] at h

theorem bind_eq_ok_iff {g : α → Except ε β} {b : β} :
    (x >>= g) = .ok b ↔ ∃ a, x = .ok a ∧ g a = .ok b := by
  cases x with
  | error e => exact ⟨fun h => (nomatch h), fun ⟨_, h, _⟩ => (nomatch h)⟩
  | ok a =>
    constructor
    · exact fun h => ⟨a, rfl, h⟩
    · rintro ⟨a', ha, h⟩
      rwa [← Except.ok.inj ha] at h

theorem map_eq_ok_iff {g : α → β} {b : β} : x.map g = .ok b ↔ ∃ a, x = .ok a ∧ g a = b := by
  cases x with
  | error e => exact ⟨fun h => (nomatch h), fun ⟨_, h, _⟩ => (nomatch h)⟩
  | ok a =>
    constructor
    · exact fun h => ⟨a, rfl, Except.ok.inj h⟩
    · rintro ⟨a', ha, h⟩
      rw [Except.ok.inj ha, ← h]
      rfl

/-! ### Kinds of failures -/

/-- If the computation fails, then in this way. -/
def FailsWith (P : ε → Prop) (x : Except ε α) : Prop := ∀ e, x = .error e → P e

variable {P : ε → Prop}

theorem failsWith_ok (a : α) : FailsWith P (.ok a : Except ε α) := fun _ h => nomatch h

theorem failsWith_error {e : ε} (h : P e) : FailsWith P (.error e : Except ε α) :=
  fun _ heq => Except.error.inj heq ▸ h

theorem FailsWith.bind {g : α → Except ε β} (hx : FailsWith P x) (hg : ∀ a, FailsWith P (g a)) :
    FailsWith P (x >>= g) := by
  cases x with
  | error e => exact failsWith_error (hx e rfl)
  | ok a => exact hg a

theorem FailsWith.mapM (h : ∀ a ∈ l, FailsWith P (f a)) : FailsWith P (l.mapM f) := by
  induction l with
  | nil => exact failsWith_ok []
  | cons a l ih =>
    have hrest := ih fun b hb => h b (List.mem_cons_of_mem _ hb)
    rw [List.mapM_cons]
    exact (h a List.mem_cons_self).bind fun b => hrest.bind fun bs => failsWith_ok _

end ImportRepair
