import ImportRepair.Host.Disk

/-!
# Places on a disk

A path that can be followed leads to the place that its resolution names, and
where it leads depends only on what kind of node is at each place and on what is
permitted there.  Writing over a file, whether it succeeds or not, changes no
kind, so it moves no path and disturbs no other file.
-/

namespace ImportRepair

variable {here p q : Path} {l l' : Location} {ns : List Text} {octets : List UInt8}

/-! ### Resolution -/

namespace Path

theorem climb_append (stack ms ns : List Text) :
    climb stack (ms ++ ns) = climb (climb stack ms).reverse ns := by
  induction ms generalizing stack with
  | nil => rw [List.nil_append, climb, List.reverse_reverse]
  | cons m ms ih =>
    rw [List.cons_append, climb, climb]
    split
    · exact ih stack.tail
    · exact ih (m :: stack)

/-- Names other than two dots are kept in their order. -/
theorem climb_of_plain {stack : List Text} (h : ∀ n ∈ ns, n ≠ ['.', '.']) :
    climb stack ns = stack.reverse ++ ns := by
  induction ns generalizing stack with
  | nil => rw [climb, List.append_nil]
  | cons n ns ih =>
    have hn := h n List.mem_cons_self
    rw [climb, if_neg hn, ih fun k hk => h k (List.mem_cons_of_mem _ hk), List.reverse_cons,
      List.append_assoc, List.singleton_append]

end Path

namespace Disk

variable {d d' : Disk}

/-! ### The shape of a disk -/

def kindAt? (d : Disk) (l : Location) : Option NodeKind := (d.at? l).map Node.kind

/-- At each place the two disks have nothing, or nodes of one kind, and permit the same. -/
structure SameShape (d d' : Disk) : Prop where
  kind : ∀ l, d.kindAt? l = d'.kindAt? l
  limits : d.limits = d'.limits

theorem SameShape.refl (d : Disk) : SameShape d d := ⟨fun _ => rfl, rfl⟩

theorem SameShape.trans {d'' : Disk} (h : SameShape d d') (h' : SameShape d' d'') :
    SameShape d d'' := ⟨fun l => (h.kind l).trans (h'.kind l), h.limits.trans h'.limits⟩

theorem SameShape.limitsAt (h : SameShape d d') (l : Location) :
    d.limitsAt l = d'.limitsAt l := by
  rw [Disk.limitsAt, Disk.limitsAt, h.limits]

theorem follow_cons (n : Text) : d.follow l (n :: ns) =
    match d.kindAt? l with
    | none => .error .missing
    | some .file => .error .notDirectory
    | some .directory =>
      match (d.limitsAt l).unsearchable with
      | some f => .error f
      | none =>
        if exceeds nameLimit n then .error .nameTooLong
        else d.follow (if n = ['.', '.'] then l.dropLast else l ++ [n]) ns := by
  rw [follow, kindAt?]
  cases d.at? l with
  | none => rfl
  | some node => cases node <;> rfl

theorem SameShape.follow (h : SameShape d d') : d.follow l ns = d'.follow l ns := by
  induction ns generalizing l with
  | nil => rfl
  | cons n ns ih => rw [follow_cons, follow_cons, h.kind l, h.limitsAt l, ih]

theorem SameShape.locate (h : SameShape d d') : d.locate here p = d'.locate here p := by
  rw [Disk.locate, Disk.locate, h.follow]

theorem look_eq : d.look here p =
    (d.locate here p).bind fun l => (d.kindAt? l).elim (.error .missing) .ok := by
  rw [look]
  cases d.locate here p with
  | error f => rfl
  | ok l =>
    simp only [Except.bind, kindAt?, bind]
    cases d.at? l <;> rfl

theorem SameShape.look (h : SameShape d d') : d.look here p = d'.look here p := by
  rw [look_eq, look_eq, h.locate]
  congr 1
  funext l
  rw [h.kind l]

/-- A path leads to the place that its resolution names. -/
theorem climb_of_follow (h : d.follow l ns = .ok l') : l' = Path.climb l.reverse ns := by
  induction ns generalizing l with
  | nil =>
    rw [Path.climb, List.reverse_reverse]
    exact (Except.ok.inj h).symm
  | cons n ns ih =>
    rw [follow_cons] at h
    rw [Path.climb]
    cases hkind : d.kindAt? l with
    | none =>
      rw [hkind] at h
      cases h
    | some kind =>
      rw [hkind] at h
      cases kind with
      | file => cases h
      | directory =>
        simp only at h
        split at h
        · cases h
        · split at h
          · cases h
          · rw [ih h]
            split
            · rw [List.tail_reverse]
            · rw [List.reverse_append, List.reverse_singleton, List.singleton_append]

theorem names_resolve_of_locate (h : d.locate here p = .ok l) : l = (p.resolve here).names := by
  rw [locate] at h
  split at h
  · cases h
  · split at h
    · cases h
    · exact climb_of_follow h

/-! ### Files -/

theorem look_eq_file_iff : d.look here p = .ok .file ↔
    ∃ l octets, d.locate here p = .ok l ∧ d.at? l = some (.file octets) := by
  rw [look_eq]
  cases hl : d.locate here p with
  | error f => simp [Except.bind]
  | ok l =>
    simp only [Except.bind, kindAt?]
    cases hat : d.at? l with
    | none => simp [hat]
    | some node => cases node <;> simp [Node.kind, hat]

theorem content_of_at? (hl : d.locate here p = .ok l) (hat : d.at? l = some (.file octets)) :
    d.content here p = .ok octets := by
  rw [content, hl]
  simp only [bind, Except.bind, hat, pure, Except.pure]

theorem read_of_content (hl : d.locate here p = .ok l) (h : d.content here p = .ok octets) :
    d.read here p = (d.limitsAt l).reveal octets := by
  rw [read, hl, h]
  rfl

/-- Only what a file holds is read. -/
theorem content_of_read (h : d.read here p = .ok octets) : d.content here p = .ok octets := by
  rw [read] at h
  cases hl : d.locate here p with
  | error f =>
    rw [hl] at h
    cases h
  | ok l =>
    cases hcontent : d.content here p with
    | error f =>
      rw [hl, hcontent] at h
      cases h
    | ok held =>
      have hreveal : (d.limitsAt l).reveal held = .ok octets := by rwa [hl, hcontent] at h
      unfold Limits.reveal at hreveal
      split at hreveal
      · cases hreveal
      · exact hreveal

theorem write_of_at? {old : List UInt8} (hl : d.locate here p = .ok l)
    (hat : d.at? l = some (.file old)) :
    d.write here p octets = (((d.limitsAt l).overwrite old octets).1,
      d.set l (.file ((d.limitsAt l).overwrite old octets).2)) := by
  rw [write, hl]
  simp only [hat]

theorem ne_nil_of_at? (h : d.at? l = some (.file octets)) : l ≠ [] := by
  rintro rfl
  cases h

theorem lookup_filter_of_ne {entries : List (Location × Node)} (h : l' ≠ l) :
    (entries.filter (·.1 != l)).lookup l' = entries.lookup l' := by
  induction entries with
  | nil => rfl
  | cons e entries ih =>
    obtain ⟨k, n⟩ := e
    by_cases hk : k = l
    · subst hk
      have hne : (l' == k) = false := by simpa using h
      simp [List.lookup_cons, hne, ih]
    · simp [List.lookup_cons, hk, ih]

theorem at?_set_self {n : Node} (h : l ≠ []) : (d.set l n).at? l = some n := by
  have hempty : l.isEmpty = false := by simpa using h
  simp [at?, set, hempty]

theorem at?_set_of_ne {n : Node} (h : l' ≠ l) : (d.set l n).at? l' = d.at? l' := by
  have hne : (l' == l) = false := by simpa using h
  simp [at?, set, List.lookup_cons, hne, lookup_filter_of_ne h]

theorem sameShape_set_file {old : List UInt8} (hat : d.at? l = some (.file old)) :
    SameShape d (d.set l (.file octets)) := by
  refine ⟨?_, rfl⟩
  intro l'
  rw [kindAt?, kindAt?]
  by_cases h : l' = l
  · rw [h, at?_set_self (ne_nil_of_at? hat), hat]
    rfl
  · rw [at?_set_of_ne h]

end Disk

/-! ### Writes -/

namespace Limits

variable {r : Limits} {old new : List UInt8} {f : FileFault}

/-- A write that succeeds stores everything. -/
theorem overwrite_of_ok (h : (r.overwrite old new).1 = .ok ()) : (r.overwrite old new).2 = new := by
  unfold overwrite store at h ⊢
  cases hwritable : r.unwritable with
  | some e =>
    simp only [hwritable] at h
    cases h
  | none =>
    cases hroom : r.room with
    | none => rfl
    | some room =>
      simp only [hwritable, hroom] at h ⊢
      split at h
      · cases h
      · next hfits => rw [if_neg hfits]

end Limits

end ImportRepair
