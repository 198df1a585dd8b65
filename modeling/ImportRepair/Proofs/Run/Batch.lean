import ImportRepair.Fix.Pass
import ImportRepair.Proofs.Text.Order
import Mathlib.Data.List.Nodup

/-!
# The results of a pass in order

A batch lists its results by file.  So it does not tell in which order they
came, as long as no file has two of them.
-/

namespace ImportRepair

/-! ### Batches -/

namespace Batch

variable {rs rs' : List FixResult} {n : Nat}

theorem details_perm (n : Nat) (rs : List FixResult) : (ofResults n rs).details.Perm rs :=
  List.mergeSort_perm rs _

theorem details_sorted (n : Nat) (rs : List FixResult) :
    (ofResults n rs).details.Pairwise fun a b => Text.le a.file b.file = true :=
  List.pairwise_mergeSort (fun a b c => @Text.le_trans a.file b.file c.file)
    (fun a b => Text.le_total a.file b.file) rs

/-- Results of distinct files can be collected in any order. -/
theorem ofResults_eq_of_perm (h : rs.Perm rs') (hfiles : (rs.map (·.file)).Nodup) :
    ofResults n rs = ofResults n rs' := by
  have hperm := (details_perm n rs).trans (h.trans (details_perm n rs').symm)
  have hinj := List.inj_on_of_nodup_map hfiles
  have hdetails : (ofResults n rs).details = (ofResults n rs').details := by
    refine List.Perm.eq_of_pairwise ?_ (details_sorted n rs) (details_sorted n rs') hperm
    intro a b ha hb hle hle'
    have ha' := (details_perm n rs).mem_iff.1 ha
    have hb' := h.mem_iff.2 ((details_perm n rs').mem_iff.1 hb)
    exact hinj ha' hb' (Text.le_antisymm hle hle')
  exact congrArg (Batch.mk (n : Int)) hdetails

/-- Every result counts once: as fixed, as failed or as skipped. -/
theorem processed_eq (b : Batch) : b.processed = b.fixed + b.failed + b.skipped := by
  obtain ⟨total, details⟩ := b
  simp only [processed, fixed, failed, skipped]
  induction details with
  | nil => rfl
  | cons r rs ih =>
    simp only [List.length_cons, List.countP_cons, ih, FixResult.skipped]
    cases r.fixed <;> cases r.failed <;> simp <;> omega

end Batch

end ImportRepair
