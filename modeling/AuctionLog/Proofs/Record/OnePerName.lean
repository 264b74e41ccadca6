import AuctionLog.RequestView
import Mathlib.Data.List.Sort
import Mathlib.Data.String.Basic

/-!
# One value per name

Of values by name a record tells the last one of each name, where names that only differ in the case
of their letters are one name. They are listed in the order of their spellings.
-/

namespace AuctionLog

namespace Ascii

variable {left right : String}

theorem sameFold_refl (text : String) : sameFold text text :=
  beq_self_eq_true _

theorem sameFold_comm : sameFold left right ↔ sameFold right left := by
  rw [sameFold, sameFold, beq_iff_eq, beq_iff_eq]
  exact eq_comm

end Ascii

namespace NamedValues

theorem mem_of_mem_lastOfName {entries : List (String × String)} {entry : String × String}
    (hmem : entry ∈ lastOfName entries) : entry ∈ entries := by
  induction entries with
  | nil => exact hmem
  | cons first rest ih =>
      rw [lastOfName] at hmem
      split at hmem
      · exact List.mem_cons_of_mem _ (ih hmem)
      · rcases List.mem_cons.mp hmem with rfl | hmem
        · exact List.mem_cons_self ..
        · exact List.mem_cons_of_mem _ (ih hmem)

theorem distinct_lastOfName (entries : List (String × String)) :
    (lastOfName entries).Pairwise fun left right => ¬ Ascii.sameFold left.1 right.1 := by
  induction entries with
  | nil => exact .nil
  | cons first rest ih =>
      rw [lastOfName]
      split
      · exact ih
      · rename_i hlast
        refine List.pairwise_cons.mpr ⟨?_, ih⟩
        intro later hmem hsame
        exact hlast (List.any_eq_true.mpr ⟨later, mem_of_mem_lastOfName hmem, hsame⟩)

variable (values : NamedValues)

theorem distinct_single :
    values.single.Pairwise fun left right => ¬ Ascii.sameFold left.1 right.1 := by
  have hperm : values.single.Perm (lastOfName values.entries) := List.mergeSort_perm _ _
  refine (hperm.pairwise_iff ?_).mpr (distinct_lastOfName _)
  intro left right hdistinct hsame
  exact hdistinct (Ascii.sameFold_comm.mp hsame)

/-- **The names are in order**, and none comes twice. -/
theorem sorted_single : values.single.Pairwise fun left right => left.1 < right.1 := by
  have hle : values.single.Pairwise fun left right => decide (left.1 ≤ right.1) := by
    refine List.pairwise_mergeSort ?_ ?_ _
    · intro first second third hfirst hsecond
      simp only [decide_eq_true_eq] at hfirst hsecond ⊢
      exact hfirst.trans hsecond
    · intro first second
      simpa using le_total first.1 second.1
  apply (hle.and values.distinct_single).imp
  rintro left right ⟨hle, hdistinct⟩
  apply lt_of_le_of_ne (of_decide_eq_true hle)
  intro heq
  rw [heq] at hdistinct
  exact hdistinct (Ascii.sameFold_refl _)

end NamedValues

/-- What is told of a request names each header and parameter once, in order. -/
structure RequestView.Single (view : RequestView) : Prop where
  sortedHeaders : view.headers.Pairwise fun left right => left.1 < right.1
  sortedParams : view.queryParams.Pairwise fun left right => left.1 < right.1
  distinctHeaders : view.headers.Pairwise fun left right => ¬ Ascii.sameFold left.1 right.1
  distinctParams : view.queryParams.Pairwise fun left right => ¬ Ascii.sameFold left.1 right.1

theorem RequestView.single_ofRequest (request : ServedRequest) : (ofRequest request).Single where
  sortedHeaders := request.headers.sorted_single
  sortedParams := (request.queryParams.getD .empty).sorted_single
  distinctHeaders := request.headers.distinct_single
  distinctParams := (request.queryParams.getD .empty).distinct_single

end AuctionLog
