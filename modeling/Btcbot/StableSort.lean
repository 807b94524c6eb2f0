import Mathlib.Data.List.NodupEquivFin
import Mathlib.Data.List.Sort

/-!
# What a stable sort keeps when the list grows

Two items that come one after the other in a sorted list still do when the list it was sorted
from is part of a larger one, items that sort alike included.
-/
namespace StableSort

open scoped List

section Pairs

variable {α : Type}

/-- Two items of a list, one before the other, are those at two places. -/
theorem pair_sublist_iff {a b : α} {items : List α} :
    [a, b] <+ items ↔ ∃ i j : ℕ, i < j ∧ items[i]? = some a ∧ items[j]? = some b := by
  rw [List.sublist_iff_exists_orderEmbedding_getElem?_eq]
  constructor
  · rintro ⟨f, hf⟩
    exact ⟨f 0, f 1, f.lt_iff_lt.mpr Nat.zero_lt_one, (hf 0).symm, (hf 1).symm⟩
  · rintro ⟨i, j, hij, hi, hj⟩
    refine List.sublist_iff_exists_orderEmbedding_getElem?_eq.mp ?_
    obtain ⟨hlt, rfl⟩ := List.getElem?_eq_some_iff.mp hi
    have hb : b ∈ items.drop (i + 1) := by
      refine List.mem_of_getElem? (i := j - (i + 1)) ?_
      rw [List.getElem?_drop, Nat.add_sub_cancel' hij, hj]
    have hdrop := List.drop_eq_getElem_cons hlt
    refine List.Sublist.trans ?_ (List.drop_sublist i items)
    rw [hdrop]
    exact (List.singleton_sublist.mpr hb).cons_cons _

variable {r : α → α → Prop} [DecidableRel r]

/-- Items that sort alike keep their order. -/
theorem filter_insertionSort {p : α → Bool} {items : List α}
    (h : (items.filter p).Pairwise r) : (items.insertionSort r).filter p = items.filter p := by
  have hkept : items.filter p <+ items.insertionSort r :=
    List.sublist_insertionSort h List.filter_sublist
  have hall : items.filter p <+ (items.insertionSort r).filter p := by
    simpa using hkept.filter p
  refine (hall.eq_of_length ?_).symm
  exact ((List.perm_insertionSort r items).filter p).length_eq.symm

variable [Std.Total r] [IsTrans α r]

/-- Sorted one before the other, two items stay so in a larger list. -/
theorem pair_insertionSort_of_sublist {a b : α} {items more : List α} (hsub : items <+ more)
    (h : [a, b] <+ items.insertionSort r) : [a, b] <+ more.insertionSort r := by
  have hab : r a b := List.pairwise_pair.mp ((List.pairwise_insertionSort r items).sublist h)
  by_cases hba : r b a
  · classical
    let p : α → Bool := fun c => r a c ∧ r c a
    have halike : (items.filter p).Pairwise r := by
      refine List.pairwise_of_forall_mem_list fun c hc d hd => ?_
      have hca := of_decide_eq_true (List.mem_filter.mp hc).2
      have had := of_decide_eq_true (List.mem_filter.mp hd).2
      exact IsTrans.trans _ _ _ hca.2 had.1
    have hrefl : r a a := IsTrans.trans _ _ _ hab hba
    have hpair : [a, b] <+ items.filter p := by
      rw [← filter_insertionSort halike]
      have hfiltered := h.filter p
      rwa [List.filter_eq_self.mpr] at hfiltered
      intro c hc
      rcases List.mem_cons.mp hc with rfl | hc
      · exact decide_eq_true ⟨hrefl, hrefl⟩
      · rw [List.mem_singleton.mp hc]
        exact decide_eq_true ⟨hab, hba⟩
    exact List.pair_sublist_insertionSort hab ((hpair.trans List.filter_sublist).trans hsub)
  · have hmem {c : α} (hc : c ∈ [a, b]) : c ∈ more.insertionSort r :=
      (List.mem_insertionSort r).mpr (hsub.mem ((List.mem_insertionSort r).mp (h.mem hc)))
    obtain ⟨i, hi⟩ := List.mem_iff_getElem?.mp (hmem List.mem_cons_self)
    obtain ⟨j, hj⟩ := List.mem_iff_getElem?.mp (hmem (List.mem_cons_of_mem a List.mem_cons_self))
    have hsorted := List.pairwise_insertionSort r more
    refine pair_sublist_iff.mpr ⟨i, j, ?_, hi, hj⟩
    by_contra hji
    rcases Nat.eq_or_lt_of_le (not_lt.mp hji) with rfl | hlt
    · rw [hi] at hj
      obtain rfl := Option.some.inj hj
      exact hba hab
    · have hpair := pair_sublist_iff.mpr ⟨j, i, hlt, hj, hi⟩
      exact hba (List.pairwise_pair.mp (hsorted.sublist hpair))

end Pairs

end StableSort
