import Mathlib.Algebra.Order.Group.Defs
import Mathlib.Algebra.Order.Group.Unbundled.Basic
import Mathlib.Algebra.Order.Monoid.Unbundled.Pow
import Mathlib.Logic.Function.Iterate
import Mathlib.Order.Lattice

/-!
# Equal portions of a stock

Requests of one size are served from a stock one after the other, each in full or, once,
with what is left, and none with less than a least portion. What a request gets is told by
its place alone.
-/
namespace Portions

variable {K : Type} [AddCommGroup K] [LinearOrder K] (each least : K)

/-- What a request gets of what is left. -/
def portion (left : K) : K := if least ≤ min each left then min each left else 0

def serve (left : K) : K := left - portion each least left

variable {each least}

theorem portion_of_le {left : K} (h : least ≤ min each left) :
    portion each least left = min each left := if_pos h

theorem portion_of_lt {left : K} (h : min each left < least) : portion each least left = 0 :=
  if_neg (not_le.mpr h)

/-- Nothing is served but a portion that is large enough. -/
theorem portion_ne_zero {left : K} (h : portion each least left ≠ 0) :
    least ≤ min each left ∧ portion each least left = min each left := by
  by_cases hleast : least ≤ min each left
  · exact ⟨hleast, portion_of_le hleast⟩
  · exact absurd (portion_of_lt (not_le.mp hleast)) h

theorem portion_nonneg (h : 0 < least) (left : K) : 0 ≤ portion each least left := by
  unfold portion
  split
  · next hleast => exact h.le.trans hleast
  · exact le_refl 0

variable [IsOrderedAddMonoid K]

/-- After the one at hand, the requests go on as if it had been served in full: where it was
not, no later one gets anything. -/
theorem portion_serve (h : 0 < least) (k : ℕ) (stock : K) :
    portion each least (serve each least stock - k • each) =
      portion each least (stock - (k + 1) • each) := by
  by_cases heach : least ≤ each
  · have hpos : 0 < each := h.trans_le heach
    have hnone (left : K) (hleft : left < least) : portion each least left = 0 :=
      portion_of_lt ((min_le_right each left).trans_lt hleft)
    have hfall (left : K) (n : ℕ) : left - n • each ≤ left :=
      sub_le_self left (nsmul_nonneg hpos.le n)
    rcases le_or_gt each stock with hfull | hshort
    · have hserved : serve each least stock = stock - each := by
        rw [serve, portion_of_le (by rwa [min_eq_left hfull]), min_eq_left hfull]
      rw [hserved, succ_nsmul', sub_sub]
    · have hgone : stock - (k + 1) • each < least := by
        have hfirst : stock - (k + 1) • each ≤ stock - each := by
          rw [succ_nsmul', ← sub_sub]
          exact hfall _ k
        exact (hfirst.trans_lt (sub_neg.mpr hshort)).trans h
      have hserved : serve each least stock < least := by
        rw [serve, portion, min_eq_right hshort.le]
        split
        · rwa [sub_self]
        · next hleast => rwa [sub_zero, ← not_le]
      rw [hnone _ hgone, hnone _ ((hfall _ k).trans_lt hserved)]
  · have hnone (left : K) : portion each least left = 0 :=
      portion_of_lt ((min_le_left each left).trans_lt (not_le.mp heach))
    rw [hnone, hnone]

/-- What a request gets by its place. -/
theorem portion_iterate (h : 0 < least) (k : ℕ) (stock : K) :
    portion each least ((serve each least)^[k] stock) =
      portion each least (stock - k • each) := by
  induction k generalizing stock with
  | zero => rw [Function.iterate_zero_apply, zero_nsmul, sub_zero]
  | succ k ih => rw [Function.iterate_succ_apply, ih, portion_serve h]

end Portions
