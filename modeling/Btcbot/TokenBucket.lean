import Mathlib.Algebra.Order.Ring.Defs
import Mathlib.Algebra.BigOperators.Group.List.Basic
import Mathlib.Data.List.Basic
import Mathlib.Tactic.Linarith
import Mathlib.Tactic.Ring

/-!
# Token buckets

A bucket fills at a rate up to its burst, and grants take from its level. A grant is
dated by the time the bucket was last filled to. Whatever was granted since a date
and what is left come to no more than the burst and what has flowed in since then,
so that no window of time sees more than the burst and the rate times its length.
-/
namespace TokenBucket

variable {K : Type} [CommRing K] [LinearOrder K] [IsStrictOrderedRing K]

/-- The amounts granted from one date to another, both included. -/
def grantedIn (grants : List (K × K)) (first last : K) : K :=
  ((grants.filter fun grant => first ≤ grant.1 ∧ grant.1 ≤ last).map Prod.snd).sum

omit [IsStrictOrderedRing K] in
theorem grantedIn_nil (first last : K) : grantedIn [] first last = 0 := rfl

omit [IsStrictOrderedRing K] in
theorem grantedIn_concat (grants : List (K × K)) (date amount first last : K) :
    grantedIn (grants ++ [(date, amount)]) first last =
      grantedIn grants first last + if first ≤ date ∧ date ≤ last then amount else 0 := by
  unfold grantedIn
  by_cases hin : first ≤ date ∧ date ≤ last
  · simp [List.filter_append, hin]
  · simp [List.filter_append, hin]

omit [IsStrictOrderedRing K] in
/-- Past the last date nothing is granted. -/
theorem grantedIn_past {grants : List (K × K)} {filled : K}
    (h : ∀ grant ∈ grants, grant.1 ≤ filled) {first last : K} (hlast : filled ≤ last) :
    grantedIn grants first last = grantedIn grants first filled := by
  unfold grantedIn
  congr 2
  refine List.filter_congr fun grant hin => ?_
  have hle := h grant hin
  simp [hle, hle.trans hlast]

omit [IsStrictOrderedRing K] in
theorem grantedIn_after {grants : List (K × K)} {filled : K}
    (h : ∀ grant ∈ grants, grant.1 ≤ filled) {first last : K} (hfirst : filled < first) :
    grantedIn grants first last = 0 := by
  have hnone : (grants.filter fun grant => first ≤ grant.1 ∧ grant.1 ≤ last) = [] := by
    refine List.filter_eq_nil_iff.mpr fun grant hin => ?_
    have hlt := (h grant hin).trans_lt hfirst
    simp [hlt]
  rw [grantedIn, hnone]
  rfl

/-- A bucket at a level, filled up to a time, and what it has granted so far. -/
structure Metered (rate burst level filled : K) (grants : List (K × K)) : Prop where
  nonneg : 0 ≤ level
  le_burst : level ≤ burst
  dated : ∀ grant ∈ grants, grant.1 ≤ filled
  since : ∀ first ≤ filled,
    grantedIn grants first filled + level ≤ burst + rate * (filled - first)
  window : ∀ first last, first ≤ last →
    grantedIn grants first last ≤ burst + rate * (last - first)

variable {rate burst level filled : K} {grants : List (K × K)}

theorem Metered.full (hrate : 0 ≤ rate) (hburst : 0 ≤ burst) (filled : K) :
    Metered rate burst burst filled [] where
  nonneg := hburst
  le_burst := le_rfl
  dated := by simp
  since first hfirst := by
    have hflow := mul_nonneg hrate (sub_nonneg.mpr hfirst)
    rw [grantedIn_nil, zero_add]
    exact le_add_of_nonneg_right hflow
  window first last hle := by
    have hflow := mul_nonneg hrate (sub_nonneg.mpr hle)
    rw [grantedIn_nil]
    exact add_nonneg hburst hflow

theorem Metered.refill (h : Metered rate burst level filled grants) (hrate : 0 ≤ rate) {now : K}
    (hnow : filled ≤ now) :
    Metered rate burst (min burst (level + (now - filled) * rate)) now grants where
  nonneg := by
    have hflow := mul_nonneg (sub_nonneg.mpr hnow) hrate
    exact le_min (h.nonneg.trans h.le_burst) (add_nonneg h.nonneg hflow)
  le_burst := min_le_left _ _
  dated grant hin := (h.dated grant hin).trans hnow
  since first hfirst := by
    rw [grantedIn_past h.dated hnow]
    rcases le_or_gt first filled with hold | hnew
    · have hbefore := h.since first hold
      have hlevel := min_le_right burst (level + (now - filled) * rate)
      calc grantedIn grants first filled + min burst (level + (now - filled) * rate)
          ≤ grantedIn grants first filled + level + (now - filled) * rate := by linarith
        _ ≤ burst + rate * (filled - first) + (now - filled) * rate := by linarith
        _ = burst + rate * (now - first) := by ring
    · have hflow := mul_nonneg hrate (sub_nonneg.mpr hfirst)
      rw [grantedIn_after h.dated hnew, zero_add]
      exact (min_le_left _ _).trans (le_add_of_nonneg_right hflow)
  window := h.window

/-- What leaves the bucket without being granted. -/
theorem Metered.drain (h : Metered rate burst level filled grants) {rest : K} (hrest : 0 ≤ rest)
    (hle : rest ≤ level) : Metered rate burst rest filled grants where
  nonneg := hrest
  le_burst := hle.trans h.le_burst
  dated := h.dated
  since first hfirst := (by linarith [h.since first hfirst])
  window := h.window

theorem Metered.grant (h : Metered rate burst level filled grants) (hrate : 0 ≤ rate) {amount : K}
    (hamount : 0 ≤ amount) (hle : amount ≤ level) :
    Metered rate burst (level - amount) filled (grants ++ [(filled, amount)]) where
  nonneg := sub_nonneg.mpr hle
  le_burst := (sub_le_self _ hamount).trans h.le_burst
  dated grant hin := by
    rcases List.mem_append.mp hin with hin | hin
    · exact h.dated grant hin
    · rw [List.mem_singleton.mp hin]
  since first hfirst := by
    have hbefore := h.since first hfirst
    rw [grantedIn_concat, if_pos ⟨hfirst, le_rfl⟩]
    linarith
  window first last hle' := by
    rw [grantedIn_concat]
    by_cases hin : first ≤ filled ∧ filled ≤ last
    · have hbefore := h.since first hin.1
      have hflow := mul_nonneg hrate (sub_nonneg.mpr hin.2)
      rw [if_pos hin, grantedIn_past h.dated hin.2]
      calc grantedIn grants first filled + amount
          ≤ grantedIn grants first filled + level := by linarith
        _ ≤ burst + rate * (filled - first) + rate * (last - filled) := by linarith
        _ = burst + rate * (last - first) := by ring
    · rw [if_neg hin, add_zero]
      exact h.window first last hle'

end TokenBucket
