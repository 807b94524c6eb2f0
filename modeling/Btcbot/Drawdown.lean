import Btcbot.PyData
import Mathlib.Algebra.Order.Field.Rat
import Mathlib.Data.List.Sort
import Mathlib.Order.Bounds.Basic
import Mathlib.Tactic.FieldSimp
import Mathlib.Tactic.Linarith
import Mathlib.Tactic.Ring

/-!
# The largest fall of an equity curve

A fall is the loss from one value to a later one, as a share of the first. The loop
compares each value with the highest one before it only: of all values it may be
measured from, the highest makes the fall to it largest.
-/
namespace Drawdown

section Falls

variable {K : Type} [Field K] [LinearOrder K] [IsStrictOrderedRing K]

/-- The falls from a positive value to itself or a later one. -/
def Falls (values : List K) : Set K :=
  { fall | ∃ (i j : ℕ) (x y : K), i ≤ j ∧ values[i]? = some x ∧ values[j]? = some y ∧ 0 < x ∧
    fall = (x - y) / x }

omit [IsStrictOrderedRing K] in
theorem falls_nil : Falls ([] : List K) = ∅ := by
  simp [Falls]

omit [IsStrictOrderedRing K] in
/-- One value more is one that every positive value may fall to. -/
theorem falls_concat (values : List K) (y fall : K) :
    fall ∈ Falls (values ++ [y]) ↔
      fall ∈ Falls values ∨ ∃ x ∈ values ++ [y], 0 < x ∧ fall = (x - y) / x := by
  constructor
  · rintro ⟨i, j, x, z, hij, hi, hj, hx, rfl⟩
    rcases lt_or_ge j values.length with hold | hnew
    · rw [List.getElem?_append_left hold] at hj
      rw [List.getElem?_append_left (hij.trans_lt hold)] at hi
      exact .inl ⟨i, j, x, z, hij, hi, hj, hx, rfl⟩
    · rw [List.getElem?_append_right hnew] at hj
      obtain rfl := List.mem_singleton.mp (List.mem_of_getElem? hj)
      exact .inr ⟨x, List.mem_of_getElem? hi, hx, rfl⟩
  · rintro (⟨i, j, x, z, hij, hi, hj, hx, rfl⟩ | ⟨x, hin, hx, rfl⟩)
    · have hold := (List.getElem?_eq_some_iff.mp hj).1
      rw [← List.getElem?_append_left hold] at hj
      rw [← List.getElem?_append_left (hij.trans_lt hold)] at hi
      exact ⟨i, j, x, z, hij, hi, hj, hx, rfl⟩
    · obtain ⟨i, hi⟩ := List.mem_iff_getElem?.mp hin
      have hlast : i ≤ values.length := by
        have hlt := (List.getElem?_eq_some_iff.mp hi).1
        rw [List.length_append, List.length_singleton] at hlt
        omega
      exact ⟨i, values.length, x, y, hlast, hi, by simp, hx, rfl⟩

/-- From a higher value the fall is larger. -/
theorem fall_le_fall {x p y : K} (hx : 0 < x) (hle : x ≤ p) (hy : 0 ≤ y) :
    (x - y) / x ≤ (p - y) / p := by
  have hp := hx.trans_le hle
  rw [sub_div, sub_div, div_self hx.ne', div_self hp.ne']
  exact sub_le_sub_left (div_le_div_of_nonneg_left hy hx hle) 1

end Falls

open PyData

structure EquityPoint where
  ts : DateTime
  equityTry : ℚ
  deriving DecidableEq, Repr

def SortsBefore (a b : EquityPoint) : Prop := (ensureUtc a.ts).micros ≤ (ensureUtc b.ts).micros

instance : DecidableRel SortsBefore := fun a b =>
  inferInstanceAs (Decidable ((ensureUtc a.ts).micros ≤ (ensureUtc b.ts).micros))

/-- The values in timestamp order, equal timestamps as they are given. -/
def inOrder (points : List EquityPoint) : List ℚ :=
  (points.insertionSort SortsBefore).map EquityPoint.equityTry

/-- The variables of the loop. -/
structure Scan where
  peak : Option ℚ
  maxDd : ℚ
  deriving DecidableEq, Repr

def scanPoint (s : Scan) (equityTry : ℚ) : Scan :=
  match s.peak with
  | none => { s with peak := some equityTry }
  | some peak =>
    if peak < equityTry then { s with peak := some equityTry }
    else if peak ≤ 0 then s
    else
      let drawdown := (peak - equityTry) / peak
      if s.maxDd < drawdown then { s with maxDd := drawdown } else s

def computeMaxDrawdown (points : List EquityPoint) : ℚ :=
  ((inOrder points).foldl scanPoint ⟨none, 0⟩).maxDd

/-- The peak is the highest value so far, and the drawdown the largest fall, or none. -/
structure Scanned (values : List ℚ) (s : Scan) : Prop where
  peak : ∀ x ∈ values, ∃ p, s.peak = some p ∧ x ≤ p
  reached : ∀ p, s.peak = some p → p ∈ values
  greatest : IsGreatest (insert 0 (Falls values)) s.maxDd

theorem scanned_nil : Scanned [] ⟨none, 0⟩ where
  peak := by simp
  reached := by simp
  greatest := by simp [falls_nil]

section Step

variable {values : List ℚ} {s : Scan} {y : ℚ}

theorem Scanned.nonneg (h : Scanned values s) : 0 ≤ s.maxDd := h.greatest.2 (Set.mem_insert _ _)

theorem Scanned.kept (h : Scanned values s) :
    s.maxDd ∈ insert 0 (Falls (values ++ [y])) :=
  h.greatest.1.imp_right fun hin => (falls_concat values y _).mpr (.inl hin)

/-- A fall is one there was before, or one to the new value. -/
theorem Scanned.fall_cases (h : Scanned values s) {fall : ℚ}
    (hin : fall ∈ insert 0 (Falls (values ++ [y]))) :
    fall ≤ s.maxDd ∨ ∃ x ∈ values ++ [y], 0 < x ∧ fall = (x - y) / x := by
  rcases hin with rfl | hin
  · exact .inl h.nonneg
  · exact ((falls_concat values y fall).mp hin).imp_left fun hold => h.greatest.2 (.inr hold)

theorem forall_concat {P : ℚ → Prop} (hold : ∀ x ∈ values, P x) (hnew : P y) :
    ∀ x ∈ values ++ [y], P x := by
  intro x hin
  rcases List.mem_append.mp hin with hin | hin
  · exact hold x hin
  · exact List.mem_singleton.mp hin ▸ hnew

/-- A value that no other exceeds is the new peak, and none falls to it. -/
theorem Scanned.raise (h : Scanned values s) (hhigh : ∀ x ∈ values, x ≤ y) :
    Scanned (values ++ [y]) { s with peak := some y } where
  peak x hin := ⟨y, rfl, forall_concat hhigh le_rfl x hin⟩
  reached p hp := by simp [Option.some.inj hp]
  greatest := by
    refine ⟨h.kept, fun fall hin => ?_⟩
    rcases h.fall_cases hin with hle | ⟨x, hmem, hx, rfl⟩
    · exact hle
    · have hle := forall_concat hhigh le_rfl x hmem
      exact (div_nonpos_of_nonpos_of_nonneg (sub_nonpos.mpr hle) hx.le).trans h.nonneg

/-- Under the peak the falls to the new value are at most the one from the peak. -/
theorem Scanned.under (h : Scanned values s) {p maxDd : ℚ} (hs : s.peak = some p) (hle : y ≤ p)
    (hy : 0 ≤ y) (hreached : maxDd ∈ insert 0 (Falls (values ++ [y]))) (hold : s.maxDd ≤ maxDd)
    (hnew : 0 < p → (p - y) / p ≤ maxDd) :
    Scanned (values ++ [y]) { s with maxDd := maxDd } := by
  have hbelow : ∀ x ∈ values ++ [y], x ≤ p := by
    refine forall_concat (fun x hin => ?_) hle
    obtain ⟨q, hq, hxq⟩ := h.peak x hin
    exact Option.some.inj (hs.symm.trans hq) ▸ hxq
  refine ⟨fun x hin => ⟨p, hs, hbelow x hin⟩,
    fun q hq => List.mem_append_left _ (h.reached q hq), hreached, fun fall hin => ?_⟩
  rcases h.fall_cases hin with hfall | ⟨x, hmem, hx, rfl⟩
  · exact hfall.trans hold
  · have hxp := hbelow x hmem
    exact (fall_le_fall hx hxp hy).trans (hnew (hx.trans_le hxp))

theorem Scanned.concat (h : Scanned values s) (hy : 0 ≤ y) :
    Scanned (values ++ [y]) (scanPoint s y) := by
  unfold scanPoint
  cases hs : s.peak with
  | none =>
    refine h.raise fun x hin => ?_
    obtain ⟨p, hp, -⟩ := h.peak x hin
    rw [hs] at hp
    cases hp
  | some p =>
    dsimp only
    split
    · next hlt =>
      refine h.raise fun x hin => ?_
      obtain ⟨q, hq, hle⟩ := h.peak x hin
      exact (hle.trans_eq (Option.some.inj (hq.symm.trans hs))).trans hlt.le
    next hnot =>
    have hle : y ≤ p := not_lt.mp hnot
    split
    · next hnone =>
      exact h.under hs hle hy h.kept le_rfl fun hp => absurd hp (not_lt.mpr hnone)
    · next hpos =>
      have hfall : (p - y) / p ∈ Falls (values ++ [y]) :=
        (falls_concat values y _).mpr
          (.inr ⟨p, List.mem_append_left _ (h.reached p hs), not_le.mp hpos, rfl⟩)
      rw [← hs]
      split
      · next hlarger => exact h.under hs hle hy (.inr hfall) hlarger.le fun _ => le_rfl
      · next hsmaller =>
        exact h.under hs hle hy h.kept le_rfl fun _ => not_lt.mp hsmaller

end Step

theorem scanned_foldl {values : List ℚ} (h : ∀ y ∈ values, 0 ≤ y) :
    Scanned values (values.foldl scanPoint ⟨none, 0⟩) := by
  induction values using List.reverseRecOn with
  | nil => exact scanned_nil
  | append_singleton values y ih =>
    rw [List.foldl_append]
    exact (ih fun x hin => h x (List.mem_append_left _ hin)).concat
      (h y (List.mem_append_right _ (List.mem_singleton_self y)))

/-- Of values that are not negative the drawdown is the largest fall, or zero if none is
positive. -/
theorem computeMaxDrawdown_greatest (points : List EquityPoint)
    (h : ∀ point ∈ points, 0 ≤ point.equityTry) :
    ((Falls (inOrder points)).Nonempty →
      IsGreatest (Falls (inOrder points)) (computeMaxDrawdown points)) ∧
    (Falls (inOrder points) = ∅ → computeMaxDrawdown points = 0) := by
  have hvalues : ∀ y ∈ inOrder points, 0 ≤ y := by
    intro y hin
    obtain ⟨point, hpoint, rfl⟩ := List.mem_map.mp hin
    exact h point ((List.mem_insertionSort _).mp hpoint)
  have hgreatest := (scanned_foldl hvalues).greatest
  constructor
  · rintro ⟨fall, i, j, x, y, -, hi, -, hx, -⟩
    have hself : (0 : ℚ) ∈ Falls (inOrder points) :=
      ⟨i, i, x, x, le_refl i, hi, hi, hx, by rw [sub_self, zero_div]⟩
    rwa [Set.insert_eq_of_mem hself] at hgreatest
  · intro hnone
    rw [hnone] at hgreatest
    exact hgreatest.1.resolve_right (Set.notMem_empty _)

/-- Two points a peak and a half of it, given the later first. -/
theorem halved_drawdown :
    ((Falls (inOrder [⟨⟨1, true⟩, 50⟩, ⟨⟨0, true⟩, 100⟩])).Nonempty →
      IsGreatest (Falls (inOrder [⟨⟨1, true⟩, 50⟩, ⟨⟨0, true⟩, 100⟩]))
        (computeMaxDrawdown [⟨⟨1, true⟩, 50⟩, ⟨⟨0, true⟩, 100⟩])) ∧
    (Falls (inOrder [⟨⟨1, true⟩, 50⟩, ⟨⟨0, true⟩, 100⟩]) = ∅ →
      computeMaxDrawdown [⟨⟨1, true⟩, 50⟩, ⟨⟨0, true⟩, 100⟩] = 0) :=
  computeMaxDrawdown_greatest _ (by decide +kernel)

example : computeMaxDrawdown [⟨⟨1, true⟩, 50⟩, ⟨⟨0, true⟩, 100⟩] = 1 / 2 := by decide +kernel

end Drawdown
