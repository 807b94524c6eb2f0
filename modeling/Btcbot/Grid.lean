import Mathlib.Algebra.BigOperators.Group.List.Basic
import Mathlib.Algebra.Order.Floor.Ring
import Mathlib.Algebra.Order.Ring.Rat
import Mathlib.Data.Rat.Floor
import Mathlib.Tactic.FieldSimp
import Mathlib.Tactic.Linarith
import Mathlib.Tactic.Positivity
import Mathlib.Tactic.Ring

/-!
# Rounding to a grid

A rounding is any integer-valued map that fixes the integers and moves nothing
by a whole unit. Snapping a value to the multiples of a step with such a map
fixes the multiples and moves every value by less than one step.
-/
namespace Grid

section Multiples

variable {K : Type} [Field K]

/-- The signed multiples of a step. -/
def OnGrid (g x : K) : Prop := ∃ n : ℤ, x = n * g

def snap (r : K → ℤ) (g x : K) : K := r (x / g) * g

theorem OnGrid.zero (g : K) : OnGrid g 0 := ⟨0, by simp⟩

theorem OnGrid.add {g x y : K} (hx : OnGrid g x) (hy : OnGrid g y) : OnGrid g (x + y) := by
  obtain ⟨m, rfl⟩ := hx
  obtain ⟨n, rfl⟩ := hy
  exact ⟨m + n, by push_cast; ring⟩

theorem OnGrid.sub {g x y : K} (hx : OnGrid g x) (hy : OnGrid g y) : OnGrid g (x - y) := by
  obtain ⟨m, rfl⟩ := hx
  obtain ⟨n, rfl⟩ := hy
  exact ⟨m - n, by push_cast; ring⟩

theorem OnGrid.neg {g x : K} (hx : OnGrid g x) : OnGrid g (-x) := by
  simpa using (OnGrid.zero g).sub hx

theorem OnGrid.sum {g : K} {l : List K} (h : ∀ x ∈ l, OnGrid g x) : OnGrid g l.sum := by
  induction l with
  | nil => exact OnGrid.zero g
  | cons x l ih =>
    rw [List.sum_cons]
    exact (h x List.mem_cons_self).add (ih fun y hy => h y (List.mem_cons_of_mem x hy))

theorem OnGrid.min [LinearOrder K] {g x y : K} (hx : OnGrid g x) (hy : OnGrid g y) :
    OnGrid g (min x y) := by
  rcases min_choice x y with h | h <;> rw [h] <;> assumption

theorem snap_onGrid (r : K → ℤ) (g x : K) : OnGrid g (snap r g x) := ⟨r (x / g), rfl⟩

end Multiples

section Rounding

variable {K : Type} [Field K] [LinearOrder K]

structure IsRounding (r : K → ℤ) : Prop where
  int : ∀ n : ℤ, r n = n
  close : ∀ x : K, |(r x : K) - x| < 1

/-- A value already on the grid is not moved. -/
theorem IsRounding.snap_of_onGrid {r : K → ℤ} (hr : IsRounding r) {g x : K} (hg : g ≠ 0)
    (hx : OnGrid g x) : snap r g x = x := by
  obtain ⟨n, rfl⟩ := hx
  rw [snap, mul_div_cancel_right₀ _ hg, hr.int]

theorem IsRounding.abs_snap_sub_lt [IsStrictOrderedRing K] {r : K → ℤ} (hr : IsRounding r)
    {g : K} (hg : 0 < g) (x : K) : |snap r g x - x| < g := by
  have he : snap r g x - x = ((r (x / g) : K) - x / g) * g := by
    rw [snap, sub_mul, div_mul_cancel₀ _ hg.ne']
  rw [he, abs_mul, abs_of_pos hg]
  calc |(r (x / g) : K) - x / g| * g < 1 * g := by
        exact mul_lt_mul_of_pos_right (hr.close _) hg
    _ = g := one_mul g

/-- No rounding takes a value at or above zero below it. -/
theorem IsRounding.snap_nonneg [IsStrictOrderedRing K] {r : K → ℤ} (hr : IsRounding r)
    {g x : K} (hg : 0 < g) (h : 0 ≤ x) : 0 ≤ snap r g x := by
  have hx : 0 ≤ x / g := div_nonneg h hg.le
  have hlt : ((-1 : ℤ) : K) < r (x / g) := by
    have hclose := (abs_lt.mp (hr.close (x / g))).1
    push_cast
    linarith
  have hn : 0 ≤ r (x / g) := by
    have := Int.cast_lt.mp hlt
    omega
  exact mul_nonneg (by exact_mod_cast hn) hg.le

variable [FloorRing K]

/-- Towards zero. -/
def trunc (x : K) : ℤ := if 0 ≤ x then ⌊x⌋ else ⌈x⌉

variable [IsStrictOrderedRing K]

theorem isRounding_floor : IsRounding (fun x : K => ⌊x⌋) where
  int := Int.floor_intCast
  close x := by
    rw [abs_lt]
    have h₁ := Int.floor_le x
    have h₂ := Int.lt_floor_add_one x
    constructor <;> linarith

/-- Rounding down moves no value up. -/
theorem snap_floor_le {g : K} (hg : 0 < g) (x : K) : snap (fun x => ⌊x⌋) g x ≤ x := by
  calc (⌊x / g⌋ : K) * g ≤ x / g * g := mul_le_mul_of_nonneg_right (Int.floor_le _) hg.le
    _ = x := div_mul_cancel₀ x hg.ne'

/-- Rounding down leaves the largest multiple that is no larger. -/
theorem le_snap_floor {g x y : K} (hg : 0 < g) (hy : OnGrid g y) (h : y ≤ x) :
    y ≤ snap (fun x => ⌊x⌋) g x := by
  obtain ⟨n, rfl⟩ := hy
  have hn : n ≤ ⌊x / g⌋ := Int.le_floor.mpr ((le_div_iff₀ hg).mpr h)
  exact mul_le_mul_of_nonneg_right (by exact_mod_cast hn) hg.le

/-- Rounding down leaves something of a value that is a step or more. -/
theorem snap_floor_pos_iff {g x : K} (hg : 0 < g) : 0 < snap (fun x => ⌊x⌋) g x ↔ g ≤ x := by
  constructor
  · intro hpos
    have hfloor : 0 < ⌊x / g⌋ := by
      have hcast : (0 : K) < ⌊x / g⌋ := pos_of_mul_pos_left hpos hg.le
      exact_mod_cast hcast
    exact (one_le_div hg).mp (Int.floor_pos.mp hfloor)
  · exact fun h => hg.trans_le (le_snap_floor hg ⟨1, by simp⟩ h)

/-- Rounding up leaves the smallest multiple that is no smaller. -/
theorem snap_ceil_le {g x y : K} (hg : 0 < g) (hy : OnGrid g y) (h : x ≤ y) :
    snap (fun x => ⌈x⌉) g x ≤ y := by
  obtain ⟨n, rfl⟩ := hy
  have hn : ⌈x / g⌉ ≤ n := Int.ceil_le.mpr ((div_le_iff₀ hg).mpr h)
  exact mul_le_mul_of_nonneg_right (by exact_mod_cast hn) hg.le

/-- No difference to rounding down where nothing is negative. -/
theorem snap_trunc_eq {g x : K} (hg : 0 < g) (hx : 0 ≤ x) :
    snap trunc g x = snap (fun x => ⌊x⌋) g x := by
  have htrunc : trunc (x / g) = ⌊x / g⌋ := if_pos (div_nonneg hx hg.le)
  rw [snap, htrunc, snap]

theorem snap_trunc_le {g x : K} (hg : 0 < g) (hx : 0 ≤ x) : snap trunc g x ≤ x := by
  rw [snap_trunc_eq hg hx]
  exact snap_floor_le hg x

theorem isRounding_ceil : IsRounding (fun x : K => ⌈x⌉) where
  int := Int.ceil_intCast
  close x := by
    rw [abs_lt]
    have h₁ := Int.le_ceil x
    have h₂ := Int.ceil_lt_add_one x
    constructor <;> linarith

theorem isRounding_trunc : IsRounding (trunc : K → ℤ) where
  int n := by unfold trunc; split <;> simp
  close x := by
    unfold trunc
    split
    · exact isRounding_floor.close x
    · exact isRounding_ceil.close x

/-- The nearest integer, of two as near the even one. -/
def halfEven (x : K) : ℤ :=
  if x - ⌊x⌋ < 1 / 2 then ⌊x⌋
  else if 1 / 2 < x - ⌊x⌋ then ⌊x⌋ + 1
  else if ⌊x⌋ % 2 = 0 then ⌊x⌋
  else ⌊x⌋ + 1

theorem halfEven_mono {x y : K} (h : x ≤ y) : halfEven x ≤ halfEven y := by
  have hfloor : ⌊x⌋ ≤ ⌊y⌋ := Int.floor_le_floor h
  unfold halfEven
  rcases eq_or_lt_of_le hfloor with heq | hlt
  · -- from one integer on, the larger value is as far or farther
    have hdiff : x - ⌊x⌋ ≤ y - ⌊y⌋ := by
      rw [heq]
      exact sub_le_sub_right h _
    rw [heq] at hdiff ⊢
    split_ifs <;> first | omega | linarith
  · split_ifs <;> omega

omit [IsStrictOrderedRing K] [FloorRing K] in
/-- A step, or a positive one in its place. -/
theorem step_pos {step other : K} (h : 0 < other) : 0 < if 0 < step then step else other := by
  split
  · assumption
  · exact h

end Rounding

end Grid
