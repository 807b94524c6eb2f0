import Btcbot.Grid

/-!
# Money policy

Decimals are exact rationals: the 28 digit context of the interpreter is wider
than every amount the policies produce. A rounding mode carries the proof that
it is one, so the ledger is proved for every mode a policy may name.
-/
namespace Money

open Grid

abbrev RoundingMode := { r : ℚ → ℤ // IsRounding r }

def roundDown : RoundingMode := ⟨trunc, isRounding_trunc⟩

structure MoneyMathPolicy where
  priceTick : ℚ
  qtyStep : ℚ
  quotePrecision : ℤ
  feePrecision : ℤ
  rounding : RoundingMode

def defaultMoneyPolicy : MoneyMathPolicy where
  priceTick := 1 / 10 ^ 2
  qtyStep := 1 / 10 ^ 8
  quotePrecision := 8
  feePrecision := 8
  rounding := roundDown

/-- A step that is not positive rounds nothing. -/
def quantizeToStep (value step : ℚ) (rounding : RoundingMode) : ℚ :=
  if step ≤ 0 then value else snap rounding.1 step value

/-- Rounding puts a value on the grid, unless the step names none and the value is off it. -/
theorem quantizeToStep_onGrid_iff (value step : ℚ) (rounding : RoundingMode) :
    OnGrid step (quantizeToStep value step rounding) ↔ (step ≤ 0 → OnGrid step value) := by
  by_cases hstep : step ≤ 0
  · rw [quantizeToStep, if_pos hstep]
    exact (imp_iff_right hstep).symm
  · rw [quantizeToStep, if_neg hstep]
    exact iff_of_true (snap_onGrid _ _ _) fun h => absurd h hstep

def quantum (precision : ℤ) : ℚ := 1 / 10 ^ (max 0 precision).toNat

def roundPrice (price : ℚ) (policy : MoneyMathPolicy) : ℚ :=
  quantizeToStep price policy.priceTick policy.rounding

def roundQty (qty : ℚ) (policy : MoneyMathPolicy) : ℚ :=
  quantizeToStep qty policy.qtyStep policy.rounding

def roundFee (fee : ℚ) (policy : MoneyMathPolicy) : ℚ :=
  snap policy.rounding.1 (quantum policy.feePrecision) fee

def roundQuote (amount : ℚ) (policy : MoneyMathPolicy) : ℚ :=
  snap policy.rounding.1 (quantum policy.quotePrecision) amount

example : roundQuote (-1 / 3) defaultMoneyPolicy = -33333333 / 100000000 := by decide +kernel

theorem quantum_pos (precision : ℤ) : 0 < quantum precision := by
  unfold quantum
  positivity

/-- The quantities a policy can express. -/
def QtyGrid (policy : MoneyMathPolicy) (qty : ℚ) : Prop :=
  0 < policy.qtyStep → OnGrid policy.qtyStep qty

theorem QtyGrid.zero (policy : MoneyMathPolicy) : QtyGrid policy 0 := fun _ => OnGrid.zero _

theorem QtyGrid.sub {policy : MoneyMathPolicy} {a b : ℚ} (ha : QtyGrid policy a)
    (hb : QtyGrid policy b) : QtyGrid policy (a - b) := fun h => (ha h).sub (hb h)

theorem QtyGrid.min {policy : MoneyMathPolicy} {a b : ℚ} (ha : QtyGrid policy a)
    (hb : QtyGrid policy b) : QtyGrid policy (min a b) := fun h => (ha h).min (hb h)

theorem roundQty_grid (qty : ℚ) (policy : MoneyMathPolicy) :
    QtyGrid policy (roundQty qty policy) := by
  intro h
  rw [roundQty, quantizeToStep, if_neg (not_le.mpr h)]
  exact snap_onGrid _ _ _

theorem roundQty_of_grid {qty : ℚ} {policy : MoneyMathPolicy} (h : QtyGrid policy qty) :
    roundQty qty policy = qty := by
  unfold roundQty quantizeToStep
  split
  · rfl
  · next hs =>
    have hs := not_le.mp hs
    exact policy.rounding.2.snap_of_onGrid hs.ne' (h hs)

@[simp] theorem roundQty_zero (policy : MoneyMathPolicy) : roundQty 0 policy = 0 :=
  roundQty_of_grid (QtyGrid.zero policy)

theorem roundQty_nonneg {qty : ℚ} (policy : MoneyMathPolicy) (h : 0 ≤ qty) :
    0 ≤ roundQty qty policy := by
  unfold roundQty quantizeToStep
  split
  · exact h
  · next hs => exact policy.rounding.2.snap_nonneg (not_le.mp hs) h

theorem abs_roundQuote_sub_lt (amount : ℚ) (policy : MoneyMathPolicy) :
    |roundQuote amount policy - amount| < quantum policy.quotePrecision :=
  policy.rounding.2.abs_snap_sub_lt (quantum_pos _) amount

end Money
