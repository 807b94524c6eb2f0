import Btcbot.Grid
import Mathlib.Data.Nat.Log

/-!
# Decimal arithmetic

What a program does with its decimals: exact numbers, or numbers of 28 digits that keep the
exponent they come with, so that equal numbers may print differently.
-/
namespace Decimals

/-- Decimals are equal when they print the same; `less` compares their values. -/
class DecimalOps (D : Type) extends Add D, Mul D, Div D where
  /-- An integer with the point moved to the left. -/
  lit : ℤ → ℕ → D
  less : D → D → Bool
  /-- Towards zero. -/
  toInt : D → ℤ

export DecimalOps (lit less toInt)

section Choice

variable {D : Type} [DecimalOps D]

/-- The later one of two only if it is greater. -/
def larger (a b : D) : D := if less a b then b else a

/-- The later one of two only if it is less. -/
def smaller (a b : D) : D := if less b a then b else a

def sameValue (a b : D) : Bool := !less a b && !less b a

end Choice

section Exact

instance : DecimalOps ℚ where
  lit n places := n / 10 ^ places
  less a b := a < b
  toInt := Grid.trunc

@[simp] theorem lit_zero : (lit 0 0 : ℚ) = 0 := by simp [lit]

@[simp] theorem lit_one : (lit 1 0 : ℚ) = 1 := by simp [lit]

@[simp] theorem less_iff (a b : ℚ) : less a b = true ↔ a < b := by simp [less]

@[simp] theorem larger_eq_max (a b : ℚ) : larger a b = max a b := by
  unfold larger
  split
  · next h => exact (max_eq_right ((less_iff a b).mp h).le).symm
  · next h => exact (max_eq_left (not_lt.mp (mt (less_iff a b).mpr h))).symm

@[simp] theorem smaller_eq_min (a b : ℚ) : smaller a b = min a b := by
  unfold smaller
  split
  · next h => exact (min_eq_right ((less_iff b a).mp h).le).symm
  · next h => exact (min_eq_left (not_lt.mp (mt (less_iff b a).mpr h))).symm

end Exact

section Digits

/-- The digits of a decimal, with its sign, and the power of ten they count; no negative zero. -/
structure PyDecimal where
  coefficient : ℤ
  exponent : ℤ
  deriving DecidableEq, Repr

def PyDecimal.value (d : PyDecimal) : ℚ := d.coefficient * 10 ^ d.exponent

def precision : ℕ := 28

def digitCount (n : ℤ) : ℕ := Nat.log 10 n.natAbs + 1

/-- What has more digits than the precision is cut to the nearest number, half to even. -/
def PyDecimal.rounded (d : PyDecimal) : PyDecimal :=
  let excess := digitCount d.coefficient - precision
  if excess = 0 then d
  else
    let cut := Grid.halfEven ((d.coefficient : ℚ) / 10 ^ excess)
    if digitCount cut ≤ precision then ⟨cut, d.exponent + excess⟩
    else ⟨cut / 10, d.exponent + excess + 1⟩

def PyDecimal.sum (a b : PyDecimal) : PyDecimal :=
  let exponent := min a.exponent b.exponent
  PyDecimal.rounded
    ⟨a.coefficient * 10 ^ (a.exponent - exponent).toNat +
      b.coefficient * 10 ^ (b.exponent - exponent).toNat, exponent⟩

def PyDecimal.product (a b : PyDecimal) : PyDecimal :=
  PyDecimal.rounded ⟨a.coefficient * b.coefficient, a.exponent + b.exponent⟩

/-- Zeros off the end of a number, so many at most, and how many there were. -/
def stripZeros : ℕ → ℕ → ℕ × ℕ
  | 0, n => (n, 0)
  | limit + 1, n =>
    if n % 10 = 0 then
      let (rest, count) := stripZeros limit (n / 10)
      (rest, count + 1)
    else (n, 0)

/-- One digit more than the precision, and a last digit that tells an inexact quotient from a
tie; an exact one loses its zeros down to the exponent of the division. -/
def PyDecimal.quotient (a b : PyDecimal) : PyDecimal :=
  if a.coefficient = 0 then ⟨0, a.exponent - b.exponent⟩
  else
    let shift : ℤ := digitCount b.coefficient - digitCount a.coefficient + precision + 1
    let dividend := a.coefficient.natAbs * 10 ^ shift.toNat
    let divisor := b.coefficient.natAbs * 10 ^ (-shift).toNat
    let sign := a.coefficient.sign * b.coefficient.sign
    let whole := dividend / divisor
    if dividend % divisor ≠ 0 then
      let marked := if whole % 5 = 0 then whole + 1 else whole
      PyDecimal.rounded ⟨sign * marked, a.exponent - b.exponent - shift⟩
    else
      let (rest, count) := stripZeros shift.toNat whole
      PyDecimal.rounded ⟨sign * rest, a.exponent - b.exponent - shift + count⟩

instance : DecimalOps PyDecimal where
  add := PyDecimal.sum
  mul := PyDecimal.product
  div := PyDecimal.quotient
  lit n places := ⟨n, -places⟩
  less a b := a.value < b.value
  toInt d := Grid.trunc d.value

end Digits

end Decimals
