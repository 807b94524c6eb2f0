import Mathlib.Algebra.Order.Ring.Rat
import Mathlib.Data.Rat.Defs

/-!
# Decimals with the text they print as

The text of a decimal is a sign, digits with an optional point, and an optional
exponent. A printed decimal carries the proof that its text reads as its value,
so two of them with one text are of one value.
-/
namespace DecimalText

/-- The value of a text of digits, after the value of those already read. -/
def readDigits : ℕ → List Char → Option ℕ
  | value, [] => some value
  | value, c :: text => if c.isDigit then readDigits (10 * value + (c.toNat - 48)) text else none

theorem readDigits_append (value : ℕ) (text more : List Char) :
    readDigits value (text ++ more) =
      (readDigits value text).bind fun value => readDigits value more := by
  induction text generalizing value with
  | nil => rfl
  | cons c text ih =>
    rw [List.cons_append, readDigits, readDigits]
    split
    · exact ih _
    · rfl

/-- The digits of a number read as the number. -/
theorem readDigits_toDigits (n : ℕ) : readDigits 0 (Nat.toDigits 10 n) = some n := by
  have hdigit : ∀ d < 10, ∀ value, readDigits value [d.digitChar] = some (10 * value + d) := by
    intro d hd value
    have hchar : d.digitChar.isDigit = true ∧ d.digitChar.toNat - 48 = d := by
      revert d
      decide
    rw [readDigits, if_pos hchar.1, hchar.2, readDigits]
  induction n using Nat.strongRecOn with
  | ind n ih =>
    rw [Nat.toDigits_eq_if (by decide)]
    split
    · next hlt => rw [hdigit n hlt, Nat.mul_zero, Nat.zero_add]
    · rw [readDigits_append, ih (n / 10) (by omega), Option.bind_some,
        hdigit _ (Nat.mod_lt n (by decide)), Nat.div_add_mod]

theorem toString_injective : Function.Injective (toString : ℕ → String) := by
  intro m n h
  have hdigits : Nat.toDigits 10 m = Nat.toDigits 10 n := by
    simpa [toString, Nat.repr] using congrArg String.toList h
  have hread := readDigits_toDigits m
  rw [hdigits, readDigits_toDigits] at hread
  exact (Option.some.inj hread).symm

/-- An exponent with its mark; a text without one has exponent zero. -/
def readExponent : List Char → Option ℤ
  | [] => some 0
  | _ :: '-' :: c :: text => (readDigits 0 (c :: text)).map fun n => -(n : ℤ)
  | _ :: '+' :: c :: text => (readDigits 0 (c :: text)).map fun n => (n : ℤ)
  | _ :: c :: text => (readDigits 0 (c :: text)).map fun n => (n : ℤ)
  | _ => none

def readUnsigned (text : List Char) : Option ℚ := do
  let (mantissa, exponent) := text.span (· ≠ 'E')
  let (whole, fraction) := mantissa.span (· ≠ '.')
  let digits := whole ++ fraction.drop 1
  if digits = [] then none
  else do
    let coefficient ← readDigits 0 digits
    let shift ← readExponent exponent
    some (coefficient * (10 : ℚ) ^ (shift - (fraction.drop 1).length))

/-- The value a decimal's text stands for. -/
def readDecimal (text : String) : Option ℚ :=
  match text.toList with
  | '-' :: rest => (readUnsigned rest).map fun value => -value
  | rest => readUnsigned rest

example : readDecimal "-12.50" = some (-25 / 2) := by decide +kernel

example : readDecimal "1E+2" = some 100 := by decide +kernel

structure PrintedDecimal where
  value : ℚ
  text : String
  reads : readDecimal text = some value

/-- The text of a decimal determines its value. -/
theorem PrintedDecimal.eq_of_text {a b : PrintedDecimal} (h : a.text = b.text) : a = b := by
  have hvalue : some a.value = some b.value := by rw [← a.reads, ← b.reads, h]
  cases a
  cases b
  simp_all

def PrintedDecimal.zero : PrintedDecimal := ⟨0, "0", by decide +kernel⟩

end DecimalText
