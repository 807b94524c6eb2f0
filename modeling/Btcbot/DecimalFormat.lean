import Btcbot.DecimalText
import Mathlib.Data.List.DropRight
import Mathlib.Data.List.TakeDrop
import Mathlib.Tactic.FieldSimp
import Mathlib.Tactic.Ring

/-!
# Decimals by digits and exponent

A decimal is a sign, a coefficient and a power of ten, and the point of its fixed text
stands among the digits of the coefficient or among zeros beside them. The text without
its trailing zeros reads as the value, whatever the exponent.
-/
namespace DecimalText

structure ScaledDecimal where
  negative : Bool
  coefficient : ℕ
  exponent : ℤ
  deriving DecidableEq, Repr

namespace ScaledDecimal

def value (d : ScaledDecimal) : ℚ :=
  (if d.negative then -1 else 1) * (d.coefficient * 10 ^ d.exponent)

def ofInt (n : ℤ) : ScaledDecimal := ⟨n < 0, n.natAbs, 0⟩

def mul (a b : ScaledDecimal) : ScaledDecimal :=
  ⟨xor a.negative b.negative, a.coefficient * b.coefficient, a.exponent + b.exponent⟩

theorem value_ofInt (n : ℤ) : (ofInt n).value = n := by
  have habs : ((n.natAbs : ℤ) : ℚ) = |(n : ℚ)| := by rw [Int.natCast_natAbs, Int.cast_abs]
  rw [Int.cast_natCast] at habs
  simp only [value, ofInt, zpow_zero, mul_one, habs, decide_eq_true_eq]
  split
  · next hneg =>
    have hcast : (n : ℚ) < 0 := by exact_mod_cast hneg
    rw [abs_of_neg hcast]
    ring
  · next hneg =>
    have hcast : (0 : ℚ) ≤ n := by exact_mod_cast not_lt.mp hneg
    rw [abs_of_nonneg hcast, one_mul]

theorem value_mul (a b : ScaledDecimal) : (a.mul b).value = a.value * b.value := by
  obtain ⟨an, ac, ae⟩ := a
  obtain ⟨bn, bc, be⟩ := b
  simp only [value, mul, zpow_add₀ (by norm_num : (10 : ℚ) ≠ 0), Nat.cast_mul]
  cases an <;> cases bn <;> simp <;> ring

end ScaledDecimal

section Layout

/-- The digits before the point, where it stands that many digits from the left. -/
def wholePart (digits : List Char) (place : ℤ) : List Char :=
  if place ≤ 0 then ['0']
  else digits.take place.toNat ++ List.replicate (place.toNat - digits.length) '0'

def fractionPart (digits : List Char) (place : ℤ) : List Char :=
  List.replicate (-place).toNat '0' ++ digits.drop place.toNat

def point (fraction : List Char) : List Char := if fraction = [] then [] else '.' :: fraction

/-- What digits around a point stand for. -/
def readPointed (whole fraction : List Char) : Option ℚ :=
  (readDigits 0 (whole ++ fraction)).map fun n : ℕ => (n : ℚ) * 10 ^ (-(fraction.length : ℤ))

theorem readDigits_zero (value : ℕ) (text : List Char) :
    readDigits value ('0' :: text) = readDigits (10 * value) text := rfl

theorem readDigits_zeros (n : ℕ) (text : List Char) :
    readDigits 0 (List.replicate n '0' ++ text) = readDigits 0 text := by
  induction n with
  | zero => rfl
  | succ n ih => rw [List.replicate_succ, List.cons_append, readDigits_zero, ih]

theorem readDigits_append_zeros (text : List Char) (n : ℕ) :
    readDigits 0 (text ++ List.replicate n '0') =
      (readDigits 0 text).map fun value => value * 10 ^ n := by
  induction n with
  | zero => simp
  | succ n ih =>
    rw [List.replicate_succ', ← List.append_assoc, readDigits_append, ih]
    cases readDigits 0 text with
    | none => rfl
    | some value =>
      rw [Option.map_some, Option.bind_some, readDigits_zero, readDigits, Option.map_some]
      congr 1
      ring

/-- A zero at the end of a fraction changes nothing. -/
theorem readPointed_concat_zero (whole fraction : List Char) :
    readPointed whole (fraction ++ ['0']) = readPointed whole fraction := by
  have hread := readDigits_append_zeros (whole ++ fraction) 1
  rw [readPointed, readPointed, ← List.append_assoc]
  rw [show List.replicate 1 '0' = ['0'] from rfl] at hread
  rw [hread, Option.map_map]
  congr 1
  funext value
  have hten : (10 : ℚ) ≠ 0 := by norm_num
  simp only [Function.comp_apply, List.length_append, List.length_singleton]
  push_cast
  rw [neg_add, zpow_add₀ hten]
  field_simp

theorem readPointed_rstrip (whole fraction : List Char) :
    readPointed whole (fraction.rdropWhile (· == '0')) = readPointed whole fraction := by
  induction fraction using List.reverseRecOn with
  | nil => rfl
  | append_singleton fraction c ih =>
    by_cases hc : c = '0'
    · rw [List.rdropWhile_concat_pos _ _ _ (by simp [hc]), ih, hc, readPointed_concat_zero]
    · rw [List.rdropWhile_concat_neg _ _ _ (by simp [hc])]

/-- With the point at the end of the digits or after it, there is no fraction. -/
theorem whole_layout {digits : List Char} (hne : digits ≠ []) (k : ℕ) :
    wholePart digits (k + digits.length) = digits ++ List.replicate k '0' ∧
      fractionPart digits (k + digits.length) = [] := by
  have hpos := List.length_pos_iff.mpr hne
  have hplace : ((k : ℤ) + digits.length).toNat = k + digits.length := by omega
  have hzeros : (-((k : ℤ) + digits.length)).toNat = 0 := by omega
  constructor
  · rw [wholePart, if_neg (by omega), hplace, List.take_of_length_le (by omega),
      Nat.add_sub_cancel]
  · rw [fractionPart, hplace, hzeros, List.drop_eq_nil_of_le (by omega)]
    rfl

/-- Wherever the point is put, the digits stand for the same but for a power of ten. -/
theorem readPointed_layout (digits : List Char) (place : ℤ) :
    readPointed (wholePart digits place) (fractionPart digits place) =
      (readDigits 0 digits).map fun n : ℕ => (n : ℚ) * 10 ^ (place - digits.length) := by
  unfold readPointed wholePart fractionPart
  split
  · next hplace =>
    have hdrop : place.toNat = 0 := by omega
    have hlength : (-((-place).toNat + digits.length : ℤ)) = place - digits.length := by omega
    rw [hdrop, List.drop_zero, List.cons_append, List.nil_append, readDigits_zero,
      readDigits_zeros, List.length_append, List.length_replicate]
    push_cast
    rw [hlength]
  · next hplace =>
    have hzeros : (-place).toNat = 0 := by omega
    rw [hzeros, List.replicate_zero, List.nil_append, List.length_drop]
    rcases le_total place.toNat digits.length with hle | hle
    · have hlength : (-((digits.length - place.toNat : ℕ) : ℤ)) = place - digits.length := by omega
      rw [Nat.sub_eq_zero_of_le hle, List.replicate_zero, List.append_nil,
        List.take_append_drop, hlength]
    · rw [List.take_of_length_le hle, List.drop_eq_nil_of_le hle, List.append_nil,
        readDigits_append_zeros, Option.map_map, Nat.sub_eq_zero_of_le hle]
      congr 1
      funext n
      have hplaces : place - digits.length = ((place.toNat - digits.length : ℕ) : ℤ) := by omega
      simp only [Function.comp_apply, hplaces, zpow_natCast]
      push_cast
      simp

end Layout

section Reading

def rstrip (c : Char) (text : List Char) : List Char := text.rdropWhile (· == c)

/-- Only digits are in the text. -/
def Digits (text : List Char) : Prop := ∀ c ∈ text, c.isDigit = true

theorem Digits.append {text more : List Char} (h : Digits text) (hmore : Digits more) :
    Digits (text ++ more) := fun c hc => (List.mem_append.mp hc).elim (h c) (hmore c)

theorem Digits.sublist {text more : List Char} (h : Digits more) (hsub : text.Sublist more) :
    Digits text := fun c hc => h c (hsub.subset hc)

theorem digits_zeros (n : ℕ) : Digits (List.replicate n '0') := by
  intro c hc
  rw [List.eq_of_mem_replicate hc]
  decide

theorem Digits.wholePart {digits : List Char} (h : Digits digits) (place : ℤ) :
    Digits (wholePart digits place) := by
  unfold DecimalText.wholePart
  split
  · exact digits_zeros 1
  · exact (h.sublist (List.take_sublist _ _)).append (digits_zeros _)

theorem Digits.fractionPart {digits : List Char} (h : Digits digits) (place : ℤ) :
    Digits (fractionPart digits place) :=
  (digits_zeros _).append (h.sublist (List.drop_sublist _ _))

theorem Digits.not_mem {text : List Char} (h : Digits text) {c : Char} (hc : c.isDigit = false) :
    c ∉ text := by
  intro hmem
  rw [h c hmem] at hc
  cases hc

theorem wholePart_ne_nil {digits : List Char} (h : digits ≠ []) (place : ℤ) :
    wholePart digits place ≠ [] := by
  have hpos := List.length_pos_iff.mpr h
  unfold wholePart
  split
  · exact List.cons_ne_nil _ _
  · rw [← List.length_pos_iff, List.length_append, List.length_take, List.length_replicate]
    omega

/-- Stripping zeros and then the point ends at the last digit that counts. -/
theorem rstrip_point {front fraction : List Char} (hfront : '.' ∉ front)
    (hfraction : Digits fraction) :
    rstrip '.' (rstrip '0' (front ++ '.' :: fraction)) = front ++ point (rstrip '0' fraction) := by
  unfold rstrip
  induction fraction using List.reverseRecOn with
  | nil =>
    have hkept : front.rdropWhile (· == '.') = front := by
      refine List.rdropWhile_eq_self_iff.mpr fun hne hlast => hfront ?_
      rw [← beq_iff_eq.mp hlast]
      exact List.getLast_mem hne
    rw [List.rdropWhile_concat_neg _ _ _ (by decide), List.rdropWhile_concat_pos _ _ _ (by decide),
      hkept]
    simp [point]
  | append_singleton fraction c ih =>
    rw [← List.cons_append, ← List.append_assoc]
    by_cases hc : c = '0'
    · have hsub := hfraction.sublist (List.sublist_append_left fraction [c])
      rw [List.rdropWhile_concat_pos _ _ _ (by simp [hc]),
        List.rdropWhile_concat_pos _ _ _ (by simp [hc]), ih hsub]
    · have hpoint : c ≠ '.' := by
        rintro rfl
        exact hfraction.not_mem (by decide) (List.mem_append_right _ (List.mem_singleton_self _))
      rw [List.rdropWhile_concat_neg _ _ _ (by simp [hc]),
        List.rdropWhile_concat_neg _ _ _ (by simp [hpoint]),
        List.rdropWhile_concat_neg _ _ _ (by simp [hc]), point, if_neg (by simp)]
      simp

theorem mem_pointed {whole fraction : List Char} (hwhole : Digits whole)
    (hfraction : Digits fraction) {c : Char} (hc : c ∈ whole ++ point fraction) :
    c = '.' ∨ c.isDigit = true := by
  rcases List.mem_append.mp hc with hc | hc
  · exact .inr (hwhole c hc)
  · unfold point at hc
    split at hc
    · cases hc
    · exact (List.mem_cons.mp hc).imp_right (hfraction c)

/-- Nothing after the digits and the point is a mark of an exponent. -/
theorem span_pointed {whole fraction : List Char} (hwhole : Digits whole)
    (hfraction : Digits fraction) {p : Char → Bool} (hpoint : p '.' = true)
    (hdigit : ∀ c, c.isDigit = true → p c = true) :
    (whole ++ point fraction).span p = (whole ++ point fraction, []) := by
  have hall : ∀ c ∈ whole ++ point fraction, p c = true := fun c hc =>
    (mem_pointed hwhole hfraction hc).elim (fun h => h ▸ hpoint) (hdigit c)
  rw [List.span_eq_takeWhile_dropWhile, List.takeWhile_eq_self_iff.mpr hall,
    List.dropWhile_eq_nil_iff.mpr hall]

theorem span_point {whole : List Char} (hwhole : Digits whole) (fraction : List Char) :
    (whole ++ point fraction).span (· ≠ '.') = (whole, point fraction) := by
  have hbefore : ∀ c ∈ whole, (decide (c ≠ '.')) = true := by
    intro c hc
    refine decide_eq_true ?_
    rintro rfl
    exact hwhole.not_mem (by decide) hc
  rw [List.span_eq_takeWhile_dropWhile, List.takeWhile_append_of_pos hbefore,
    List.dropWhile_append_of_pos hbefore]
  unfold point
  split <;> simp

theorem drop_point (fraction : List Char) : (point fraction).drop 1 = fraction := by
  unfold point
  split
  · next h => rw [h]; rfl
  · rfl

theorem ne_of_isDigit {c d : Char} (hc : c.isDigit = true) (hd : d.isDigit = false) : c ≠ d := by
  rintro rfl
  rw [hc] at hd
  cases hd

theorem readUnsigned_pointed {whole fraction : List Char} (hwhole : Digits whole)
    (hne : whole ≠ []) (hfraction : Digits fraction) :
    readUnsigned (whole ++ point fraction) = readPointed whole fraction := by
  have hmantissa := span_pointed hwhole hfraction (p := (· ≠ 'E')) (by decide)
    fun c hc => decide_eq_true (ne_of_isDigit hc (by decide))
  unfold readUnsigned readPointed
  simp only [hmantissa, span_point hwhole, drop_point, readExponent, List.append_eq_nil_iff, hne,
    false_and, if_false]
  cases readDigits 0 (whole ++ fraction) with
  | none => rfl
  | some value => simp

end Reading

section Text

namespace ScaledDecimal

variable (d : ScaledDecimal)

def digits : List Char := Nat.toDigits 10 d.coefficient

def sign : List Char := if d.negative then ['-'] else []

/-- The place of the point without an exponent, above zero for no zero. -/
def fixedPlace : ℤ :=
  (if d.coefficient = 0 then min d.exponent 0 else d.exponent) + d.digits.length

/-- The text that the format `f` prints. -/
def fixed : List Char :=
  d.sign ++ wholePart d.digits d.fixedPlace ++ point (fractionPart d.digits d.fixedPlace)

/-- The text with an exponent where the format without one is long. -/
def str : String :=
  let leftDigits : ℤ := d.exponent + d.digits.length
  let dotPlace := if d.exponent ≤ 0 ∧ -6 < leftDigits then leftDigits else 1
  let shift := leftDigits - dotPlace
  let exponent := if shift = 0 then []
    else 'E' :: (if 0 < shift then '+' else '-') :: Nat.toDigits 10 shift.natAbs
  .ofList (d.sign ++ wholePart d.digits dotPlace ++ point (fractionPart d.digits dotPlace) ++
    exponent)

theorem digits_digits : Digits d.digits := by
  intro c hc
  exact Nat.isDigit_of_mem_toDigits (by decide : 0 < 10) (by decide : 10 ≤ 10) hc

theorem digits_ne_nil : d.digits ≠ [] := Nat.toDigits_ne_nil

theorem point_not_mem_front : '.' ∉ d.sign ++ wholePart d.digits d.fixedPlace := by
  intro hmem
  rcases List.mem_append.mp hmem with h | h
  · unfold sign at h
    split at h <;> simp at h
  · exact (d.digits_digits.wholePart _).not_mem (by decide) h

theorem readDecimal_pointed {whole fraction : List Char} (hwhole : Digits whole) (hne : whole ≠ [])
    (hfraction : Digits fraction) :
    readDecimal (.ofList (d.sign ++ whole ++ point fraction)) =
      (readPointed whole fraction).map fun value => if d.negative then -value else value := by
  have hread := readUnsigned_pointed hwhole hne hfraction
  unfold readDecimal sign
  rw [String.toList_ofList, ← hread]
  cases d.negative with
  | true => simp
  | false =>
    obtain ⟨c, rest, rfl⟩ := List.exists_cons_of_ne_nil hne
    have hc : c ≠ '-' := by
      rintro rfl
      exact hwhole.not_mem (by decide) List.mem_cons_self
    simp [hc]

/-- The value a fixed text reads as, with or without its trailing zeros. -/
theorem readPointed_fixed :
    readPointed (wholePart d.digits d.fixedPlace) (fractionPart d.digits d.fixedPlace) =
      some (d.coefficient * (10 : ℚ) ^ d.exponent) := by
  rw [readPointed_layout, digits, readDigits_toDigits, Option.map_some, fixedPlace,
    add_sub_assoc, digits]
  split
  · next hzero => rw [hzero, Nat.cast_zero, zero_mul, zero_mul]
  · rw [sub_self, add_zero]

theorem read_stripped :
    readDecimal (.ofList (d.sign ++ wholePart d.digits d.fixedPlace ++
      point (rstrip '0' (fractionPart d.digits d.fixedPlace)))) = some d.value := by
  have hstripped : Digits (rstrip '0' (fractionPart d.digits d.fixedPlace)) :=
    (d.digits_digits.fractionPart _).sublist (List.rdropWhile_prefix _ _).sublist
  rw [d.readDecimal_pointed (d.digits_digits.wholePart _) (wholePart_ne_nil d.digits_ne_nil _)
    hstripped, rstrip, readPointed_rstrip, readPointed_fixed, Option.map_some, value]
  split <;> simp

/-- What the digits of a text without a sign make. -/
def ofUnsigned (negative : Bool) (text : List Char) : Option ScaledDecimal := do
  let (mantissa, exponent) := text.span fun c => c ≠ 'E' ∧ c ≠ 'e'
  let (whole, fraction) := mantissa.span (· ≠ '.')
  let digits := whole ++ fraction.drop 1
  if digits = [] then none
  else do
    let coefficient ← readDigits 0 digits
    let shift ← readExponent exponent
    some ⟨negative, coefficient, shift - (fraction.drop 1).length⟩

/-- The decimal a text is the text of, if it is one of a finite decimal. -/
def ofText (text : String) : Option ScaledDecimal :=
  match text.toList with
  | '-' :: rest => ofUnsigned true rest
  | '+' :: rest => ofUnsigned false rest
  | rest => ofUnsigned false rest

/-- Without a positive exponent, which the fixed text writes out as zeros. -/
def settled : ScaledDecimal :=
  if 0 < d.exponent then ⟨d.negative, d.coefficient * 10 ^ d.exponent.toNat, 0⟩ else d

theorem ofUnsigned_pointed {whole fraction : List Char} (hwhole : Digits whole)
    (hne : whole ≠ []) (hfraction : Digits fraction) (negative : Bool) :
    ofUnsigned negative (whole ++ point fraction) =
      (readDigits 0 (whole ++ fraction)).map fun n => ⟨negative, n, -(fraction.length : ℤ)⟩ := by
  have hmantissa := span_pointed hwhole hfraction (p := fun c => c ≠ 'E' ∧ c ≠ 'e') (by decide)
    fun c hc => decide_eq_true
      ⟨ne_of_isDigit hc (by decide), ne_of_isDigit hc (by decide)⟩
  unfold ofUnsigned
  simp only [hmantissa, span_point hwhole, drop_point, readExponent, List.append_eq_nil_iff, hne,
    false_and, if_false]
  cases readDigits 0 (whole ++ fraction) with
  | none => rfl
  | some value => simp

theorem fractionPart_length :
    ((fractionPart d.digits d.fixedPlace).length : ℤ) = max 0 (-d.exponent) := by
  have hpos := List.length_pos_iff.mpr d.digits_ne_nil
  have hone : d.coefficient = 0 → d.digits.length = 1 := by
    intro hzero
    rw [digits, hzero]
    rfl
  rw [fractionPart, List.length_append, List.length_replicate, List.length_drop, fixedPlace]
  split <;> omega

theorem ofText_sign {text : List Char} (hne : text ≠ []) (hdigit : Digits (text.take 1)) :
    ofText (.ofList (d.sign ++ text)) = ofUnsigned d.negative text := by
  obtain ⟨c, rest, rfl⟩ := List.exists_cons_of_ne_nil hne
  have hc : c.isDigit = true := hdigit c List.mem_cons_self
  have hminus := ne_of_isDigit hc (d := '-') (by decide)
  have hplus := ne_of_isDigit hc (d := '+') (by decide)
  unfold ofText sign
  rw [String.toList_ofList]
  cases d.negative with
  | true => rfl
  | false => simp [hminus, hplus]

/-- The digits around the point are those of the coefficient, with the zeros of a positive
exponent. -/
theorem readDigits_fixed :
    readDigits 0 (wholePart d.digits d.fixedPlace ++ fractionPart d.digits d.fixedPlace) =
      some d.settled.coefficient := by
  have hread := d.readPointed_fixed
  have hlength := d.fractionPart_length
  rw [readPointed] at hread
  cases hdigits : readDigits 0 (wholePart d.digits d.fixedPlace ++
      fractionPart d.digits d.fixedPlace) with
  | none => simp [hdigits] at hread
  | some n =>
    rw [hdigits, Option.map_some, Option.some.injEq, hlength] at hread
    congr 1
    unfold settled
    split
    · next hpos =>
      obtain ⟨k, hk⟩ := Int.eq_ofNat_of_zero_le hpos.le
      rw [max_eq_left (by omega), neg_zero, zpow_zero, mul_one, hk, zpow_natCast] at hread
      rw [hk, Int.toNat_natCast]
      exact_mod_cast hread
    · next hneg =>
      rw [max_eq_right (by omega), neg_neg] at hread
      exact_mod_cast mul_right_cancel₀ (zpow_ne_zero _ (by norm_num)) hread

theorem settled_exponent : d.settled.exponent = -max 0 (-d.exponent) := by
  unfold settled
  split
  · next hpos => simp [hpos.le]
  · next hneg => omega

theorem ofText_fixed : ofText (.ofList d.fixed) = some d.settled := by
  have hwhole := d.digits_digits.wholePart d.fixedPlace
  have hne := wholePart_ne_nil d.digits_ne_nil d.fixedPlace
  have hfraction := d.digits_digits.fractionPart d.fixedPlace
  have hstart : Digits ((wholePart d.digits d.fixedPlace ++
      point (fractionPart d.digits d.fixedPlace)).take 1) := by
    rw [List.take_append_of_le_length (List.length_pos_iff.mpr hne)]
    exact hwhole.sublist (List.take_sublist _ _)
  have hnegative : d.negative = d.settled.negative := by
    unfold settled
    split <;> rfl
  rw [fixed, List.append_assoc, d.ofText_sign (List.append_ne_nil_of_left_ne_nil hne _) hstart,
    ofUnsigned_pointed hwhole hne hfraction, d.readDigits_fixed, d.fractionPart_length,
    ← d.settled_exponent, hnegative]
  rfl

theorem value_settled : d.settled.value = d.value := by
  unfold settled
  split
  · next hpos =>
    obtain ⟨n, hn⟩ := Int.eq_ofNat_of_zero_le hpos.le
    simp [value, hn]
  · rfl

theorem toDigits_mul_pow {n : ℕ} (h : n ≠ 0) (k : ℕ) :
    Nat.toDigits 10 (n * 10 ^ k) = Nat.toDigits 10 n ++ List.replicate k '0' := by
  induction k with
  | zero => simp
  | succ k ih =>
    have hpos : 0 < n * 10 ^ k := Nat.mul_pos (Nat.pos_of_ne_zero h) (pow_pos (by decide) k)
    rw [pow_succ, ← mul_assoc, Nat.toDigits_eq_if (by decide), if_neg (by omega),
      Nat.mul_div_cancel _ (by decide), Nat.mul_mod_left, ih, List.replicate_succ',
      List.append_assoc]
    rfl

/-- What is read from a fixed text has it for its own. -/
theorem fixed_settled : d.settled.fixed = d.fixed := by
  obtain ⟨negative, coefficient, exponent⟩ := d
  unfold settled
  split
  · next hpos =>
    obtain ⟨k, rfl⟩ := Int.eq_ofNat_of_zero_le (show 0 ≤ exponent from hpos.le)
    rcases eq_or_ne coefficient 0 with rfl | hne
    · simp [fixed, fixedPlace, digits, sign]
    · have hmul : coefficient * 10 ^ k ≠ 0 := mul_ne_zero hne (pow_ne_zero k (by decide))
      have hold := whole_layout (Nat.toDigits_ne_nil (b := 10) (n := coefficient)) k
      have hnew := whole_layout (Nat.toDigits_ne_nil (b := 10) (n := coefficient * 10 ^ k)) 0
      rw [Nat.cast_zero] at hnew
      simp only [fixed, fixedPlace, digits, sign, Int.toNat_natCast, hne, hmul, if_false]
      rw [hold.1, hold.2, hnew.1, hnew.2, toDigits_mul_pow hne, List.replicate_zero,
        List.append_nil]
  · rfl

example : (ScaledDecimal.mk false 1200 (-2)).fixed = "12.00".toList := by decide +kernel

example : (ScaledDecimal.mk true 5 (-8)).str = "-5E-8" := by decide +kernel

end ScaledDecimal

end Text

end DecimalText
