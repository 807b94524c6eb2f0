import Btcbot.DecimalText
import Mathlib.Tactic.Ring

/-!
# Dates and times in text

Days are numbered from the first of January of year 1 and a time is a number of
microseconds from the start of 1970. The text of a time in UTC has its date, its time of
the day, with six decimals if it is not of whole seconds, and an offset of zero.
-/
namespace IsoTime

open DecimalText

section Calendar

def isLeap (year : ℕ) : Bool := decide (year % 4 = 0 ∧ (year % 100 ≠ 0 ∨ year % 400 = 0))

def daysBeforeYear (year : ℕ) : ℕ :=
  (year - 1) * 365 + (year - 1) / 4 - (year - 1) / 100 + (year - 1) / 400

def monthLengths (leap : Bool) : List ℕ :=
  [31, if leap then 29 else 28, 31, 30, 31, 30, 31, 31, 30, 31, 30, 31]

def daysInMonth (leap : Bool) (month : ℕ) : ℕ := (monthLengths leap).getD (month - 1) 0

def daysBeforeMonth (leap : Bool) (month : ℕ) : ℕ := ((monthLengths leap).take (month - 1)).sum

/-- The number of a date, with 1 for the first day of year 1. -/
def toOrdinal (year month day : ℕ) : ℕ :=
  daysBeforeYear year + daysBeforeMonth (isLeap year) month + day

/-- The year of a day and the days of it before. A day left over after four years, or after four
centuries, is the last of a leap year. -/
def yearDay (n : ℕ) : ℕ × ℕ :=
  let n400 := n / 146097
  let n100 := n % 146097 / 36524
  let n4 := n % 146097 % 36524 / 1461
  let n1 := n % 146097 % 36524 % 1461 / 365
  let year := n400 * 400 + n100 * 100 + n4 * 4 + n1
  if n1 = 4 ∨ n100 = 4 then (year, 365) else (year + 1, n % 146097 % 36524 % 1461 % 365)

/-- The month and day of so many days of a year before. -/
def monthDay (leap : Bool) (days : ℕ) : ℕ × ℕ :=
  let month := (days + 50) / 32
  if days < daysBeforeMonth leap month then (month - 1, days - daysBeforeMonth leap (month - 1) + 1)
  else (month, days - daysBeforeMonth leap month + 1)

def ofOrdinal (n : ℕ) : ℕ × ℕ × ℕ :=
  let (year, days) := yearDay (n - 1)
  (year, monthDay (isLeap year) days)

/-- The days before the year that follows so many centuries and years. -/
theorem daysBeforeYear_succ {a b c d : ℕ} (hb : b < 4) (hc : c < 25) (hd : d < 4) :
    daysBeforeYear (a * 400 + b * 100 + c * 4 + d + 1) =
      a * 146097 + b * 36524 + c * 1461 + d * 365 := by
  unfold daysBeforeYear
  omega

theorem isLeap_succ {a b c d : ℕ} (hb : b < 4) (hc : c < 25) (hd : d < 4) :
    isLeap (a * 400 + b * 100 + c * 4 + d + 1) = decide (d = 3 ∧ (c ≠ 24 ∨ b = 3)) := by
  unfold isLeap
  rw [decide_eq_decide]
  omega

theorem yearDay_spec (n : ℕ) : 1 ≤ (yearDay n).1 ∧
    daysBeforeYear (yearDay n).1 + (yearDay n).2 = n ∧
    (yearDay n).2 < if isLeap (yearDay n).1 then 366 else 365 := by
  unfold yearDay
  dsimp only
  generalize ha : n / 146097 = a
  generalize hb : n % 146097 / 36524 = b
  generalize hc : n % 146097 % 36524 / 1461 = c
  generalize hd : n % 146097 % 36524 % 1461 / 365 = d
  generalize hr : n % 146097 % 36524 % 1461 % 365 = r
  have hn : n = a * 146097 + b * 36524 + c * 1461 + d * 365 + r := by omega
  split
  · next hlast =>
    -- the last day of four years, or of four centuries
    have hr0 : r = 0 := by omega
    dsimp only
    by_cases hcentury : b = 4
    · have hc0 : c = 0 := by omega
      have hd0 : d = 0 := by omega
      have hyear : a * 400 + b * 100 + c * 4 + d = a * 400 + 3 * 100 + 24 * 4 + 3 + 1 := by
        rw [hcentury, hc0, hd0]
      rw [hyear, isLeap_succ (b := 3) (c := 24) (d := 3) (by decide) (by decide) (by decide),
        daysBeforeYear_succ (b := 3) (c := 24) (d := 3) (by decide) (by decide) (by decide),
        if_pos (by decide), hn, hcentury, hc0, hd0, hr0]
      exact ⟨Nat.le_add_left 1 _, by ring, by decide⟩
    · have hd4 : d = 4 := by omega
      have hb4 : b < 4 := by omega
      have hc24 : c < 24 := by omega
      have hyear : a * 400 + b * 100 + c * 4 + d = a * 400 + b * 100 + c * 4 + 3 + 1 := by rw [hd4]
      rw [hyear, daysBeforeYear_succ hb4 (by omega) (by decide),
        isLeap_succ hb4 (by omega) (by decide), if_pos (decide_eq_true ⟨rfl, .inl hc24.ne⟩),
        hn, hd4, hr0]
      exact ⟨Nat.le_add_left 1 _, by ring, by decide⟩
  · next hlast =>
    have hb4 : b < 4 := by omega
    have hc25 : c < 25 := by omega
    have hd4 : d < 4 := by omega
    refine ⟨Nat.le_add_left 1 _, ?_, ?_⟩
    · rw [daysBeforeYear_succ hb4 hc25 hd4]
      omega
    · split <;> omega

theorem monthDay_spec : ∀ leap : Bool, ∀ days < if leap then 366 else 365,
    (1 ≤ (monthDay leap days).1 ∧ (monthDay leap days).1 ≤ 12) ∧
    (1 ≤ (monthDay leap days).2 ∧
      (monthDay leap days).2 ≤ daysInMonth leap (monthDay leap days).1) ∧
    daysBeforeMonth leap (monthDay leap days).1 + (monthDay leap days).2 = days + 1 := by
  decide +kernel

theorem ofOrdinal_spec {n : ℕ} (h : 1 ≤ n) :
    ∃ year month day, ofOrdinal n = (year, month, day) ∧ 1 ≤ year ∧ (1 ≤ month ∧ month ≤ 12) ∧
      (1 ≤ day ∧ day ≤ daysInMonth (isLeap year) month) ∧ toOrdinal year month day = n := by
  obtain ⟨hyear, hdays, hlt⟩ := yearDay_spec (n - 1)
  obtain ⟨hmonth, hday, hbefore⟩ := monthDay_spec (isLeap (yearDay (n - 1)).1) _ hlt
  refine ⟨(yearDay (n - 1)).1, (monthDay (isLeap (yearDay (n - 1)).1) (yearDay (n - 1)).2).1,
    (monthDay (isLeap (yearDay (n - 1)).1) (yearDay (n - 1)).2).2, rfl, hyear, hmonth, hday, ?_⟩
  rw [toOrdinal, add_assoc, hbefore, ← add_assoc, hdays]
  omega

/-- The days of the years of four digits. -/
theorem toOrdinal_lt {year month day : ℕ} (h : toOrdinal year month day ≤ 3652059)
    (hday : 1 ≤ day) : year < 10000 := by
  by_contra hlong
  unfold toOrdinal daysBeforeYear at h
  omega

theorem daysInMonth_le : ∀ leap : Bool, ∀ month ≤ 12, daysInMonth leap month ≤ 31 := by decide

end Calendar

section Text

/-- The last so many digits of a number. -/
def digits : ℕ → ℕ → List Char
  | 0, _ => []
  | width + 1, n => (n / 10 ^ width % 10).digitChar :: digits width n

def readField (width : ℕ) (text : List Char) : Option (ℕ × List Char) :=
  if text.length < width then none
  else (readDigits 0 (text.take width)).map fun n => (n, text.drop width)

def readMark (mark : Char) : List Char → Option (List Char)
  | c :: text => if c = mark then some text else none
  | [] => none

def micros (hour minute second microsecond : ℕ) : ℕ :=
  ((hour * 60 + minute) * 60 + second) * 1000000 + microsecond

def dayMicros : ℕ := 86400000000

/-- The number of the first of January of 1970. -/
def epoch : ℕ := 719163

/-- The years 1 to 9999. -/
def InRange (time : ℤ) : Prop :=
  1 ≤ time / dayMicros + epoch ∧ time / dayMicros + epoch ≤ 3652059

instance (time : ℤ) : Decidable (InRange time) := inferInstanceAs (Decidable (_ ∧ _))

/-- A date before the rest of a text. -/
def printDate (year month day : ℕ) (rest : List Char) : List Char :=
  digits 4 year ++ '-' :: (digits 2 month ++ '-' :: (digits 2 day ++ rest))

def printFraction (microsecond : ℕ) (rest : List Char) : List Char :=
  if microsecond = 0 then rest else '.' :: (digits 6 microsecond ++ rest)

def printClock (clock : ℕ) (rest : List Char) : List Char :=
  digits 2 (clock / 3600000000) ++ ':' :: (digits 2 (clock / 60000000 % 60) ++ ':' ::
    (digits 2 (clock / 1000000 % 60) ++ printFraction (clock % 1000000) rest))

/-- The text of a time in UTC. -/
def isoformat (time : ℤ) : List Char :=
  let (year, month, day) := ofOrdinal (time / dayMicros + epoch).toNat
  let clock := (time % dayMicros).toNat
  printDate year month day ('T' :: printClock clock ['+', '0', '0', ':', '0', '0'])

/-- Decimals of a second, six of which count. -/
def readFraction : List Char → Option (ℕ × List Char)
  | '.' :: text => do
    let fraction := text.takeWhile Char.isDigit
    if fraction = [] then none
    else do
      let n ← readDigits 0 ((fraction ++ List.replicate 6 '0').take 6)
      some (n, text.dropWhile Char.isDigit)
  | text => some (0, text)

/-- The seconds of an offset; a text without one has none. -/
def readOffset : List Char → Option (Option ℤ)
  | [] => some none
  | ['Z'] => some (some 0)
  | sign :: text => do
    let (hour, text) ← readField 2 text
    let text ← readMark ':' text
    let (minute, text) ← readField 2 text
    let seconds : ℤ := (hour * 60 + minute) * 60
    if text ≠ [] ∨ 24 ≤ hour ∨ 60 ≤ minute then none
    else if sign = '+' then some (some seconds)
    else if sign = '-' then some (some (-seconds))
    else none

/-- The number of a date. -/
def readDate (text : List Char) : Option (ℕ × List Char) := do
  let (year, text) ← readField 4 text
  let text ← readMark '-' text
  let (month, text) ← readField 2 text
  let text ← readMark '-' text
  let (day, text) ← readField 2 text
  if year = 0 ∨ month = 0 ∨ 12 < month ∨ day = 0 ∨ daysInMonth (isLeap year) month < day then none
  else some (toOrdinal year month day, text)

/-- The microseconds of a time of the day. -/
def readClock (text : List Char) : Option (ℕ × List Char) := do
  let (hour, text) ← readField 2 text
  let text ← readMark ':' text
  let (minute, text) ← readField 2 text
  let text ← readMark ':' text
  let (second, text) ← readField 2 text
  let (microsecond, text) ← readFraction text
  if 24 ≤ hour ∨ 60 ≤ minute ∨ 60 ≤ second then none
  else some (micros hour minute second microsecond, text)

/-- A time, read as UTC where it has no offset, and whether it has one. Any character may stand
between the date and the time of the day. -/
def fromisoformat (text : List Char) : Option (ℤ × Bool) := do
  let (ordinal, text) ← readDate text
  let (clock, text) ← readClock (text.drop 1)
  let offset ← readOffset text
  some ((ordinal - epoch : ℤ) * dayMicros + clock - offset.getD 0 * 1000000, offset.isSome)

end Text

section RoundTrip

theorem digitChar_digit : ∀ d < 10, d.digitChar.isDigit = true ∧ d.digitChar.toNat - 48 = d := by
  decide

theorem length_digits (width n : ℕ) : (digits width n).length = width := by
  induction width with
  | zero => rfl
  | succ width ih => rw [digits, List.length_cons, ih]

theorem digits_isDigit (width n : ℕ) : ∀ c ∈ digits width n, c.isDigit = true := by
  induction width with
  | zero => simp [digits]
  | succ width ih =>
    intro c hc
    rcases List.mem_cons.mp hc with rfl | hc
    · exact (digitChar_digit _ (Nat.mod_lt _ (by decide))).1
    · exact ih c hc

theorem readDigits_digits (width n value : ℕ) :
    readDigits value (digits width n) = some (value * 10 ^ width + n % 10 ^ width) := by
  induction width generalizing value with
  | zero => simp [digits, readDigits, Nat.mod_one]
  | succ width ih =>
    obtain ⟨hdigit, hvalue⟩ := digitChar_digit (n / 10 ^ width % 10) (Nat.mod_lt _ (by decide))
    rw [digits, readDigits, if_pos hdigit, hvalue, ih, Nat.mod_pow_succ]
    congr 1
    ring

theorem readField_digits {width n : ℕ} (h : n < 10 ^ width) (rest : List Char) :
    readField width (digits width n ++ rest) = some (n, rest) := by
  have hlength := length_digits width n
  rw [readField, if_neg (by rw [List.length_append]; omega), List.take_left' hlength,
    List.drop_left' hlength, readDigits_digits, Nat.mod_eq_of_lt h, zero_mul, zero_add]
  rfl

/-- A fraction ends where neither a digit nor a point follows. -/
theorem readFraction_print {n : ℕ} (h : n < 1000000) {c : Char} (hc : c.isDigit = false)
    (hpoint : c ≠ '.') (rest : List Char) :
    readFraction (printFraction n (c :: rest)) = some (n, c :: rest) := by
  unfold printFraction
  split
  · next hzero =>
    rw [hzero, readFraction]
    exact fun text heq => hpoint (List.cons.inj heq).1
  · have hdigits := digits_isDigit 6 n
    have htake : (digits 6 n ++ c :: rest).takeWhile Char.isDigit = digits 6 n := by
      rw [List.takeWhile_append_of_pos hdigits, List.takeWhile_cons_of_neg (by simp [hc]),
        List.append_nil]
    have hdrop : (digits 6 n ++ c :: rest).dropWhile Char.isDigit = c :: rest := by
      rw [List.dropWhile_append_of_pos hdigits, List.dropWhile_cons_of_neg (by simp [hc])]
    have hne : digits 6 n ≠ [] := List.cons_ne_nil _ _
    have hvalue : n % 10 ^ 6 = n := Nat.mod_eq_of_lt h
    rw [readFraction, htake, hdrop]
    simp only [hne, if_false, List.take_left' (length_digits 6 n), readDigits_digits, hvalue,
      zero_mul, zero_add, Option.bind_eq_bind, Option.bind_some]

theorem readDate_print {year month day : ℕ} (hyear : 1 ≤ year ∧ year < 10000)
    (hmonth : 1 ≤ month ∧ month ≤ 12)
    (hday : 1 ≤ day ∧ day ≤ daysInMonth (isLeap year) month) (rest : List Char) :
    readDate (printDate year month day rest) = some (toOrdinal year month day, rest) := by
  have hlength := daysInMonth_le (isLeap year) month hmonth.2
  have hvalid : ¬ (year = 0 ∨ month = 0 ∨ 12 < month ∨ day = 0 ∨
      daysInMonth (isLeap year) month < day) := by omega
  rw [readDate, printDate, readField_digits (by omega)]
  simp only [Option.bind_eq_bind, Option.bind_some, readMark, if_true]
  rw [readField_digits (by omega)]
  simp only [Option.bind_some, if_true]
  rw [readField_digits (by omega)]
  simp only [Option.bind_some, hvalid, if_false]

theorem micros_clock (clock : ℕ) : micros (clock / 3600000000) (clock / 60000000 % 60)
    (clock / 1000000 % 60) (clock % 1000000) = clock := by
  unfold micros
  omega

theorem readClock_print {clock : ℕ} (h : clock < 86400000000) {c : Char} (hc : c.isDigit = false)
    (hpoint : c ≠ '.') (rest : List Char) :
    readClock (printClock clock (c :: rest)) = some (clock, c :: rest) := by
  have hhour : clock / 3600000000 < 24 := by omega
  have hminute : clock / 60000000 % 60 < 60 := Nat.mod_lt _ (by decide)
  have hsecond : clock / 1000000 % 60 < 60 := Nat.mod_lt _ (by decide)
  have hvalid : ¬ (24 ≤ clock / 3600000000 ∨ 60 ≤ clock / 60000000 % 60 ∨
      60 ≤ clock / 1000000 % 60) := by omega
  rw [readClock, printClock, readField_digits (by omega)]
  simp only [Option.bind_eq_bind, Option.bind_some, readMark, if_true]
  rw [readField_digits (by omega)]
  simp only [Option.bind_some, if_true]
  rw [readField_digits (by omega)]
  simp only [Option.bind_some]
  rw [readFraction_print (Nat.mod_lt _ (by decide)) hc hpoint]
  simp only [Option.bind_some, hvalid, if_false, micros_clock]

/-- The text of a time in the years 1 to 9999 reads as the time. -/
theorem fromisoformat_isoformat {time : ℤ} (h : InRange time) :
    fromisoformat (isoformat time) = some (time, true) := by
  obtain ⟨hfirst, hlast⟩ := h
  have hstart : 0 ≤ time / dayMicros + epoch := by omega
  obtain ⟨year, month, day, hdate, hyear, hmonth, hdays, hordinal⟩ :=
    ofOrdinal_spec (by omega : 1 ≤ (time / dayMicros + epoch).toNat)
  have hlong := toOrdinal_lt (hordinal.trans_le (by omega)) hdays.1
  have hpos : (0 : ℤ) < dayMicros := by decide
  have hclock : (time % dayMicros).toNat < 86400000000 := by
    have hlt := Int.emod_lt_of_pos time hpos
    unfold dayMicros at hlt ⊢
    omega
  have hcast : (((time % dayMicros).toNat : ℕ) : ℤ) = time % dayMicros :=
    Int.toNat_of_nonneg (Int.emod_nonneg time hpos.ne')
  have hoffset : readOffset ['+', '0', '0', ':', '0', '0'] = some (some 0) := rfl
  rw [isoformat, hdate, fromisoformat]
  dsimp only
  rw [readDate_print ⟨hyear, hlong⟩ hmonth hdays, hordinal]
  simp only [Option.bind_eq_bind, Option.bind_some, List.drop_succ_cons, List.drop_zero]
  rw [readClock_print hclock (by decide) (by decide)]
  simp only [Option.bind_some, hoffset, hcast, Option.getD_some, zero_mul, sub_zero,
    Option.isSome_some, Int.toNat_of_nonneg hstart, add_sub_cancel_right, Int.ediv_mul_add_emod]

example : isoformat 1700000000000001 = "2023-11-14T22:13:20.000001+00:00".toList := by
  decide +kernel

end RoundTrip

end IsoTime
