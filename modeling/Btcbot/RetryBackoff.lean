import Btcbot.Grid
import Btcbot.PyData
import Mathlib.Algebra.Order.BigOperators.Group.List
import Mathlib.Algebra.Order.Field.Rat
import Mathlib.Algebra.Order.Floor.Ring

/-!
# Retry with backoff

After a failure that may be retried the loop sleeps for what the exchange asked for,
or for a delay that doubles with each attempt and is capped before it is jittered. A
sleep that the total budget does not cover ends the call with the failure instead.
What a call sleeps is read off its inputs attempt by attempt.
-/
namespace RetryBackoff

open Grid PyData

/-- What `random` may draw. -/
abbrev Draw := { x : ℚ // 0 ≤ x ∧ x < 1 }

structure RetryAttempt (ε : Type) where
  attempt : ℕ
  delayMs : ℤ
  error : ε
  usedRetryAfter : Bool
  deriving DecidableEq, Repr

/-- The library's readings of a header text, none where they raise. -/
structure HeaderReaders where
  float : String → Option ℚ
  parsedateToDatetime : String → Option DateTime

/-- With the time of day in microseconds. -/
def parseRetryAfterSeconds (readers : HeaderReaders) (now : ℤ) (value : Option String) : Option ℚ :=
  match value with
  | none => none
  | some value =>
    let candidate := strip value
    if candidate = "" then none
    else
      match readers.float candidate with
      | some parsed => if 0 ≤ parsed then some parsed else none
      | none => (readers.parsedateToDatetime candidate).map fun parsedDt =>
        max 0 ((((ensureUtc parsedDt).micros - now : ℤ) : ℚ) / 10 ^ 6)

theorem parseRetryAfterSeconds_nonneg {readers : HeaderReaders} {now : ℤ} {value : Option String}
    {seconds : ℚ} (h : parseRetryAfterSeconds readers now value = some seconds) : 0 ≤ seconds := by
  unfold parseRetryAfterSeconds at h
  split at h
  · cases h
  · dsimp only at h
    split at h
    · cases h
    · split at h
      · split at h
        · next hparsed => exact Option.some.inj h ▸ hparsed
        · cases h
      · obtain ⟨parsedDt, -, rfl⟩ := Option.map_eq_some_iff.mp h
        exact le_max_left _ _

/-- The delay, and whether it is the one the exchange asked for. -/
def computeDelayMs (attempt : ℕ) (baseDelayMs maxDelayMs : ℤ) (draw : ℚ)
    (retryAfterS : Option ℚ) : ℤ × Bool :=
  match retryAfterS with
  | some seconds => (min maxDelayMs (trunc (seconds * 1000)), true)
  | none =>
    let rawDelayMs := min maxDelayMs (baseDelayMs * 2 ^ (attempt - 1))
    (trunc ((rawDelayMs : ℚ) * (1 / 2 + draw)), false)

example : computeDelayMs 3 100 1000 (1 / 4) none = (300, false) := by decide +kernel

/-- The arguments of a call, and what it meets: how each call of the function ends, the draws
and the time of day at each attempt. -/
structure Call (ε α : Type) where
  fn : ℕ → Except ε α
  maxAttempts : ℤ
  baseDelayMs : ℤ
  maxDelayMs : ℤ
  retryOnExceptions : ε → Bool
  retryAfterGetter : Option (ε → Option String)
  maxTotalSleepSeconds : Option ℚ
  draws : ℕ → Draw
  readers : HeaderReaders
  now : ℕ → ℤ

inductive RetryResult (ε α : Type) where
  | returned (value : α)
  | raised (exc : ε)
  | valueError (message : String)
  | runtimeError (message : String)
  deriving DecidableEq, Repr

/-- The variables of the loop, and what it slept and reported. -/
structure Progress (ε : Type) where
  drawn : ℕ := 0
  totalSleepS : ℚ := 0
  sleeps : List ℚ := []
  retries : List (RetryAttempt ε) := []

section Code

variable {ε α : Type} (call : Call ε α)

/-- What the failure of an attempt asks the caller to wait. -/
def retryAfterSeconds (attempt : ℕ) (exc : ε) : Option ℚ :=
  match call.retryAfterGetter with
  | none => none
  | some getter => parseRetryAfterSeconds call.readers (call.now attempt) (getter exc)

/-- The attempts from one on, with the number of those left. -/
def retryLoop : ℕ → ℕ → Progress ε → RetryResult ε α × Progress ε
  | 0, _, s => (.runtimeError "retry loop exhausted unexpectedly", s)
  | left + 1, attempt, s =>
    match call.fn attempt with
    | .ok value => (.returned value, s)
    | .error exc =>
      if call.retryOnExceptions exc = false ∨ call.maxAttempts ≤ attempt then (.raised exc, s)
      else
        let (delayMs, usedRetryAfter) := computeDelayMs attempt call.baseDelayMs call.maxDelayMs
          (call.draws s.drawn) (retryAfterSeconds call attempt exc)
        let s := { s with drawn := if usedRetryAfter then s.drawn else s.drawn + 1 }
        let delayS : ℚ := delayMs / 1000
        if ∃ budget ∈ call.maxTotalSleepSeconds, budget < s.totalSleepS + delayS then
          (.raised exc, s)
        else retryLoop left (attempt + 1)
          { s with
            totalSleepS := s.totalSleepS + delayS
            sleeps := s.sleeps ++ [delayS]
            retries := s.retries ++ [⟨attempt, delayMs, exc, usedRetryAfter⟩] }

def retryWithBackoff : RetryResult ε α × Progress ε :=
  if call.maxAttempts < 1 then (.valueError "max_attempts must be >= 1", {})
  else if call.baseDelayMs < 0 ∨ call.maxDelayMs < 0 then
    (.valueError "delay values must be >= 0", {})
  else retryLoop call call.maxAttempts.toNat 1 {}

end Code

section Schedule

variable {ε α : Type} (call : Call ε α)

/-- The failure of an attempt, if it may be retried. -/
def failure (attempt : ℕ) : Option ε :=
  match call.fn attempt with
  | .ok _ => none
  | .error exc => if call.retryOnExceptions exc then some exc else none

def retryAfterAt (attempt : ℕ) : Option ℚ := (failure call attempt).bind (retryAfterSeconds call attempt)

/-- How many of the attempts up to one draw. -/
def drawsUpTo : ℕ → ℕ
  | 0 => 0
  | n + 1 => drawsUpTo n + if retryAfterAt call (n + 1) = none then 1 else 0

def drawAt (attempt : ℕ) : ℚ := call.draws (drawsUpTo call (attempt - 1))

/-- The capped delay of an attempt, before the jitter. -/
def cappedMs (attempt : ℕ) : ℚ :=
  min call.maxDelayMs (call.baseDelayMs * 2 ^ (attempt - 1))

/-- The delay that the inputs give an attempt. -/
def plannedMs (attempt : ℕ) : ℤ :=
  match retryAfterAt call attempt with
  | some seconds => min call.maxDelayMs ⌊seconds * 1000⌋
  | none => ⌊cappedMs call attempt * (1 / 2 + drawAt call attempt)⌋

/-- The delays of the first attempts, in seconds. -/
def plannedS (n : ℕ) : List ℚ := (List.range n).map fun i => (plannedMs call (i + 1) : ℚ) / 1000

/-- An attempt that is to be followed by another, after failures that may all be retried and with
delays the budget covers. -/
structure Slept (attempt : ℕ) : Prop where
  base_nonneg : 0 ≤ call.baseDelayMs
  max_nonneg : 0 ≤ call.maxDelayMs
  pos : 0 < attempt
  before_last : (attempt : ℤ) < call.maxAttempts
  failed : ∀ i, 0 < i → i ≤ attempt → failure call i ≠ none
  covered : ∀ budget ∈ call.maxTotalSleepSeconds, (plannedS call attempt).sum ≤ budget

variable {call}

theorem plannedS_succ (n : ℕ) :
    plannedS call (n + 1) = plannedS call n ++ [(plannedMs call (n + 1) : ℚ) / 1000] := by
  simp [plannedS, List.range_succ]

theorem retryAfterAt_nonneg {attempt : ℕ} {seconds : ℚ}
    (h : retryAfterAt call attempt = some seconds) : 0 ≤ seconds := by
  obtain ⟨exc, -, hseconds⟩ := Option.bind_eq_some_iff.mp h
  unfold retryAfterSeconds at hseconds
  split at hseconds
  · cases hseconds
  · exact parseRetryAfterSeconds_nonneg hseconds

theorem jittered_nonneg (hbase : 0 ≤ call.baseDelayMs) (hmax : 0 ≤ call.maxDelayMs)
    (attempt : ℕ) : 0 ≤ cappedMs call attempt * (1 / 2 + drawAt call attempt) := by
  have hdraw : 0 ≤ drawAt call attempt := (call.draws _).2.1
  have hcapped : 0 ≤ cappedMs call attempt := by
    have hbase' : (0 : ℚ) ≤ call.baseDelayMs := by exact_mod_cast hbase
    exact le_min (by exact_mod_cast hmax) (mul_nonneg hbase' (by positivity))
  exact mul_nonneg hcapped (by linarith)

theorem plannedMs_nonneg (hbase : 0 ≤ call.baseDelayMs) (hmax : 0 ≤ call.maxDelayMs)
    (attempt : ℕ) : 0 ≤ plannedMs call attempt := by
  unfold plannedMs
  split
  · next seconds hseconds =>
    exact le_min hmax (Int.floor_nonneg.mpr
      (mul_nonneg (retryAfterAt_nonneg hseconds) (by norm_num)))
  · exact Int.floor_nonneg.mpr (jittered_nonneg hbase hmax attempt)

/-- A planned delay exceeds the maximum only by its jitter. -/
theorem plannedMs_le_iff (attempt : ℕ) :
    plannedMs call attempt ≤ call.maxDelayMs ↔
      (retryAfterAt call attempt = none →
        cappedMs call attempt * (1 / 2 + drawAt call attempt) < call.maxDelayMs + 1) := by
  unfold plannedMs
  cases hafter : retryAfterAt call attempt with
  | some seconds => simp
  | none =>
    have hfloor := Int.floor_lt (a := cappedMs call attempt * (1 / 2 + drawAt call attempt))
      (z := call.maxDelayMs + 1)
    push_cast at hfloor
    rw [← Int.lt_add_one_iff, hfloor]
    simp

/-- The loop computes the planned delay. -/
theorem computeDelayMs_eq (hbase : 0 ≤ call.baseDelayMs) (hmax : 0 ≤ call.maxDelayMs)
    {attempt : ℕ} {exc : ε} (hfail : failure call attempt = some exc) :
    computeDelayMs attempt call.baseDelayMs call.maxDelayMs (call.draws (drawsUpTo call (attempt - 1)))
        (retryAfterSeconds call attempt exc) =
      (plannedMs call attempt, (retryAfterAt call attempt).isSome) := by
  have hafter : retryAfterAt call attempt = retryAfterSeconds call attempt exc := by
    rw [retryAfterAt, hfail, Option.bind_some]
  unfold computeDelayMs plannedMs
  rw [← hafter]
  cases hseconds : retryAfterAt call attempt with
  | some seconds =>
    have hpos : 0 ≤ seconds * 1000 := mul_nonneg (retryAfterAt_nonneg hseconds) (by norm_num)
    simp only [trunc, if_pos hpos, Option.isSome_some]
  | none =>
    have hcapped : ((min call.maxDelayMs (call.baseDelayMs * 2 ^ (attempt - 1)) : ℤ) : ℚ) =
        cappedMs call attempt := by
      rw [cappedMs]
      push_cast
      rfl
    have hpos := jittered_nonneg hbase hmax attempt
    simp only [hcapped, trunc, Option.isSome_none]
    exact congrArg (·, false) (if_pos hpos)

theorem plannedS_sum_mono (hbase : 0 ≤ call.baseDelayMs) (hmax : 0 ≤ call.maxDelayMs) {m n : ℕ}
    (hle : m ≤ n) : (plannedS call m).sum ≤ (plannedS call n).sum := by
  induction n, hle using Nat.le_induction with
  | base => exact le_rfl
  | succ n _ ih =>
    have hdelay : (0 : ℚ) ≤ plannedMs call (n + 1) := by
      exact_mod_cast plannedMs_nonneg hbase hmax (n + 1)
    rw [plannedS_succ, List.sum_append, List.sum_singleton]
    linarith [div_nonneg hdelay (by norm_num : (0 : ℚ) ≤ 1000)]

theorem Slept.of_le {m n : ℕ} (h : Slept call n) (hpos : 0 < m) (hle : m ≤ n) : Slept call m where
  base_nonneg := h.base_nonneg
  max_nonneg := h.max_nonneg
  pos := hpos
  before_last := lt_of_le_of_lt (by exact_mod_cast hle) h.before_last
  failed i hi him := h.failed i hi (him.trans hle)
  covered budget hbudget :=
    (plannedS_sum_mono h.base_nonneg h.max_nonneg hle).trans (h.covered budget hbudget)

/-- The loop stands after so many sleeps, all of them planned. -/
structure Stands (call : Call ε α) (n : ℕ) (s : Progress ε) : Prop where
  drawn : s.drawn = drawsUpTo call n
  total : s.totalSleepS = (plannedS call n).sum
  sleeps : s.sleeps = plannedS call n
  slept : ∀ i, 0 < i → i ≤ n → Slept call i

/-- A loop that does not sleep again has slept after just the attempts that do. -/
theorem Stands.stops {n : ℕ} {s : Progress ε} (h : Stands call n s) (hstop : ¬ Slept call (n + 1)) :
    ∃ m, s.sleeps = plannedS call m ∧ ∀ i, Slept call i ↔ 0 < i ∧ i ≤ m := by
  refine ⟨n, h.sleeps, fun i => ⟨fun hi => ⟨hi.pos, ?_⟩, fun hi => h.slept i hi.1 hi.2⟩⟩
  by_contra hlater
  exact hstop (hi.of_le (Nat.succ_pos n) (not_le.mp hlater))

/-- After an attempt that failed and a delay that the budget covers, the loop stands one further. -/
theorem Stands.sleep {n : ℕ} {s : Progress ε} {exc : ε} (h : Stands call n s)
    (hbase : 0 ≤ call.baseDelayMs) (hmax : 0 ≤ call.maxDelayMs)
    (hbefore : ((n + 1 : ℕ) : ℤ) < call.maxAttempts) (hfail : failure call (n + 1) = some exc)
    (hcovered : ∀ budget ∈ call.maxTotalSleepSeconds, (plannedS call (n + 1)).sum ≤ budget)
    (retries : List (RetryAttempt ε)) :
    Stands call (n + 1)
      { drawn := if (retryAfterAt call (n + 1)).isSome then drawsUpTo call n
          else drawsUpTo call n + 1
        totalSleepS := (plannedS call (n + 1)).sum
        sleeps := s.sleeps ++ [(plannedMs call (n + 1) : ℚ) / 1000]
        retries := retries } where
  drawn := by
    rw [drawsUpTo]
    cases retryAfterAt call (n + 1) <;> rfl
  total := rfl
  sleeps := by rw [h.sleeps, plannedS_succ]
  slept i hi hle := by
    rcases Nat.le_succ_iff.mp hle with hold | rfl
    · exact h.slept i hi hold
    · refine ⟨hbase, hmax, hi, hbefore, fun j hj hle => ?_, hcovered⟩
      rcases Nat.le_succ_iff.mp hle with hold | rfl
      · exact (h.slept j hj hold).failed j hj le_rfl
      · rw [hfail]
        exact Option.some_ne_none exc

theorem retryLoop_sleeps (hbase : 0 ≤ call.baseDelayMs) (hmax : 0 ≤ call.maxDelayMs) {left n : ℕ}
    {s : Progress ε} (hleft : (n + left : ℤ) = call.maxAttempts) (h : Stands call n s) :
    ∃ m, (retryLoop call left (n + 1) s).2.sleeps = plannedS call m ∧
      ∀ i, Slept call i ↔ 0 < i ∧ i ≤ m := by
  induction left generalizing n s with
  | zero =>
    refine h.stops fun hslept => ?_
    have hlast := hslept.before_last
    push_cast at hlast hleft
    omega
  | succ left ih =>
    unfold retryLoop
    cases hfn : call.fn (n + 1) with
    | ok value =>
      refine h.stops fun hslept => hslept.failed (n + 1) (Nat.succ_pos n) le_rfl ?_
      rw [failure, hfn]
    | error exc =>
      dsimp only
      by_cases hgiven : call.retryOnExceptions exc = false ∨ call.maxAttempts ≤ (n + 1 : ℕ)
      · rw [if_pos hgiven]
        refine h.stops fun hslept => ?_
        rcases hgiven with hfinal | hlast
        · refine hslept.failed (n + 1) (Nat.succ_pos n) le_rfl ?_
          rw [failure, hfn]
          simp [hfinal]
        · exact absurd hslept.before_last (not_lt.mpr hlast)
      rw [if_neg hgiven]
      obtain ⟨hretry, hbefore⟩ := not_or.mp hgiven
      have hfail : failure call (n + 1) = some exc := by
        rw [failure, hfn]
        simpa using hretry
      have hdelay := computeDelayMs_eq hbase hmax hfail
      rw [Nat.add_sub_cancel] at hdelay
      rw [h.drawn, hdelay]
      dsimp only
      have htotal : s.totalSleepS + (plannedMs call (n + 1) : ℚ) / 1000 =
          (plannedS call (n + 1)).sum := by
        rw [plannedS_succ, List.sum_append, List.sum_singleton, h.total]
      rw [htotal]
      split
      · next hover =>
        obtain ⟨budget, hbudget, hlt⟩ := hover
        exact h.stops fun hslept => absurd (hslept.covered budget hbudget) (not_le.mpr hlt)
      · next hover =>
        have hcovered : ∀ budget ∈ call.maxTotalSleepSeconds,
            (plannedS call (n + 1)).sum ≤ budget :=
          fun budget hbudget => not_lt.mp fun hlt => hover ⟨budget, hbudget, hlt⟩
        refine ih (by push_cast at hleft ⊢; omega) ?_
        exact h.sleep hbase hmax (not_le.mp hbefore) hfail hcovered _

/-- A call sleeps the planned delays of just the attempts that are slept after. -/
theorem retryWithBackoff_sleeps (call : Call ε α) :
    ∃ m, (retryWithBackoff call).2.sleeps = plannedS call m ∧
      ∀ i, Slept call i ↔ 0 < i ∧ i ≤ m := by
  unfold retryWithBackoff
  have hnone (h : ∀ i, ¬ Slept call i) : ∃ m, [] = plannedS call m ∧
      ∀ i, Slept call i ↔ 0 < i ∧ i ≤ m :=
    ⟨0, rfl, fun i => ⟨fun hi => absurd hi (h i), fun hi => by omega⟩⟩
  split
  · next hattempts =>
    refine hnone fun i hi => ?_
    have hpos : (0 : ℤ) < i := by exact_mod_cast hi.pos
    have hlast := hi.before_last
    omega
  · next hattempts =>
    split
    · next hnegative =>
      refine hnone fun i hi => ?_
      rcases hnegative with hlt | hlt
      · exact absurd hi.base_nonneg (not_le.mpr hlt)
      · exact absurd hi.max_nonneg (not_le.mpr hlt)
    · next hvalid =>
      obtain ⟨hbase, hmax⟩ := not_or.mp hvalid
      refine retryLoop_sleeps (not_lt.mp hbase) (not_lt.mp hmax) (n := 0) ?_
        ⟨rfl, rfl, rfl, fun i hi hle => by omega⟩
      omega

end Schedule

section Limits

variable {ε α : Type} (call : Call ε α)

/-- No sleep is longer than the maximum, and all of them together fit in the total budget. -/
def WithinLimits (sleeps : List ℚ) : Prop :=
  (∀ delayS ∈ sleeps, delayS ≤ call.maxDelayMs / 1000) ∧
    ∀ budget ∈ call.maxTotalSleepSeconds, sleeps.sum ≤ budget

/-- The budget is not negative, and no delay that is slept is jittered beyond the maximum. -/
def JitterFits : Prop :=
  (∀ budget ∈ call.maxTotalSleepSeconds, 0 ≤ budget) ∧
    ∀ attempt, Slept call attempt → retryAfterAt call attempt = none →
      cappedMs call attempt * (1 / 2 + drawAt call attempt) < call.maxDelayMs + 1

theorem delays_le_iff {m : ℕ} :
    (∀ delayS ∈ plannedS call m, delayS ≤ call.maxDelayMs / 1000) ↔
      ∀ i, 0 < i → i ≤ m → plannedMs call i ≤ call.maxDelayMs := by
  have hscale (n : ℤ) : (n : ℚ) / 1000 ≤ call.maxDelayMs / 1000 ↔ n ≤ call.maxDelayMs := by
    rw [div_le_div_iff_of_pos_right (by norm_num), Int.cast_le]
  constructor
  · intro h i hi hle
    rw [← hscale]
    refine h _ (List.mem_map.mpr ⟨i - 1, List.mem_range.mpr (by omega), ?_⟩)
    rw [Nat.sub_add_cancel hi]
  · intro h delayS hin
    obtain ⟨i, hi, rfl⟩ := List.mem_map.mp hin
    rw [hscale]
    exact h (i + 1) (Nat.succ_pos i) (List.mem_range.mp hi)

/-- The sleeps keep to both limits exactly if the budget is not negative and no jitter takes a
delay that is slept past the maximum. -/
theorem withinLimits_iff :
    WithinLimits call (retryWithBackoff call).2.sleeps ↔ JitterFits call := by
  obtain ⟨m, hsleeps, hslept⟩ := retryWithBackoff_sleeps call
  rw [hsleeps, WithinLimits, JitterFits, delays_le_iff]
  have hdelays : (∀ i, 0 < i → i ≤ m → plannedMs call i ≤ call.maxDelayMs) ↔
      ∀ attempt, Slept call attempt → retryAfterAt call attempt = none →
        cappedMs call attempt * (1 / 2 + drawAt call attempt) < call.maxDelayMs + 1 := by
    refine forall_congr' fun i => ?_
    rw [← plannedMs_le_iff, hslept, and_imp]
  have hbudget : (∀ budget ∈ call.maxTotalSleepSeconds, (plannedS call m).sum ≤ budget) ↔
      ∀ budget ∈ call.maxTotalSleepSeconds, 0 ≤ budget := by
    refine forall₂_congr fun budget hset => ?_
    rcases Nat.eq_zero_or_pos m with rfl | hpos
    · rfl
    · have hlast := (hslept m).mpr ⟨hpos, le_rfl⟩
      have hsum := plannedS_sum_mono hlast.base_nonneg hlast.max_nonneg (Nat.zero_le m)
      exact iff_of_true (hlast.covered budget hset) (hsum.trans (hlast.covered budget hset))
  rw [hdelays, hbudget, and_comm]

/-- A call that fails once, with a base delay that is the maximum already. -/
def cappedBase : Call Unit Unit where
  fn attempt := if attempt = 1 then .error () else .ok ()
  maxAttempts := 3
  baseDelayMs := 100
  maxDelayMs := 100
  retryOnExceptions _ := true
  retryAfterGetter := none
  maxTotalSleepSeconds := none
  draws _ := ⟨9 / 10, by norm_num⟩
  readers := ⟨fun _ => none, fun _ => none⟩
  now _ := 0

/-- It sleeps 140 ms, where the maximum is 100. -/
theorem cappedBase_over_maximum :
    (retryWithBackoff cappedBase).2.sleeps = [7 / 50] ∧
      ¬ WithinLimits cappedBase (retryWithBackoff cappedBase).2.sleeps := by
  have hsleeps : (retryWithBackoff cappedBase).2.sleeps = [7 / 50] := by decide +kernel
  refine ⟨hsleeps, fun h => ?_⟩
  have hdelay := h.1 (7 / 50) (by simp [hsleeps])
  norm_num [cappedBase] at hdelay

end Limits

end RetryBackoff
