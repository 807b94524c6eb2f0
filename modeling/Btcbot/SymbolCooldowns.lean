import Btcbot.KeyedTable
import Btcbot.PyData
import Btcbot.Runs
import Mathlib.Data.List.DropRight

/-!
# Cooldowns after rejects

A symbol's row counts its rejects since a window was opened; the first reject that is
later than the window's width opens the next one. Enough rejects of one window put the
symbol into a cooldown. Times are seconds.
-/
namespace SymbolCooldowns

open KeyedTable PyData

section Window

variable {K : Type} [Sub K] [LinearOrder K] (width : K)

/-- A time that is later than the window's width opens the next window. -/
def countTime (window : List K) (t : K) : List K :=
  if window.head?.any fun start => width < t - start then [t] else window ++ [t]

/-- The times that are counted in the window that is open. -/
def openWindow (times : List K) : List K := times.foldl (countTime width) []

theorem openWindow_concat (times : List K) (t : K) :
    openWindow width (times ++ [t]) = countTime width (openWindow width times) t := by
  rw [openWindow, openWindow, List.foldl_append, List.foldl_cons, List.foldl_nil]

theorem openWindow_eq_nil {times : List K} (h : openWindow width times = []) : times = [] := by
  induction times using List.reverseRecOn with
  | nil => rfl
  | append_singleton times t ih =>
    rw [openWindow_concat, countTime] at h
    split at h
    · cases h
    · exact absurd h (List.append_ne_nil_of_right_ne_nil _ (List.cons_ne_nil _ _))

/-- The window that is open holds the last of the times. -/
theorem openWindow_suffix (times : List K) : openWindow width times <:+ times := by
  induction times using List.reverseRecOn with
  | nil => exact List.suffix_rfl
  | append_singleton times t ih =>
    rw [openWindow_concat, countTime]
    split
    · exact List.suffix_append times [t]
    · obtain ⟨front, hfront⟩ := ih
      exact ⟨front, by rw [← List.append_assoc, hfront]⟩

/-- The last times are in the window that is open exactly if it is long enough. -/
theorem rtake_suffix_openWindow {times : List K} {n : ℕ} (h : n ≤ times.length) :
    times.rtake n <:+ openWindow width times ↔ n ≤ (openWindow width times).length := by
  have hlength : (times.rtake n).length = n := by
    rw [List.rtake, List.length_drop]
    omega
  have hsuffix : times.rtake n <:+ times := List.drop_suffix _ _
  constructor
  · intro hin
    rw [← hlength]
    exact hin.length_le
  · intro hlong
    refine List.suffix_of_suffix_length_le hsuffix (openWindow_suffix width times) ?_
    rwa [hlength]

end Window

section Store

structure CooldownRow where
  reason : String
  cooldownUntilTs : ℤ
  rollingCount : ℤ
  windowStartTs : ℤ
  updatedAtTs : ℤ
  deriving DecidableEq, Repr

/-- The table `symbol_cooldowns` with the symbol as key. -/
abbrev Table := List (String × CooldownRow)

structure Settings where
  windowMinutes : ℤ := 60
  threshold : ℤ := 3
  cooldownMinutes : ℤ := 240

structure RejectState where
  cooldownActive : Bool
  cooldownUntilTs : ℤ
  rollingCount : ℤ
  windowStartTs : ℤ
  deriving DecidableEq, Repr

variable (settings : Settings)

def windowSeconds : ℤ := max 1 (settings.windowMinutes * 60)

def cooldownSeconds : ℤ := max 0 (settings.cooldownMinutes * 60)

def thresholdValue : ℤ := max 1 settings.threshold

def getSymbolCooldown (table : Table) (symbol : String) (nowTs : ℤ) : Option CooldownRow :=
  (get? table (normalizeSymbol symbol)).filter fun row => nowTs < row.cooldownUntilTs

/-- The row after a reject, of which there may be none before. -/
def rejectRow (row : Option CooldownRow) (nowTs : ℤ) : CooldownRow :=
  let rollingCount := (row.map CooldownRow.rollingCount).getD 0
  let windowStartTs := (row.map CooldownRow.windowStartTs).getD nowTs
  let cooldownUntilTs := (row.map CooldownRow.cooldownUntilTs).getD 0
  let restarts := windowSeconds settings < nowTs - windowStartTs
  let rollingCount := (if restarts then 0 else rollingCount) + 1
  { reason := "1123_min_total"
    cooldownUntilTs :=
      if thresholdValue settings ≤ rollingCount ∧ 0 < cooldownSeconds settings
      then max cooldownUntilTs (nowTs + cooldownSeconds settings) else cooldownUntilTs
    rollingCount
    windowStartTs := if restarts then nowTs else windowStartTs
    updatedAtTs := nowTs }

def recordSymbolReject (symbol : String) (rejectCode nowTs : ℤ) (table : Table) :
    RejectState × Table :=
  if rejectCode ≠ 1123 then
    match getSymbolCooldown table (normalizeSymbol symbol) nowTs with
    | some state =>
      (⟨nowTs < state.cooldownUntilTs, state.cooldownUntilTs, state.rollingCount,
        state.windowStartTs⟩, table)
    | none => (⟨false, 0, 0, nowTs⟩, table)
  else
    let row := rejectRow settings (get? table (normalizeSymbol symbol)) nowTs
    (⟨nowTs < row.cooldownUntilTs, row.cooldownUntilTs, row.rollingCount, row.windowStartTs⟩,
      setItem table (normalizeSymbol symbol) row)

end Store

section Runs

structure Call where
  rejectCode : ℤ
  nowTs : ℤ
  deriving DecidableEq, Repr

variable (settings : Settings) (symbol : String)

def step (table : Table) (call : Call) : Table :=
  (recordSymbolReject settings symbol call.rejectCode call.nowTs table).2

abbrev runCalls (table : Table) (calls : List Call) : Table :=
  Runs.run (step settings symbol) table calls

def rowOf (table : Table) : Option CooldownRow := get? table (normalizeSymbol symbol)

/-- The times of the rejects with the code that counts. -/
def rejectTimes (calls : List Call) : List ℤ :=
  (calls.filter fun call => call.rejectCode = 1123).map Call.nowTs

def InCooldown (table : Table) (nowTs : ℤ) : Prop :=
  ∃ row, rowOf symbol table = some row ∧ nowTs < row.cooldownUntilTs

/-- There are as many rejects as the threshold asks for, the last of them within the window that
ends now. -/
def Burst (times : List ℤ) (nowTs : ℤ) : Prop :=
  settings.threshold ≤ times.length ∧
    ∀ t ∈ times.rtake settings.threshold.toNat, nowTs - t ≤ settings.windowMinutes * 60

instance (times : List ℤ) (nowTs : ℤ) : Decidable (Burst settings times nowTs) :=
  inferInstanceAs (Decidable (_ ∧ _))

/-- After the calls before it, a reject that ends a burst leads to a cooldown, and no call moves
the end of a cooldown back. -/
structure SlidingWindow (table : Table) (calls : List Call) : Prop where
  cooldown : ∀ before call after, calls = before ++ call :: after → call.rejectCode = 1123 →
    Burst settings (rejectTimes (before ++ [call])) call.nowTs →
    InCooldown symbol (runCalls settings symbol table (before ++ [call])) call.nowTs
  never_earlier : ∀ before call after, calls = before ++ call :: after →
    ∀ row, rowOf symbol (runCalls settings symbol table before) = some row →
    ∃ row', rowOf symbol (runCalls settings symbol table (before ++ [call])) = some row' ∧
      row.cooldownUntilTs ≤ row'.cooldownUntilTs

/-- The rejects of a burst are all of the window that is open, or a cooldown still runs. -/
def BurstsUnbroken (table : Table) (calls : List Call) : Prop :=
  ∀ before call after, calls = before ++ call :: after → call.rejectCode = 1123 →
    Burst settings (rejectTimes (before ++ [call])) call.nowTs →
    (rejectTimes (before ++ [call])).rtake settings.threshold.toNat <:+
        openWindow (settings.windowMinutes * 60) (rejectTimes (before ++ [call])) ∨
      InCooldown symbol (runCalls settings symbol table before) call.nowTs

variable {settings symbol} {table : Table} {call : Call} {calls : List Call}

theorem step_reject (h : call.rejectCode = 1123) :
    rowOf symbol (step settings symbol table call) =
      some (rejectRow settings (rowOf symbol table) call.nowTs) := by
  rw [step, recordSymbolReject, if_neg (not_not.mpr h), rowOf, get?_setItem, if_pos rfl, rowOf]

theorem step_other (h : call.rejectCode ≠ 1123) : step settings symbol table call = table := by
  rw [step, recordSymbolReject, if_pos h]
  split <;> rfl

theorem rejectTimes_concat (calls : List Call) (call : Call) :
    rejectTimes (calls ++ [call]) =
      rejectTimes calls ++ if call.rejectCode = 1123 then [call.nowTs] else [] := by
  rw [rejectTimes, rejectTimes, List.filter_append, List.map_append]
  by_cases h : call.rejectCode = 1123 <;> simp [h]

/-- A row counts the rejects of the window that is open. -/
structure Counts (row : Option CooldownRow) (window : List ℤ) : Prop where
  count : (row.map CooldownRow.rollingCount).getD 0 = window.length
  start : row.map CooldownRow.windowStartTs = window.head?

theorem counts_rejectRow {row : Option CooldownRow} {window : List ℤ} (h : Counts row window)
    (nowTs : ℤ) :
    Counts (some (rejectRow settings row nowTs))
      (countTime (windowSeconds settings) window nowTs) := by
  obtain ⟨hcount, hstart⟩ := h
  cases row with
  | none =>
    obtain rfl := List.head?_eq_none_iff.mp hstart.symm
    constructor <;> simp [rejectRow, countTime]
  | some row =>
    rw [Option.map_some] at hcount hstart
    rw [Option.getD_some] at hcount
    unfold countTime
    rw [← hstart, Option.any_some]
    by_cases hrestart : windowSeconds settings < nowTs - row.windowStartTs
    · constructor <;> simp [rejectRow, hrestart]
    · obtain ⟨rest, rfl⟩ : ∃ rest, window = row.windowStartTs :: rest := by
        cases window with
        | nil => cases hstart
        | cons start rest => exact ⟨rest, by rw [Option.some.inj hstart]⟩
      constructor <;> simp [rejectRow, hrestart, hcount]

theorem counts_run (hnew : rowOf symbol table = none) (calls : List Call) :
    Counts (rowOf symbol (runCalls settings symbol table calls))
      (openWindow (windowSeconds settings) (rejectTimes calls)) := by
  induction calls using List.reverseRecOn with
  | nil =>
    rw [runCalls, Runs.run_nil, hnew]
    exact ⟨rfl, rfl⟩
  | append_singleton calls call ih =>
    rw [runCalls, Runs.run_append, Runs.run_cons, Runs.run_nil, rejectTimes_concat]
    by_cases h : call.rejectCode = 1123
    · rw [if_pos h, openWindow_concat, step_reject h]
      exact counts_rejectRow ih call.nowTs
    · rw [if_neg h, List.append_nil, step_other h]
      exact ih

theorem cooldownUntil_rejectRow (row : Option CooldownRow) (nowTs : ℤ) :
    (rejectRow settings row nowTs).cooldownUntilTs =
      if thresholdValue settings ≤ (rejectRow settings row nowTs).rollingCount ∧
          0 < cooldownSeconds settings
      then max ((row.map CooldownRow.cooldownUntilTs).getD 0) (nowTs + cooldownSeconds settings)
      else (row.map CooldownRow.cooldownUntilTs).getD 0 := rfl

/-- A reject leads to a cooldown exactly if the window now has enough of them, or if a cooldown
was running. -/
theorem cooldown_rejectRow (hcooldown : 0 < settings.cooldownMinutes) (row : Option CooldownRow)
    (nowTs : ℤ) :
    nowTs < (rejectRow settings row nowTs).cooldownUntilTs ↔
      thresholdValue settings ≤ (rejectRow settings row nowTs).rollingCount ∨
        nowTs < (row.map CooldownRow.cooldownUntilTs).getD 0 := by
  have hseconds : 0 < cooldownSeconds settings := lt_max_of_lt_right (by omega)
  rw [cooldownUntil_rejectRow]
  split
  · next htrigger => exact iff_of_true (lt_max_of_lt_right (by omega)) (.inl htrigger.1)
  · next hquiet =>
    rw [or_iff_right]
    exact fun hcount => hquiet ⟨hcount, hseconds⟩

theorem rejectRow_never_earlier (row : CooldownRow) (nowTs : ℤ) :
    row.cooldownUntilTs ≤ (rejectRow settings (some row) nowTs).cooldownUntilTs := by
  rw [cooldownUntil_rejectRow]
  split
  · exact le_max_left _ _
  · exact le_refl _

theorem run_concat (before : List Call) (call : Call) :
    runCalls settings symbol table (before ++ [call]) =
      step settings symbol (runCalls settings symbol table before) call := by
  rw [runCalls, Runs.run_append, Runs.run_cons, Runs.run_nil]

/-- A call that ends a burst leads to a cooldown exactly if the burst is all of the open window, or
if a cooldown was running. -/
theorem cooldown_iff (hwindow : 0 < settings.windowMinutes) (hthreshold : 0 < settings.threshold)
    (hcooldown : 0 < settings.cooldownMinutes) (hnew : rowOf symbol table = none)
    {before : List Call} (hcode : call.rejectCode = 1123)
    (hburst : Burst settings (rejectTimes (before ++ [call])) call.nowTs) :
    InCooldown symbol (runCalls settings symbol table (before ++ [call])) call.nowTs ↔
      (rejectTimes (before ++ [call])).rtake settings.threshold.toNat <:+
          openWindow (settings.windowMinutes * 60) (rejectTimes (before ++ [call])) ∨
        InCooldown symbol (runCalls settings symbol table before) call.nowTs := by
  have hwidth : windowSeconds settings = settings.windowMinutes * 60 := max_eq_right (by omega)
  have hvalue : thresholdValue settings = settings.threshold := max_eq_right (by omega)
  have hlength : settings.threshold.toNat ≤ (rejectTimes (before ++ [call])).length := by
    have := hburst.1
    omega
  have hcounts := @counts_run settings symbol table hnew (before ++ [call])
  rw [run_concat, step_reject hcode, hwidth] at hcounts
  have hcount : (rejectRow settings (rowOf symbol (runCalls settings symbol table before))
      call.nowTs).rollingCount =
        (openWindow (settings.windowMinutes * 60) (rejectTimes (before ++ [call]))).length :=
    hcounts.count
  have hafter : InCooldown symbol (runCalls settings symbol table (before ++ [call])) call.nowTs ↔
      call.nowTs < (rejectRow settings (rowOf symbol (runCalls settings symbol table before))
        call.nowTs).cooldownUntilTs := by
    rw [run_concat, InCooldown, step_reject hcode]
    simp
  have henough : settings.threshold ≤
      (openWindow (settings.windowMinutes * 60) (rejectTimes (before ++ [call]))).length ↔
        settings.threshold.toNat ≤
          (openWindow (settings.windowMinutes * 60) (rejectTimes (before ++ [call]))).length := by
    omega
  rw [hafter, cooldown_rejectRow hcooldown, hcount, hvalue, henough,
    rtake_suffix_openWindow _ hlength]
  cases hrow : rowOf symbol (runCalls settings symbol table before) with
  | some row => simp [InCooldown, hrow]
  | none =>
    -- The first reject of all: the threshold of a burst is one, and the window has it.
    have hfirst : rejectTimes before = [] := by
      have hstart := (@counts_run settings symbol table hnew before).start
      rw [hrow] at hstart
      exact openWindow_eq_nil _ (List.head?_eq_none_iff.mp hstart.symm)
    have hone : rejectTimes (before ++ [call]) = [call.nowTs] := by
      rw [rejectTimes_concat, hfirst, if_pos hcode, List.nil_append]
    have hlong : settings.threshold.toNat ≤
        (openWindow (settings.windowMinutes * 60) (rejectTimes (before ++ [call]))).length := by
      rw [hone] at hlength ⊢
      exact hlength
    exact iff_of_true (.inl hlong) (.inl hlong)

/-- Bursts lead to cooldowns exactly where no window is opened within a burst, but for those that a
cooldown covers already. -/
theorem sliding_window_iff (settings : Settings) (symbol : String) (table : Table)
    (calls : List Call) (hwindow : 0 < settings.windowMinutes)
    (hthreshold : 0 < settings.threshold) (hcooldown : 0 < settings.cooldownMinutes)
    (hnew : rowOf symbol table = none) :
    SlidingWindow settings symbol table calls ↔ BurstsUnbroken settings symbol table calls := by
  constructor
  · intro law before call after hsplit hcode hburst
    exact (cooldown_iff hwindow hthreshold hcooldown hnew hcode hburst).mp
      (law.cooldown before call after hsplit hcode hburst)
  · intro hunbroken
    refine ⟨fun before call after hsplit hcode hburst =>
      (cooldown_iff hwindow hthreshold hcooldown hnew hcode hburst).mpr
        (hunbroken before call after hsplit hcode hburst), ?_⟩
    intro before call after _ row hrow
    rw [run_concat]
    by_cases hcode : call.rejectCode = 1123
    · rw [step_reject hcode, hrow]
      exact ⟨_, rfl, rejectRow_never_earlier row call.nowTs⟩
    · rw [step_other hcode]
      exact ⟨row, hrow, le_refl _⟩

def pairSettings : Settings := ⟨60, 2, 240⟩

theorem pair_cooled : SlidingWindow pairSettings "BTC_TRY" [] [⟨1123, 0⟩, ⟨1123, 40⟩] := by
  refine (sliding_window_iff pairSettings "BTC_TRY" [] [⟨1123, 0⟩, ⟨1123, 40⟩] (by decide)
    (by decide) (by decide) rfl).mpr ?_
  rintro (_ | ⟨first, _ | ⟨second, before⟩⟩) call after hsplit hcode hburst
  · obtain ⟨rfl, -⟩ := List.cons.inj hsplit
    exact absurd hburst (by decide)
  · obtain ⟨rfl, hrest⟩ := List.cons.inj hsplit
    obtain ⟨rfl, -⟩ := List.cons.inj hrest
    exact .inl (by decide)
  · simp at hsplit

/-- The window of the first reject is over at the third, and the fourth is the second of the next
window. -/
def straddlingCalls : List Call := [⟨1123, 0⟩, ⟨1123, 3500⟩, ⟨1123, 3601⟩, ⟨1123, 3700⟩]

/-- Three rejects of the last hour, and no cooldown. -/
theorem straddling_burst_missed : ¬ SlidingWindow {} "BTC_TRY" [] straddlingCalls := by
  intro law
  obtain ⟨row, hrow, hactive⟩ := law.cooldown (straddlingCalls.take 3) ⟨1123, 3700⟩ [] rfl rfl
    (by decide)
  have hstored : rowOf "BTC_TRY" (runCalls {} "BTC_TRY" [] (straddlingCalls.take 3 ++
      [⟨1123, 3700⟩])) = some ⟨"1123_min_total", 0, 2, 3601, 3700⟩ := by decide +kernel
  obtain rfl := Option.some.inj (hstored.symm.trans hrow)
  exact absurd hactive (by decide)

end Runs

end SymbolCooldowns
